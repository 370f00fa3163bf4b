import ApiDescription.Yaml.Plain

/-!
# Scalars of data files

A scalar either has its type already, as in JSON, or is written text whose reading depends on the
type that is asked for, as in YAML: the unquoted text `5` is a number where a value is wanted and the
text `5` where a text is wanted.
-/

set_option autoImplicit false

namespace ApiDescription

/-- How written text stands in its file. -/
inductive TextStyle where
  | plain
  | quoted
  | literal
  | folded
  deriving DecidableEq, Repr, Inhabited

/-- A scalar of a data file. -/
inductive Scalar where
  | null
  | bool (b : Bool)
  | number (n : Number)
  | text (s : String)
  | written (s : String) (style : TextStyle) (tag : Option String)
  deriving Repr, Inhabited

namespace Scalar

/-- The tags of the core types. -/
def coreTag (name : String) : String := "tag:yaml.org,2002:" ++ name

/-- The name that a tag of the file's own gives. -/
def localTag? (tag : Option String) : Option String :=
  match tag with
  | some t => match t.toList with
    | '!' :: rest => some (String.ofList rest)
    | _ => none
  | none => none

/-- The value that the scalar has where any value may stand. -/
def meaning? : Scalar → Option Json
  | .null => some .null
  | .bool b => some (.bool b)
  | .number n => some (.number n)
  | .text s => some (.string s)
  | .written s style none => if style = .plain then Yaml.plainMeaning s else some (.string s)
  | .written s _ (some tag) =>
    if (localTag? (some tag)).isSome then none
    else if tag == coreTag "bool" then (Yaml.boolOf? s).map .bool
    else if tag == coreTag "int" then (Yaml.integerMeaning s.toList).bind id
    else if tag == coreTag "float" then (Yaml.realOf? s.toList).map Yaml.jsonOfReal
    else if tag == coreTag "null" then if Yaml.isNullWord s then some .null else none
    else some (.string s)

/-- The scalar is read by its text as the type of the given name: unquoted, or a literal block with the
tag of the type. -/
def isReadAs (typeName : String) (style : TextStyle) (tag : Option String) : Bool :=
  style = .plain || (style = .literal && tag == some (coreTag typeName))

/-- The text of the scalar. -/
def text? : Scalar → Option String
  | .text s => some s
  | .written s _ _ => some s
  | _ => none

/-- The scalar as a boolean. -/
def bool? : Scalar → Option Bool
  | .bool b => some b
  | .written s style tag => if isReadAs "bool" style tag then Yaml.boolOf? s else none
  | _ => none

/-- The scalar as a natural below `limit`, which is at most `2 ^ 64`. -/
def count? (limit : Nat) : Scalar → Option Nat
  | .number (.integer n) => if 0 ≤ n ∧ n < limit then some n.toNat else none
  | .written s style tag =>
    if isReadAs "int" style tag then (Yaml.countOf? s.toList).filter (· < limit) else none
  | _ => none

/-- The scalar as a floating-point number. -/
def real? : Scalar → Option Binary64
  | .number (.integer n) => some (.ofInt n)
  | .number (.real x) => some (.finite x)
  | .written s style tag => if isReadAs "float" style tag then Yaml.realOf? s.toList else none
  | _ => none

/-- The scalar as a number that keeps integers apart. -/
def number? : Scalar → Option Number
  | .number n => some n
  | s => match s.meaning? with
    | some (.number n) => some n
    | _ => none

/-- The scalar stands for a missing value. Nothing is left over when its tag says null and its text
does not. -/
def isNull? : Scalar → Option Bool
  | .null => some true
  | .written s .plain none => some (s.isEmpty || Yaml.isNullWord s)
  | .written s .plain (some tag) =>
    if tag == coreTag "null" then if Yaml.isNullWord s then some true else none else some false
  | _ => some false

/-- The scalar is empty unquoted text, which also stands for an empty list or table. -/
def isEmptyText : Scalar → Bool
  | .written s .plain _ => s.isEmpty
  | _ => false

end Scalar

end ApiDescription
