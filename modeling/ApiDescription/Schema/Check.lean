import ApiDescription.Schema.Refine

/-!
# Checking schema trees

`Schema.check` finds the first schema of a tree, in the order of its places, that has a fault, and
`Schema.exampleConflict?` the first one that has both a single example and named ones. Both tell where by
its location, which is written from the root inwards: the check builds it from the inside, as it hands an
error out, and the search for examples joins it to the location that it found further in.
-/

set_option autoImplicit false

namespace ApiDescription

/-- An error of a schema: a fault of its own, or an error of a schema inside it with the location of that. -/
inductive SchemaError where
  | own (fault : SchemaFault)
  | nested (location : String) (source : SchemaError)
  deriving DecidableEq, Repr

namespace SchemaError

/-- The error seen from further out, from where the location leads to the schema that it is an error of. An error
that has a location already is not wrapped again. -/
def under (location : String) : SchemaError → SchemaError
  | .nested inner source => .nested (location ++ "." ++ inner) source
  | .own fault => .nested location (.own fault)

/-- The wording of the error. -/
def message : SchemaError → String
  | .own fault => fault.message
  | .nested location source => "at " ++ location ++ ": " ++ source.message

/-- The wordings of the error and of what caused it. -/
def chain : SchemaError → List String
  | .own fault => [fault.message]
  | .nested location source => (nested location source).message :: source.chain

end SchemaError

namespace Schema

/-! ## Faults -/

mutual

/-- The first fault of the tree. -/
def firstError? : Schema → Option SchemaError
  | .primitive f _ => f.faults.head?.map .own
  | .reference f _ => f.faults.head?.map .own
  | .array f item => (f.faults.head?.map .own).or ((firstError? item).map (·.under "items"))
  | .object f ps => (f.faults.head?.map .own).or (firstErrorOfProperties? ps)
  | .composition f one all any n =>
    ((((f.faults.head?.map .own).or (firstErrorOfMembers? "oneOf" 0 one)).or
      (firstErrorOfMembers? "allOf" 0 all)).or (firstErrorOfMembers? "anyOf" 0 any)).or
      (firstErrorOfNegated? n)

/-- The first fault of the properties. -/
def firstErrorOfProperties? : List (String × Schema) → Option SchemaError
  | [] => none
  | (name, s) :: ps =>
    ((firstError? s).map (·.under ("properties." ++ name))).or (firstErrorOfProperties? ps)

/-- The first fault of the members of a composition keyword, the first of which has the given index. -/
def firstErrorOfMembers? (keyword : String) (index : Nat) : List Schema → Option SchemaError
  | [] => none
  | s :: ss =>
    ((firstError? s).map (·.under (keyword ++ "[" ++ toString index ++ "]"))).or
      (firstErrorOfMembers? keyword (index + 1) ss)

/-- The first fault of the schema that values must not match. -/
def firstErrorOfNegated? : Option Schema → Option SchemaError
  | none => none
  | some s => (firstError? s).map (·.under "not[0]")

end

/-- The tree has no fault, or the first one is reported. -/
def check (s : Schema) : Except SchemaError Unit :=
  match s.firstError? with
  | some e => .error e
  | none => .ok ()

/-! ## Examples -/

/-- The schema has both a single example and named ones. -/
def hasBothExamples (f : Facets) : Bool := f.sample.isSome && !f.examples.isEmpty

/-- The location of what stands at an inner location of the schema at a location. The inner location of that
schema itself is empty. -/
def innerLocation (location inner : String) : String :=
  if inner.isEmpty then location else location ++ "." ++ inner

mutual

/-- The location of the first schema with both a single example and named ones. -/
def exampleConflict? : Schema → Option String
  | .primitive f _ => if hasBothExamples f then some "" else none
  | .reference f _ => if hasBothExamples f then some "" else none
  | .array f item =>
    if hasBothExamples f then some "" else (exampleConflict? item).map (innerLocation "items")
  | .object f ps => if hasBothExamples f then some "" else conflictOfProperties? ps
  | .composition f one all any n =>
    if hasBothExamples f then some ""
    else
      (((conflictOfMembers? "oneOf" 0 one).or (conflictOfMembers? "allOf" 0 all)).or
        (conflictOfMembers? "anyOf" 0 any)).or (conflictOfNegated? n)

/-- The first such location among the properties. -/
def conflictOfProperties? : List (String × Schema) → Option String
  | [] => none
  | (name, s) :: ps =>
    ((exampleConflict? s).map (innerLocation ("properties." ++ name))).or (conflictOfProperties? ps)

/-- The first such location among the members of a composition keyword. -/
def conflictOfMembers? (keyword : String) (index : Nat) : List Schema → Option String
  | [] => none
  | s :: ss =>
    ((exampleConflict? s).map (innerLocation (keyword ++ "[" ++ toString index ++ "]"))).or
      (conflictOfMembers? keyword (index + 1) ss)

/-- The first such location in the schema that values must not match. -/
def conflictOfNegated? : Option Schema → Option String
  | none => none
  | some s => (exampleConflict? s).map (innerLocation "not[0]")

end

end Schema

end ApiDescription
