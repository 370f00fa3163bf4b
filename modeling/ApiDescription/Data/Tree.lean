import ApiDescription.Data.Scalar

/-!
# Data trees

A `Data` is what a JSON or YAML text holds before any type is asked of it. Tables keep repeated
keys, since some types refuse them and others let the last one count. `Data.ofJson` embeds JSON
values, and `Data.toJson?` gives the value back where one is wanted.
-/

set_option autoImplicit false

namespace ApiDescription

/-- A tree of data. -/
inductive Data where
  | scalar (s : Scalar)
  /-- A list; it may stand for a record, field by field, when its format lets it, and it may have a
  tag of the file's own. -/
  | list (fillsRecord tagged : Bool) (items : List Data)
  /-- A table; a key that is no scalar has no text. -/
  | table (tagged : Bool) (entries : List (Option String × Data))
  /-- Something that can be passed over but not read. -/
  | unreadable
  deriving Repr, Inhabited

namespace Data

/-! ## From and to JSON -/

mutual

/-- The tree of a JSON value. -/
def ofJson : Json → Data
  | .null => .scalar .null
  | .bool b => .scalar (.bool b)
  | .number n => .scalar (.number n)
  | .string s => .scalar (.text s)
  | .array xs => .list true false (ofItems xs)
  | .object ms => .table false (ofMembers ms)

/-- The trees of JSON items. -/
def ofItems : List Json → List Data
  | [] => []
  | x :: xs => ofJson x :: ofItems xs

/-- The entries of JSON members. -/
def ofMembers : List (String × Json) → List (Option String × Data)
  | [] => []
  | (k, v) :: ms => (some k, ofJson v) :: ofMembers ms

end

mutual

/-- The JSON value with the repeated keys of the tree left in place. -/
def toJsonKeepingRepeats? : Data → Option Json
  | .scalar s => s.meaning?
  | .list _ tagged items => if tagged then none else (itemsToJson? items).map .array
  | .table tagged entries => if tagged then none else (entriesToJson? entries).map .object
  | .unreadable => none

/-- The JSON values of the items, if all have one. -/
def itemsToJson? : List Data → Option (List Json)
  | [] => some []
  | x :: xs =>
    match toJsonKeepingRepeats? x, itemsToJson? xs with
    | some v, some vs => some (v :: vs)
    | _, _ => none

/-- The JSON members of the entries, if all have a key and a value. -/
def entriesToJson? : List (Option String × Data) → Option (List (String × Json))
  | [] => some []
  | (k, x) :: es =>
    match k, toJsonKeepingRepeats? x, entriesToJson? es with
    | some k, some v, some ms => some ((k, v) :: ms)
    | _, _, _ => none

end

/-- The JSON value of the tree; of entries with the same key the last one counts. -/
def toJson? (d : Data) : Option Json := d.toJsonKeepingRepeats?.map Json.withoutRepeats

/-- The tree with every scalar given the type that it has where any value may stand. -/
def typed? (d : Data) : Option Data := d.toJsonKeepingRepeats?.map ofJson

/-! ## Depth -/

mutual

/-- How deep lists and tables nest. -/
def depth : Data → Nat
  | .list _ _ items => depthItems items + 1
  | .table _ entries => depthEntries entries + 1
  | _ => 0

/-- The greatest depth of the items. -/
def depthItems : List Data → Nat
  | [] => 0
  | x :: xs => max x.depth (depthItems xs)

/-- The greatest depth of the entries. -/
def depthEntries : List (Option String × Data) → Nat
  | [] => 0
  | (_, x) :: es => max x.depth (depthEntries es)

end

/-! ## Reading as a type -/

/-- The tree as a text. -/
def text? : Data → Option String
  | .scalar s => s.text?
  | _ => none

/-- The tree as a boolean. -/
def bool? : Data → Option Bool
  | .scalar s => s.bool?
  | _ => none

/-- The tree as a natural below `limit`. -/
def count? (limit : Nat) : Data → Option Nat
  | .scalar s => s.count? limit
  | _ => none

/-- The tree as a floating-point number. -/
def real? : Data → Option Binary64
  | .scalar s => s.real?
  | _ => none

/-- The tree as a number that keeps integers apart. -/
def number? : Data → Option Number
  | .scalar s => s.number?
  | _ => none

/-- The tree as a value that may be missing. -/
def optional? {α : Type} (read : Data → Option α) (d : Data) : Option (Option α) :=
  match d with
  | .scalar s =>
    match s.isNull? with
    | some true => some none
    | some false => (read d).map some
    | none => none
  | d => (read d).map some

/-- The items of a list; unquoted empty text is an empty list. -/
def items? : Data → Option (List Data)
  | .list _ _ items => some items
  | .scalar s => if s.isEmptyText then some [] else none
  | _ => none

/-- The entries of a table; unquoted empty text is an empty table. -/
def entries? : Data → Option (List (Option String × Data))
  | .table _ entries => some entries
  | .scalar s => if s.isEmptyText then some [] else none
  | _ => none

/-- The tree as a list of values. -/
def listOf? {α : Type} (read : Data → Option α) (d : Data) : Option (List α) := do
  (← d.items?).mapM read

/-- The tree as an ordered map of values; of entries with the same key the last one counts. -/
def mapOf? {α : Type} (read : Data → Option α) (d : Data) : Option (List (String × α)) := do
  let es ← (← d.entries?).mapM fun (k, v) => do
    let k ← k
    let v ← read v
    pure (k, v)
  pure (Entries.ofList es)

/-- The tree as one of several names: its text, or a table or a tag that gives a name to nothing. -/
def nameOf? {α : Type} (parse : String → Option α) (d : Data) : Option α :=
  match d with
  | .scalar (.written s style tag) =>
    match Scalar.localTag? tag with
    | some name => if style = .plain && (s.isEmpty || Yaml.isNullWord s) then parse name else none
    | none => parse s
  | .scalar (.text s) => parse s
  | .table false [(some name, .scalar .null)] => parse name
  | _ => none

end Data

end ApiDescription
