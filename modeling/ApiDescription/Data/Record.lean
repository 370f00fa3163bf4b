import ApiDescription.Data.Tree

/-!
# Reading records

A record is read from a table by the names of its fields, entries under other names being passed
over and a field given twice being refused. Where the format lets a list stand for a record, the
items are the fields in their order, and only fields that have a default may be left out at its end.
-/

set_option autoImplicit false

namespace ApiDescription

/-- The name of a field, and whether a list that stands for the record may leave it out. -/
structure FieldName where
  name : String
  hasDefault : Bool := false
  deriving Repr

/-- The fields of a record that were given. -/
structure Record where
  fields : List (String × Data)

namespace Record

/-- Pairs the items of a list with the fields in order. -/
def pairItems? : List FieldName → List Data → Option (List (String × Data))
  | [], [] => some []
  | [], _ :: _ => none
  | f :: fs, [] => if f.hasDefault then pairItems? fs [] else none
  | f :: fs, d :: ds => (pairItems? fs ds).map ((f.name, d) :: ·)

/-- The entries whose keys are field names, each of which may be given once. -/
def known? (names : List FieldName) : List (Option String × Data) → Option (List (String × Data))
  | [] => some []
  | (none, _) :: _ => none
  | (some k, v) :: es =>
    match known? names es with
    | none => none
    | some fs =>
      if names.any (·.name == k) then if Entries.has fs k then none else some ((k, v) :: fs)
      else some fs

/-- The tree as a record with the given fields. -/
def ofData? (names : List FieldName) (d : Data) : Option Record :=
  match d with
  | .list true _ items => (pairItems? names items).map .mk
  | d => do
    let es ← d.entries?
    (known? names es).map .mk

variable {α : Type}

/-- A field that must be there. -/
def required? (r : Record) (name : String) (read : Data → Option α) : Option α :=
  (Entries.get? r.fields name).bind read

/-- A field that may be missing or null. -/
def optional? (r : Record) (name : String) (read : Data → Option α) : Option (Option α) :=
  match Entries.get? r.fields name with
  | none => some none
  | some d => d.optional? read

/-- A field that has a default when it is missing. -/
def withDefault? (r : Record) (name : String) (default : α) (read : Data → Option α) : Option α :=
  match Entries.get? r.fields name with
  | none => some default
  | some d => read d

end Record

end ApiDescription
