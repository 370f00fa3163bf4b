import ApiDescription.Data.Record
import ApiDescription.Json.Members

/-!
# References

Most parts of a document may be given in place or by reference to a component.
-/

set_option autoImplicit false

namespace ApiDescription

/-- A value given in place, or a reference to it. -/
inductive OrReference (α : Type) where
  | reference (target : String)
  | inline (value : α)
  deriving Repr

namespace OrReference

variable {α : Type}

/-- The reference to the component of a kind with the given name. -/
def component (kind name : String) : OrReference α :=
  .reference ("#/components/" ++ kind ++ "/" ++ name)

/-- The reference to a schema component. -/
def schema (name : String) : OrReference α := component "schemas" name

/-- The value, if it is given in place. -/
def inline? : OrReference α → Option α
  | .inline value => some value
  | .reference _ => none

/-- The written form: an object with nothing but the target, or the value. -/
def toJson (write : α → Json) : OrReference α → Json
  | .reference target => .object [("$ref", .string target)]
  | .inline value => write value

/-- The target of the reference that the tree is. -/
def target? (d : Data) : Option String := do
  let r ← Record.ofData? [⟨"$ref", false⟩] d
  r.required? "$ref" Data.text?

/-- Reads a reference where the tree is one, and the value otherwise. Scalars have their own types by
then, so unquoted numbers are no texts here. -/
def ofData? (read : Data → Option α) (d : Data) : Option (OrReference α) :=
  d.typed?.bind fun d =>
    match target? d with
    | some target => some (.reference target)
    | none => (read d).map .inline

end OrReference

end ApiDescription
