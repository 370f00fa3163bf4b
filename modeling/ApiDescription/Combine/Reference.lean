import ApiDescription.Json.Value
import ApiDescription.Combine.Service

/-!
# References to renamed schemas

When schemas are renamed, every reference to one of them has to follow.
-/

set_option autoImplicit false

namespace ApiDescription

/-- The new names of renamed schemas. -/
abbrev Renames := List (String × String)

namespace Renames

/-- How a reference to a schema component begins. -/
def referenceStart : String := "#/components/schemas/"

/-- The target with the new name of the schema, when it is a renamed schema. -/
def retarget (r : Renames) (target : String) : String :=
  match (Service.stripStart? referenceStart target).bind (Entries.get? r) with
  | some renamed => referenceStart ++ renamed
  | none => target

mutual

/-- The value with every reference to a renamed schema pointing at its new name. -/
def redirect (r : Renames) : Json → Json
  | .array xs => .array (redirectItems r xs)
  | .object ms => .object (redirectMembers r ms)
  | j => j

/-- `redirect` on every item. -/
def redirectItems (r : Renames) : List Json → List Json
  | [] => []
  | x :: xs => redirect r x :: redirectItems r xs

/-- `redirect` on the values of all members but references, which are retargeted. -/
def redirectMembers (r : Renames) : List (String × Json) → List (String × Json)
  | [] => []
  | (k, v) :: ms =>
    (k, if k = "$ref" then (match v with
        | .string target => .string (retarget r target)
        | v => v)
      else redirect r v) :: redirectMembers r ms

end

end Renames

end ApiDescription
