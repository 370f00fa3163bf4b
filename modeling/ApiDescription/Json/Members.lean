import ApiDescription.Json.Value

/-!
# Writing members

Members that a value may lack are lists of no or one member, so that an object is written as the
concatenation of its fields.
-/

set_option autoImplicit false

namespace ApiDescription.Json

variable {α : Type}

/-- The array of the written items. -/
def listOf (write : α → Json) (xs : List α) : Json := .array (xs.map write)

/-- The object of the written entries. -/
def mapOf (write : α → Json) (es : List (String × α)) : Json :=
  .object (es.map fun e => (e.1, write e.2))

/-- The text, or null where there is none. -/
def textOrNull : Option String → Json
  | some s => .string s
  | none => .null

/-- The boolean, or null where there is none. -/
def boolOrNull : Option Bool → Json
  | some b => .bool b
  | none => .null

/-- The member of a field that may be missing. -/
def member? (name : String) (write : α → Json) : Option α → List (String × Json)
  | none => []
  | some a => [(name, write a)]

/-- The member of a list that is left out when it is empty. -/
def listMember (name : String) (write : α → Json) : List α → List (String × Json)
  | [] => []
  | xs => [(name, listOf write xs)]

/-- The member of a map that is left out when it is empty. -/
def mapMember (name : String) (write : α → Json) : List (String × α) → List (String × Json)
  | [] => []
  | es => [(name, mapOf write es)]

end ApiDescription.Json
