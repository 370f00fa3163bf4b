import ApiDescription.Document.SecurityScheme

/-!
# Lists of security requirements

A request may be served when it satisfies any one requirement of a list, and a requirement when it
satisfies all the schemes in it. A `SecurityTerm` says which requirements go behind a list.
-/

set_option autoImplicit false

namespace ApiDescription

/-- Something that is demanded of callers. -/
inductive SecurityTerm where
  | require (scheme : String) (scopes : List String)
  | requireAll (group : List (String × List String))
  | anyOf (schemes : List String)
  | extend (requirements : List SecurityRequirement)
  deriving Repr

namespace SecurityTerm

/-- The requirements that the term stands for. In a group, of entries for the same scheme the last one
counts. -/
def requirements : SecurityTerm → List SecurityRequirement
  | .require scheme scopes => [[(scheme, scopes)]]
  | .requireAll group => [Entries.ofList group]
  | .anyOf schemes => schemes.map fun scheme => [(scheme, [])]
  | .extend requirements => requirements

end SecurityTerm

namespace SecurityRequirement

/-- The list with the requirements of a term behind it. -/
def demand (rs : List SecurityRequirement) (term : SecurityTerm) : List SecurityRequirement :=
  rs ++ term.requirements

/-- The names of all schemes in the list, each at its first place. -/
def schemeNames (rs : List SecurityRequirement) : List String :=
  (rs.flatMap Entries.keys).foldl
    (fun names name => if names.contains name then names else names ++ [name]) []

/-- The written list. -/
def listToJson (rs : List SecurityRequirement) : Json := Json.listOf toJson rs

end SecurityRequirement

end ApiDescription
