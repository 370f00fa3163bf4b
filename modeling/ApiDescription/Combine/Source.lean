import ApiDescription.Json.Value

/-!
# Sources of combining

A source is the document of one service, and what is known about the service besides.
-/

set_option autoImplicit false

namespace ApiDescription

/-- The document of a service. -/
structure Source where
  service : String
  origin : String := ""
  document : Json
  /-- Tags that go on every operation of the service. -/
  tags : List String := []
  description : Option String := none
  version : Option String := none
  healthCheck : Option String := none
  deriving Repr, Inhabited

namespace Source

/-- Something is known about the service that the document should say. -/
def hasMetadata (s : Source) : Bool :=
  s.description.isSome || s.version.isSome || s.healthCheck.isSome

/-- The value at the end of a list of names in the document. -/
def lookup? (document : Json) (names : List String) : Option Json :=
  names.foldl (fun j name => j.bind (·.get? name)) (some document)

/-- The members of the object at the end of a list of names, and none when there is no object. -/
def membersAt (document : Json) (names : List String) : List (String × Json) :=
  ((lookup? document names).bind Json.members?).getD []

/-- The items of the array under a name, and none when there is no array. -/
def itemsAt (document : Json) (name : String) : List Json :=
  ((document.get? name).bind Json.items?).getD []

end Source

end ApiDescription
