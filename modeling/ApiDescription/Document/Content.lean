import ApiDescription.Document.SchemaObject

/-!
# Contents of requests and responses

Examples, parameters, headers, links, and the bodies that operations take and give.
-/

set_option autoImplicit false

namespace ApiDescription

/-- A named example. -/
structure Example where
  summary : Option String := none
  description : Option String := none
  value : Option Json := none
  externalValue : Option String := none
  deriving Repr, Inhabited

namespace Example

/-- The written form. -/
def toJson (e : Example) : Json := .object <|
  Json.member? "summary" .string e.summary ++
  Json.member? "description" .string e.description ++
  Json.member? "value" id e.value ++
  Json.member? "externalValue" .string e.externalValue

/-- Reads an example. -/
def ofData? (d : Data) : Option Example := do
  let r ← Record.ofData? [⟨"summary", false⟩, ⟨"description", false⟩, ⟨"value", false⟩,
    ⟨"externalValue", false⟩] d
  let summary ← r.optional? "summary" Data.text?
  let description ← r.optional? "description" Data.text?
  let value ← r.optional? "value" Data.toJson?
  let externalValue ← r.optional? "externalValue" Data.text?
  pure ⟨summary, description, value, externalValue⟩

end Example

/-- A schema given in place or by reference. -/
abbrev SchemaOrReference := OrReference SchemaObject

/-- The content of one media type. -/
structure MediaType where
  schema : Option SchemaOrReference := none
  sample : Option Json := none
  examples : List (String × OrReference Example) := []
  deriving Repr, Inhabited

namespace MediaType

/-- The written form. -/
def toJson (m : MediaType) : Json := .object <|
  Json.member? "schema" SchemaObject.refToJson m.schema ++
  Json.member? "example" id m.sample ++
  Json.mapMember "examples" (OrReference.toJson Example.toJson) m.examples

/-- Reads a media type. -/
def ofData? (d : Data) : Option MediaType := do
  let r ← Record.ofData? [⟨"schema", false⟩, ⟨"example", false⟩, ⟨"examples", true⟩] d
  let schema ← r.optional? "schema" SchemaObject.refOfData?
  let sample ← r.optional? "example" Data.toJson?
  let examples ← r.withDefault? "examples" []
    (Data.mapOf? (OrReference.ofData? Example.ofData?))
  pure ⟨schema, sample, examples⟩

end MediaType

/-! ## Parameters -/

/-- Where a parameter stands in a request. -/
inductive ParameterLocation where
  | path
  | query
  | header
  | cookie
  deriving DecidableEq, Repr, Inhabited

namespace ParameterLocation

/-- The name of the location. -/
def name : ParameterLocation → String
  | .path => "path"
  | .query => "query"
  | .header => "header"
  | .cookie => "cookie"

/-- The location with the given name. -/
def ofName? (s : String) : Option ParameterLocation :=
  [path, query, header, cookie].find? (·.name == s)

end ParameterLocation

/-- A parameter of an operation. -/
structure Parameter where
  name : String
  location : ParameterLocation
  description : Option String := none
  required : Bool
  deprecated : Option Bool := none
  schema : Option SchemaOrReference := none
  sample : Option Json := none
  examples : List (String × OrReference Example) := []
  deriving Repr, Inhabited

namespace Parameter

/-- The parameter of a name and a location; one in the path is required. -/
def located (location : ParameterLocation) (name : String) : Parameter :=
  { name := name, location := location, required := location == .path }

/-- The parameter made required or not; one in the path stays required. -/
def setRequired (required : Bool) (p : Parameter) : Parameter :=
  { p with required := required || p.location == .path }

/-- The written form. -/
def toJson (p : Parameter) : Json := .object <|
  [("name", .string p.name), ("in", .string p.location.name)] ++
  Json.member? "description" .string p.description ++
  [("required", .bool p.required)] ++
  Json.member? "deprecated" .bool p.deprecated ++
  Json.member? "schema" SchemaObject.refToJson p.schema ++
  Json.member? "example" id p.sample ++
  Json.mapMember "examples" (OrReference.toJson Example.toJson) p.examples

/-- Reads a parameter. -/
def ofData? (d : Data) : Option Parameter := do
  let r ← Record.ofData? [⟨"name", false⟩, ⟨"in", false⟩, ⟨"description", false⟩,
    ⟨"required", false⟩, ⟨"deprecated", false⟩, ⟨"schema", false⟩, ⟨"example", false⟩,
    ⟨"examples", true⟩] d
  let name ← r.required? "name" Data.text?
  let location ← r.required? "in" (Data.nameOf? ParameterLocation.ofName?)
  let description ← r.optional? "description" Data.text?
  let required ← r.required? "required" Data.bool?
  let deprecated ← r.optional? "deprecated" Data.bool?
  let schema ← r.optional? "schema" SchemaObject.refOfData?
  let sample ← r.optional? "example" Data.toJson?
  let examples ← r.withDefault? "examples" []
    (Data.mapOf? (OrReference.ofData? Example.ofData?))
  pure ⟨name, location, description, required, deprecated, schema, sample, examples⟩

end Parameter

/-! ## Headers and links -/

/-- A header of a response. -/
structure Header where
  description : Option String := none
  required : Option Bool := none
  schema : Option SchemaOrReference := none
  deriving Repr, Inhabited

namespace Header

/-- The written form. -/
def toJson (h : Header) : Json := .object <|
  Json.member? "description" .string h.description ++
  Json.member? "required" .bool h.required ++
  Json.member? "schema" SchemaObject.refToJson h.schema

/-- Reads a header. -/
def ofData? (d : Data) : Option Header := do
  let r ← Record.ofData? [⟨"description", false⟩, ⟨"required", false⟩, ⟨"schema", false⟩] d
  let description ← r.optional? "description" Data.text?
  let required ← r.optional? "required" Data.bool?
  let schema ← r.optional? "schema" SchemaObject.refOfData?
  pure ⟨description, required, schema⟩

end Header

/-- A link from a response to another operation. -/
structure Link where
  operationRef : Option String := none
  operationId : Option String := none
  parameters : List (String × Json) := []
  description : Option String := none
  deriving Repr, Inhabited

namespace Link

/-- The written form. -/
def toJson (l : Link) : Json := .object <|
  Json.member? "operationRef" .string l.operationRef ++
  Json.member? "operationId" .string l.operationId ++
  Json.mapMember "parameters" id l.parameters ++
  Json.member? "description" .string l.description

/-- Reads a link. -/
def ofData? (d : Data) : Option Link := do
  let r ← Record.ofData? [⟨"operationRef", false⟩, ⟨"operationId", false⟩,
    ⟨"parameters", true⟩, ⟨"description", false⟩] d
  let operationRef ← r.optional? "operationRef" Data.text?
  let operationId ← r.optional? "operationId" Data.text?
  let parameters ← r.withDefault? "parameters" [] (Data.mapOf? Data.toJson?)
  let description ← r.optional? "description" Data.text?
  pure ⟨operationRef, operationId, parameters, description⟩

end Link

/-! ## Bodies -/

/-- The body of a request. -/
structure RequestBody where
  description : Option String := none
  content : List (String × MediaType) := []
  required : Bool
  deriving Repr, Inhabited

namespace RequestBody

/-- The written form. -/
def toJson (b : RequestBody) : Json := .object <|
  Json.member? "description" .string b.description ++
  [("content", Json.mapOf MediaType.toJson b.content), ("required", .bool b.required)]

/-- Reads a request body. -/
def ofData? (d : Data) : Option RequestBody := do
  let r ← Record.ofData? [⟨"description", false⟩, ⟨"content", false⟩, ⟨"required", false⟩] d
  let description ← r.optional? "description" Data.text?
  let content ← r.required? "content" (Data.mapOf? MediaType.ofData?)
  let required ← r.required? "required" Data.bool?
  pure ⟨description, content, required⟩

end RequestBody

/-- A response of an operation. -/
structure Response where
  description : String
  headers : List (String × OrReference Header) := []
  content : List (String × MediaType) := []
  links : List (String × OrReference Link) := []
  deriving Repr, Inhabited

namespace Response

/-- The written form. -/
def toJson (r : Response) : Json := .object <|
  [("description", .string r.description)] ++
  Json.mapMember "headers" (OrReference.toJson Header.toJson) r.headers ++
  Json.mapMember "content" MediaType.toJson r.content ++
  Json.mapMember "links" (OrReference.toJson Link.toJson) r.links

/-- Reads a response. -/
def ofData? (d : Data) : Option Response := do
  let r ← Record.ofData? [⟨"description", false⟩, ⟨"headers", true⟩, ⟨"content", true⟩,
    ⟨"links", true⟩] d
  let description ← r.required? "description" Data.text?
  let headers ← r.withDefault? "headers" [] (Data.mapOf? (OrReference.ofData? Header.ofData?))
  let content ← r.withDefault? "content" [] (Data.mapOf? MediaType.ofData?)
  let links ← r.withDefault? "links" [] (Data.mapOf? (OrReference.ofData? Link.ofData?))
  pure ⟨description, headers, content, links⟩

end Response

end ApiDescription
