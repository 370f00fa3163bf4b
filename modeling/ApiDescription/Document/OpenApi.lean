import ApiDescription.Document.PathItem

/-!
# OpenAPI documents

The document as a whole: its components, and the root object that `OpenApi.toJson` writes.
-/

set_option autoImplicit false

namespace ApiDescription

/-- The requests that an operation sends back, by the expression that finds their URL. -/
abbrev Callback := List (String × PathItem)

namespace Callback

/-- The written form. -/
def toJson (c : Callback) : Json := Json.mapOf PathItem.toJson c

/-- Reads a callback. -/
def ofData? (d : Data) : Option Callback := d.mapOf? PathItem.ofData?

end Callback

/-! ## Components -/

/-- The parts of a document that others refer to. -/
structure Components where
  schemas : List (String × SchemaOrReference) := []
  responses : List (String × OrReference Response) := []
  parameters : List (String × OrReference Parameter) := []
  examples : List (String × OrReference Example) := []
  requestBodies : List (String × OrReference RequestBody) := []
  headers : List (String × OrReference Header) := []
  securitySchemes : List (String × OrReference SecurityScheme) := []
  links : List (String × OrReference Link) := []
  callbacks : List (String × OrReference Callback) := []
  pathItems : List (String × OrReference PathItem) := []
  deriving Repr, Inhabited

namespace Components

/-- There is no component of any kind. -/
def isEmpty (c : Components) : Bool :=
  c.schemas.isEmpty && c.responses.isEmpty && c.parameters.isEmpty && c.examples.isEmpty &&
    c.requestBodies.isEmpty && c.headers.isEmpty && c.securitySchemes.isEmpty &&
    c.links.isEmpty && c.callbacks.isEmpty && c.pathItems.isEmpty

/-- The written form. -/
def toJson (c : Components) : Json := .object <|
  Json.mapMember "schemas" SchemaObject.refToJson c.schemas ++
  Json.mapMember "responses" (OrReference.toJson Response.toJson) c.responses ++
  Json.mapMember "parameters" (OrReference.toJson Parameter.toJson) c.parameters ++
  Json.mapMember "examples" (OrReference.toJson Example.toJson) c.examples ++
  Json.mapMember "requestBodies" (OrReference.toJson RequestBody.toJson) c.requestBodies ++
  Json.mapMember "headers" (OrReference.toJson Header.toJson) c.headers ++
  Json.mapMember "securitySchemes" (OrReference.toJson SecurityScheme.toJson)
    c.securitySchemes ++
  Json.mapMember "links" (OrReference.toJson Link.toJson) c.links ++
  Json.mapMember "callbacks" (OrReference.toJson Callback.toJson) c.callbacks ++
  Json.mapMember "pathItems" (OrReference.toJson PathItem.toJson) c.pathItems

/-- Reads components. -/
def ofData? (d : Data) : Option Components := do
  let r ← Record.ofData? [⟨"schemas", true⟩, ⟨"responses", true⟩, ⟨"parameters", true⟩,
    ⟨"examples", true⟩, ⟨"requestBodies", true⟩, ⟨"headers", true⟩, ⟨"securitySchemes", true⟩,
    ⟨"links", true⟩, ⟨"callbacks", true⟩, ⟨"pathItems", true⟩] d
  let schemas ← r.withDefault? "schemas" [] (Data.mapOf? SchemaObject.refOfData?)
  let responses ← r.withDefault? "responses" []
    (Data.mapOf? (OrReference.ofData? Response.ofData?))
  let parameters ← r.withDefault? "parameters" []
    (Data.mapOf? (OrReference.ofData? Parameter.ofData?))
  let examples ← r.withDefault? "examples" []
    (Data.mapOf? (OrReference.ofData? Example.ofData?))
  let requestBodies ← r.withDefault? "requestBodies" []
    (Data.mapOf? (OrReference.ofData? RequestBody.ofData?))
  let headers ← r.withDefault? "headers" [] (Data.mapOf? (OrReference.ofData? Header.ofData?))
  let securitySchemes ← r.withDefault? "securitySchemes" []
    (Data.mapOf? (OrReference.ofData? SecurityScheme.ofData?))
  let links ← r.withDefault? "links" [] (Data.mapOf? (OrReference.ofData? Link.ofData?))
  let callbacks ← r.withDefault? "callbacks" []
    (Data.mapOf? (OrReference.ofData? Callback.ofData?))
  let pathItems ← r.withDefault? "pathItems" []
    (Data.mapOf? (OrReference.ofData? PathItem.ofData?))
  pure ⟨schemas, responses, parameters, examples, requestBodies, headers, securitySchemes, links,
    callbacks, pathItems⟩

end Components

/-! ## The document -/

/-- The version of the description format that documents are written in. -/
def openApiVersion : String := "3.1.0"

/-- An OpenAPI document. -/
structure OpenApi where
  openapi : String := openApiVersion
  info : Info
  jsonSchemaDialect : Option String := none
  servers : List Server := []
  paths : List (String × PathItem) := []
  webhooks : List (String × PathItem) := []
  components : Components := {}
  security : List SecurityRequirement := []
  tags : List Tag := []
  externalDocs : Option ExternalDocs := none
  deriving Repr, Inhabited

namespace OpenApi

/-- The number of operations under all paths. -/
def operationCount (o : OpenApi) : Nat :=
  (o.paths.flatMap fun p => p.2.operations).length

/-- The member of the components, which is left out when there are none. -/
def componentsMember (c : Components) : List (String × Json) :=
  if c.isEmpty then [] else [("components", c.toJson)]

/-- The written form, which shows the paths even when there are none. -/
def toJson (o : OpenApi) : Json := .object <|
  [("openapi", .string o.openapi), ("info", o.info.toJson)] ++
  Json.member? "jsonSchemaDialect" .string o.jsonSchemaDialect ++
  Json.listMember "servers" Server.toJson o.servers ++
  [("paths", Json.mapOf PathItem.toJson o.paths)] ++
  Json.mapMember "webhooks" PathItem.toJson o.webhooks ++
  componentsMember o.components ++
  Json.listMember "security" SecurityRequirement.toJson o.security ++
  Json.listMember "tags" Tag.toJson o.tags ++
  Json.member? "externalDocs" ExternalDocs.toJson o.externalDocs

/-- Reads a document. -/
def ofData? (d : Data) : Option OpenApi := do
  let r ← Record.ofData? [⟨"openapi", false⟩, ⟨"info", false⟩, ⟨"jsonSchemaDialect", false⟩,
    ⟨"servers", true⟩, ⟨"paths", true⟩, ⟨"webhooks", true⟩, ⟨"components", true⟩,
    ⟨"security", true⟩, ⟨"tags", true⟩, ⟨"externalDocs", false⟩] d
  let openapi ← r.required? "openapi" Data.text?
  let info ← r.required? "info" Info.ofData?
  let jsonSchemaDialect ← r.optional? "jsonSchemaDialect" Data.text?
  let servers ← r.withDefault? "servers" [] (Data.listOf? Server.ofData?)
  let paths ← r.withDefault? "paths" [] (Data.mapOf? PathItem.ofData?)
  let webhooks ← r.withDefault? "webhooks" [] (Data.mapOf? PathItem.ofData?)
  let components ← r.withDefault? "components" {} Components.ofData?
  let security ← r.withDefault? "security" [] (Data.listOf? SecurityRequirement.ofData?)
  let tags ← r.withDefault? "tags" [] (Data.listOf? Tag.ofData?)
  let externalDocs ← r.optional? "externalDocs" ExternalDocs.ofData?
  pure ⟨openapi, info, jsonSchemaDialect, servers, paths, webhooks, components, security, tags,
    externalDocs⟩

end OpenApi

end ApiDescription
