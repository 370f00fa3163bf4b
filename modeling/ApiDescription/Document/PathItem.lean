import ApiDescription.Document.Content
import ApiDescription.Document.Metadata
import ApiDescription.Document.SecurityScheme

/-!
# Path items

The operations that a path offers, at most one for each method.
-/

set_option autoImplicit false

namespace ApiDescription

/-- A method of a request. -/
inductive Method where
  | get
  | put
  | post
  | delete
  | options
  | head
  | patch
  | trace
  deriving DecidableEq, Repr, Inhabited

namespace Method

/-- All methods in the order in which a path item lists them. -/
def all : List Method := [.get, .put, .post, .delete, .options, .head, .patch, .trace]

/-- The name of the method, as a path item has it. -/
def name : Method → String
  | .get => "get"
  | .put => "put"
  | .post => "post"
  | .delete => "delete"
  | .options => "options"
  | .head => "head"
  | .patch => "patch"
  | .trace => "trace"

/-- The method whose name is spelled exactly so. -/
def ofName? (s : String) : Option Method := all.find? (·.name == s)

/-- The method whose name is spelled so in letters of either case. -/
def ofText? (s : String) : Option Method := ofName? (Text.lower s)

/-- The message for a text that names no method. -/
def unknownMessage (s : String) : String := "unknown HTTP method '" ++ s ++ "'"

end Method

/-! ## Operations -/

/-- An operation as a document holds it. -/
structure OperationObject where
  tags : List String := []
  summary : Option String := none
  description : Option String := none
  externalDocs : Option ExternalDocs := none
  operationId : Option String := none
  parameters : List (OrReference Parameter) := []
  requestBody : Option (OrReference RequestBody) := none
  responses : List (String × OrReference Response) := []
  deprecated : Option Bool := none
  security : Option (List SecurityRequirement) := none
  deriving Repr, Inhabited

namespace OperationObject

/-- The written form, which shows the responses even when there are none. -/
def toJson (o : OperationObject) : Json := .object <|
  Json.listMember "tags" .string o.tags ++
  Json.member? "summary" .string o.summary ++
  Json.member? "description" .string o.description ++
  Json.member? "externalDocs" ExternalDocs.toJson o.externalDocs ++
  Json.member? "operationId" .string o.operationId ++
  Json.listMember "parameters" (OrReference.toJson Parameter.toJson) o.parameters ++
  Json.member? "requestBody" (OrReference.toJson RequestBody.toJson) o.requestBody ++
  [("responses", Json.mapOf (OrReference.toJson Response.toJson) o.responses)] ++
  Json.member? "deprecated" .bool o.deprecated ++
  Json.member? "security" (Json.listOf SecurityRequirement.toJson) o.security

/-- Reads an operation. -/
def ofData? (d : Data) : Option OperationObject := do
  let r ← Record.ofData? [⟨"tags", true⟩, ⟨"summary", false⟩, ⟨"description", false⟩,
    ⟨"externalDocs", false⟩, ⟨"operationId", false⟩, ⟨"parameters", true⟩,
    ⟨"requestBody", false⟩, ⟨"responses", true⟩, ⟨"deprecated", false⟩, ⟨"security", false⟩] d
  let tags ← r.withDefault? "tags" [] (Data.listOf? Data.text?)
  let summary ← r.optional? "summary" Data.text?
  let description ← r.optional? "description" Data.text?
  let externalDocs ← r.optional? "externalDocs" ExternalDocs.ofData?
  let operationId ← r.optional? "operationId" Data.text?
  let parameters ← r.withDefault? "parameters" []
    (Data.listOf? (OrReference.ofData? Parameter.ofData?))
  let requestBody ← r.optional? "requestBody" (OrReference.ofData? RequestBody.ofData?)
  let responses ← r.withDefault? "responses" []
    (Data.mapOf? (OrReference.ofData? Response.ofData?))
  let deprecated ← r.optional? "deprecated" Data.bool?
  let security ← r.optional? "security" (Data.listOf? SecurityRequirement.ofData?)
  pure ⟨tags, summary, description, externalDocs, operationId, parameters, requestBody, responses,
    deprecated, security⟩

end OperationObject

/-! ## Path items -/

/-- The operations of a path, and what they share. -/
structure PathItem where
  summary : Option String := none
  description : Option String := none
  get : Option OperationObject := none
  put : Option OperationObject := none
  post : Option OperationObject := none
  delete : Option OperationObject := none
  options : Option OperationObject := none
  head : Option OperationObject := none
  patch : Option OperationObject := none
  trace : Option OperationObject := none
  parameters : List (OrReference Parameter) := []
  deriving Repr, Inhabited

namespace PathItem

/-- The operation of a method. -/
def operation? (p : PathItem) : Method → Option OperationObject
  | .get => p.get
  | .put => p.put
  | .post => p.post
  | .delete => p.delete
  | .options => p.options
  | .head => p.head
  | .patch => p.patch
  | .trace => p.trace

/-- The path item with the operation of a method set, in place of the one it had. -/
def setOperation (p : PathItem) (m : Method) (o : OperationObject) : PathItem :=
  match m with
  | .get => { p with get := some o }
  | .put => { p with put := some o }
  | .post => { p with post := some o }
  | .delete => { p with delete := some o }
  | .options => { p with options := some o }
  | .head => { p with head := some o }
  | .patch => { p with patch := some o }
  | .trace => { p with trace := some o }

/-- The operations in the order of the methods. -/
def operations (p : PathItem) : List (Method × OperationObject) :=
  Method.all.filterMap fun m => (p.operation? m).map (m, ·)

theorem operation?_setOperation (p : PathItem) (m n : Method) (o : OperationObject) :
    (p.setOperation m o).operation? n = if n = m then some o else p.operation? n := by
  cases m <;> cases n <;> rfl

/-- The written form. -/
def toJson (p : PathItem) : Json := .object <|
  Json.member? "summary" .string p.summary ++
  Json.member? "description" .string p.description ++
  Json.member? "get" OperationObject.toJson p.get ++
  Json.member? "put" OperationObject.toJson p.put ++
  Json.member? "post" OperationObject.toJson p.post ++
  Json.member? "delete" OperationObject.toJson p.delete ++
  Json.member? "options" OperationObject.toJson p.options ++
  Json.member? "head" OperationObject.toJson p.head ++
  Json.member? "patch" OperationObject.toJson p.patch ++
  Json.member? "trace" OperationObject.toJson p.trace ++
  Json.listMember "parameters" (OrReference.toJson Parameter.toJson) p.parameters

/-- Reads a path item. -/
def ofData? (d : Data) : Option PathItem := do
  let r ← Record.ofData? [⟨"summary", false⟩, ⟨"description", false⟩, ⟨"get", false⟩,
    ⟨"put", false⟩, ⟨"post", false⟩, ⟨"delete", false⟩, ⟨"options", false⟩, ⟨"head", false⟩,
    ⟨"patch", false⟩, ⟨"trace", false⟩, ⟨"parameters", true⟩] d
  let summary ← r.optional? "summary" Data.text?
  let description ← r.optional? "description" Data.text?
  let get ← r.optional? "get" OperationObject.ofData?
  let put ← r.optional? "put" OperationObject.ofData?
  let post ← r.optional? "post" OperationObject.ofData?
  let delete ← r.optional? "delete" OperationObject.ofData?
  let options ← r.optional? "options" OperationObject.ofData?
  let head ← r.optional? "head" OperationObject.ofData?
  let patch ← r.optional? "patch" OperationObject.ofData?
  let trace ← r.optional? "trace" OperationObject.ofData?
  let parameters ← r.withDefault? "parameters" []
    (Data.listOf? (OrReference.ofData? Parameter.ofData?))
  pure ⟨summary, description, get, put, post, delete, options, head, patch, trace, parameters⟩

end PathItem

end ApiDescription
