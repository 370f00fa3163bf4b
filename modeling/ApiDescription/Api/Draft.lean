import ApiDescription.Document.OpenApi
import ApiDescription.Operation.Written

/-!
# Drafts of descriptions

An `ApiDraft` gathers what a document says about the API as a whole, its components and its webhooks,
one `ApiStep` at a time. A step never fails: what cannot be added is left out, and its `ApiError` is
kept in the draft.
-/

set_option autoImplicit false

namespace ApiDescription

/-! ## Errors -/

/-- A schema that has both a single example and named ones, by its location in the schema that was given. -/
inductive ExamplePlace where
  | component (name : String) (location : String)
  | attached (method : Method) (path : String) (slot : SchemaSlot) (location : String)
  deriving DecidableEq, Repr

namespace ExamplePlace

/-- The location inside a schema behind the name of the schema. -/
def behind (name location : String) : String :=
  if location.isEmpty then name else name ++ " " ++ location

/-- The written place. -/
def text : ExamplePlace → String
  | .component name location => behind ("schema component '" ++ name ++ "'") location
  | .attached method path slot location =>
    behind (method.name ++ " " ++ path ++ " " ++ slot.routeName) location

end ExamplePlace

/-- Why there is no document. Kinds of components are given by name. -/
inductive ApiError where
  | invalidLicense (fault : LicenseFault)
  | invalidServer (url : String) (fault : ServerFault)
  | invalidComponentKey (kind key : String)
  | divergentComponent (kind key : String)
  | invalidSecurityScheme (name : String) (fault : SecuritySchemeFault)
  | exampleConflict (place : ExamplePlace)
  | invalidSchemaComponent (name : String) (error : SchemaError)
  | duplicateOperation (method : Method) (path : String)
  | duplicateOperationId (id : String)
  deriving DecidableEq, Repr

namespace ApiError

/-- The wording of the error. -/
def message : ApiError → String
  | .invalidLicense fault => "invalid license: " ++ fault.message
  | .invalidServer url fault => "invalid server '" ++ url ++ "': " ++ fault.message
  | .invalidComponentKey kind key =>
    "invalid " ++ kind ++ " component key '" ++ key ++ "': keys must match [A-Za-z0-9._-]+"
  | .divergentComponent kind key =>
    kind ++ " component '" ++ key ++ "' is registered twice with different content"
  | .invalidSecurityScheme name fault =>
    "invalid security scheme '" ++ name ++ "': " ++ fault.message
  | .exampleConflict place =>
    place.text ++ " declares both " ++ SchemaFault.quoted "example" ++ " and " ++
      SchemaFault.quoted "examples"
  | .invalidSchemaComponent name error =>
    "schema component '" ++ name ++ "' is invalid: " ++ error.message
  | .duplicateOperation method path =>
    "operation " ++ method.name ++ " " ++ path ++ " is registered twice"
  | .duplicateOperationId id => "operationId '" ++ id ++ "' is used by more than one operation"

/-- The wordings of the error and of what caused it. -/
def chain (e : ApiError) : List String :=
  match e with
  | .invalidSchemaComponent _ error => e.message :: error.chain
  | _ => [e.message]

end ApiError

/-! ## Components -/

/-- A component to be registered. -/
inductive Component where
  | schema (s : Schema)
  | response (r : Response)
  | parameter (p : Parameter)
  | example (e : Example)
  | requestBody (b : RequestBody)
  | header (h : Header)
  | securityScheme (s : SecurityScheme)
  | link (l : Link)
  | callback (c : Callback)
  | pathItem (p : PathItem)
  deriving Repr

namespace Component

/-- The kind of the component. -/
def kind : Component → String
  | .schema _ => "schemas"
  | .response _ => "responses"
  | .parameter _ => "parameters"
  | .example _ => "examples"
  | .requestBody _ => "requestBodies"
  | .header _ => "headers"
  | .securityScheme _ => "securitySchemes"
  | .link _ => "links"
  | .callback _ => "callbacks"
  | .pathItem _ => "pathItems"

/-- A key of a component is made of letters, digits, dots, underscores and hyphens of ASCII. -/
def isValidKey (key : String) : Bool :=
  !key.isEmpty && key.toList.all fun c => c.isAlphanum || c = '.' || c = '_' || c = '-'

/-- The content of the component is in order in itself. -/
def check (name : String) : Component → Except ApiError Unit
  | .securityScheme s =>
    match s.check with
    | .ok _ => .ok ()
    | .error fault => .error (.invalidSecurityScheme name fault)
  | .schema s =>
    match s.check, s.exampleConflict? with
    | .error e, _ => .error (.invalidSchemaComponent name e)
    | .ok _, some location => .error (.exampleConflict (.component name location))
    | .ok _, none => .ok ()
  | _ => .ok ()

end Component

/-- The map with a component under a key that is free, or has the same content already. -/
def Entries.register {α : Type} (write : α → Json) (kind key : String) (value : α)
    (es : List (String × α)) : Except ApiError (List (String × α)) :=
  match get? es key with
  | none => .ok (es ++ [(key, value)])
  | some old =>
    if (write old).same (write value) then .ok es else .error (.divergentComponent kind key)

namespace Components

/-- The components with one more, compared by content with the one that its key may have already. -/
def insert (cs : Components) (key : String) (c : Component) : Except ApiError Components :=
  match c with
  | .schema s =>
    (Entries.register SchemaObject.refToJson c.kind key s.toObject cs.schemas).map
      fun es => { cs with schemas := es }
  | .response r =>
    (Entries.register (OrReference.toJson Response.toJson) c.kind key (.inline r)
      cs.responses).map fun es => { cs with responses := es }
  | .parameter p =>
    (Entries.register (OrReference.toJson Parameter.toJson) c.kind key (.inline p)
      cs.parameters).map fun es => { cs with parameters := es }
  | .example e =>
    (Entries.register (OrReference.toJson Example.toJson) c.kind key (.inline e)
      cs.examples).map fun es => { cs with examples := es }
  | .requestBody b =>
    (Entries.register (OrReference.toJson RequestBody.toJson) c.kind key (.inline b)
      cs.requestBodies).map fun es => { cs with requestBodies := es }
  | .header h =>
    (Entries.register (OrReference.toJson Header.toJson) c.kind key (.inline h)
      cs.headers).map fun es => { cs with headers := es }
  | .securityScheme s =>
    (Entries.register (OrReference.toJson SecurityScheme.toJson) c.kind key (.inline s)
      cs.securitySchemes).map fun es => { cs with securitySchemes := es }
  | .link l =>
    (Entries.register (OrReference.toJson Link.toJson) c.kind key (.inline l)
      cs.links).map fun es => { cs with links := es }
  | .callback b =>
    (Entries.register (OrReference.toJson Callback.toJson) c.kind key (.inline b)
      cs.callbacks).map fun es => { cs with callbacks := es }
  | .pathItem p =>
    (Entries.register (OrReference.toJson PathItem.toJson) c.kind key (.inline p)
      cs.pathItems).map fun es => { cs with pathItems := es }

/-- The components with one more, if its content and its key are in order. -/
def register (cs : Components) (name : String) (c : Component) : Except ApiError Components := do
  c.check name
  if Component.isValidKey name then cs.insert name c
  else .error (.invalidComponentKey c.kind name)

end Components

/-! ## Drafts -/

/-- What has been said about an API. -/
structure ApiDraft where
  info : Info
  jsonSchemaDialect : Option String := none
  servers : List Server := []
  tags : List Tag := []
  externalDocs : Option ExternalDocs := none
  security : List SecurityRequirement := []
  components : Components := {}
  webhooks : List (String × PathItem) := []
  errors : List ApiError := []
  deriving Repr, Inhabited

/-- One thing said about an API. -/
inductive ApiStep where
  | description (text : String)
  | summary (text : String)
  | termsOfService (url : String)
  | contact (contact : Contact)
  | license (license : License)
  | server (server : Server)
  | tag (tag : Tag)
  | externalDocs (docs : ExternalDocs)
  | jsonSchemaDialect (dialect : String)
  | security (requirements : List SecurityRequirement)
  | component (name : String) (component : Component)
  | webhook (name : String) (operation : Operation)
  deriving Repr

/-- None of the schemas of the operation has both a single example and named ones. -/
def Operation.checkExamples (o : Operation) : Except ApiError Unit :=
  match o.schemas.findSome? fun (slot, s) => s.exampleConflict?.map (slot, ·) with
  | some (slot, location) => .error (.exampleConflict (.attached o.method o.path slot location))
  | none => .ok ()

/-- The path items with an operation put into the one under a key. -/
def PathItem.putOperation (items : List (String × PathItem)) (key : String) (method : Method)
    (o : OperationObject) : List (String × PathItem) :=
  Entries.put items key (((Entries.get? items key).getD {}).setOperation method o)

namespace ApiDraft

/-- The draft of an API about which nothing is known but its title and version. -/
def titled (title version : String) : ApiDraft := { info := { title := title, version := version } }

/-- Keeps an error behind the others. -/
def fail (e : ApiError) (d : ApiDraft) : ApiDraft := { d with errors := d.errors ++ [e] }

/-- The draft after one step. -/
def apply (d : ApiDraft) : ApiStep → ApiDraft
  | .description text => { d with info := { d.info with description := some text } }
  | .summary text => { d with info := { d.info with summary := some text } }
  | .termsOfService url => { d with info := { d.info with termsOfService := some url } }
  | .contact contact => { d with info := { d.info with contact := some contact } }
  | .license license =>
    match license.check with
    | .ok _ => { d with info := { d.info with license := some license } }
    | .error fault => d.fail (.invalidLicense fault)
  | .server server =>
    match server.check with
    | .ok _ => { d with servers := d.servers ++ [server] }
    | .error fault => d.fail (.invalidServer server.url fault)
  | .tag tag => { d with tags := d.tags ++ [tag] }
  | .externalDocs docs => { d with externalDocs := some docs }
  | .jsonSchemaDialect dialect => { d with jsonSchemaDialect := some dialect }
  | .security requirements => { d with security := d.security ++ requirements }
  | .component name component =>
    match d.components.register name component with
    | .ok components => { d with components := components }
    | .error e => d.fail e
  | .webhook name o =>
    match o.checkExamples with
    | .ok _ => { d with webhooks := PathItem.putOperation d.webhooks name o.method o.toObject }
    | .error e => d.fail e

/-- The draft after several steps. -/
def applyAll (d : ApiDraft) (steps : List ApiStep) : ApiDraft := steps.foldl apply d

end ApiDraft

end ApiDescription
