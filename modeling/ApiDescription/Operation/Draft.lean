import ApiDescription.Document.PathItem
import ApiDescription.Operation.PathTemplate
import ApiDescription.Operation.Security
import ApiDescription.Operation.StandardError
import ApiDescription.Schema.Check
import ApiDescription.Schema.Written
import ApiDescription.Sorted

/-!
# Drafts of operations

An `OperationDraft` gathers what is said about an operation, one `OperationStep` at a time. Tags,
responses and security requirements pile up, and everything else is overwritten. A step never fails:
a response that cannot be registered is left out, and its `OperationError` is kept in the draft.
-/

set_option autoImplicit false

namespace ApiDescription

/-- A place of an operation where a schema is attached. -/
inductive SchemaSlot where
  | params
  | query
  | body
  | headers
  | response (code : Nat)
  | responseHeaders (code : Nat)
  deriving DecidableEq, Repr

namespace SchemaSlot

/-- The kind of the slot. -/
def kindName : SchemaSlot → String
  | .params => "params"
  | .query => "query"
  | .body => "body"
  | .headers => "headers"
  | .response _ => "response"
  | .responseHeaders _ => "response headers"

/-- The slot as an operation calls it, with the status code in front. -/
def numberedName : SchemaSlot → String
  | .response code => toString code ++ " response"
  | .responseHeaders code => toString code ++ " headers"
  | slot => slot.kindName

/-- The slot as a document calls it, with the status code behind the response. -/
def routeName : SchemaSlot → String
  | .response code => "response " ++ toString code
  | .responseHeaders code => "response " ++ toString code ++ " headers"
  | slot => slot.kindName

end SchemaSlot

/-- Why an operation is refused. -/
inductive OperationError where
  | noMethod
  | emptyPath
  | malformedPath (path : String) (fault : PathFault)
  | uncoveredPlaceholder (path placeholder : String)
  | nonObjectSchema (slot : SchemaSlot) (kind : String)
  | invalidSuccessCode (code : Nat)
  | invalidStatusCode (code : Nat)
  | successCodeOutOfRange (code : Nat)
  | errorCodeOutOfRange (code : Nat)
  | unknownStandardError (code : Nat)
  | duplicateResponse (code : Nat)
  | duplicateSuccessResponse (code : Nat)
  | headersWithoutResponse (code : Nat)
  | invalidSchema (method : Method) (path : String) (slot : SchemaSlot) (error : SchemaError)
  deriving DecidableEq, Repr

namespace OperationError

/-- The wording of the error. -/
def message : OperationError → String
  | .noMethod => "operation has no HTTP method"
  | .emptyPath => "operation path is empty"
  | .malformedPath path fault => "invalid path '" ++ path ++ "': " ++ fault.reason
  | .uncoveredPlaceholder path placeholder =>
    "path placeholder '\x7b" ++ placeholder ++ "\x7d' in '" ++ path ++
      "' has no matching params property"
  | .nonObjectSchema slot kind =>
    slot.kindName ++ " schema must be an object schema, got " ++ kind
  | .invalidSuccessCode code => "success code " ++ toString code ++ " is outside 100..=599"
  | .invalidStatusCode code => "status code " ++ toString code ++ " is not a valid HTTP status code"
  | .successCodeOutOfRange code =>
    "success response code " ++ toString code ++ " is outside 200..300"
  | .errorCodeOutOfRange code => "error response code " ++ toString code ++ " is below 400"
  | .unknownStandardError code =>
    "no standard error definition for status code " ++ toString code
  | .duplicateResponse code => "a response is already registered for status " ++ toString code
  | .duplicateSuccessResponse code =>
    "legacy response and an explicit response are both registered for status " ++ toString code
  | .headersWithoutResponse code =>
    "response headers are declared for status " ++ toString code ++ ", which has no response"
  | .invalidSchema method path slot error =>
    slot.numberedName ++ " schema of " ++ method.name ++ " " ++ path ++ " is invalid: " ++
      error.message

/-- The wordings of the error and of what caused it. -/
def chain (e : OperationError) : List String :=
  match e with
  | .invalidSchema _ _ _ error => e.message :: error.chain
  | _ => [e.message]

/-- The error of a path that is refused. -/
def ofPathFault (path : String) : PathFault → OperationError
  | .empty => .emptyPath
  | fault => .malformedPath path fault

end OperationError

/-! ## Drafts -/

/-- The response of an operation under one status code. -/
structure ResponseDefinition where
  code : Nat
  description : String
  schema : Option Schema := none
  headers : Option Schema := none
  deriving Repr, Inhabited

/-- What has been said about an operation. -/
structure OperationDraft where
  method : Option Method := none
  path : String := ""
  summary : Option String := none
  description : Option String := none
  tags : List String := []
  operationId : Option String := none
  deprecated : Bool := false
  externalDocs : Option ExternalDocs := none
  successCode : Nat := 200
  params : Option Schema := none
  query : Option Schema := none
  body : Option Schema := none
  headers : Option Schema := none
  success : Option Schema := none
  responses : List (Nat × ResponseDefinition) := []
  responseHeaders : List (Nat × Schema) := []
  security : Option (List SecurityRequirement) := none
  errors : List OperationError := []
  deriving Repr, Inhabited

/-- One thing said about an operation. -/
inductive OperationStep where
  | route (method : Method) (path : String)
  | summary (text : String)
  | description (text : String)
  | tags (tags : List String)
  | operationId (id : String)
  | deprecated
  | externalDocs (docs : ExternalDocs)
  | successCode (code : Nat)
  | params (schema : Schema)
  | query (schema : Schema)
  | body (schema : Schema)
  | headers (schema : Schema)
  | success (schema : Schema)
  | respond (code : Nat) (schema : Option Schema) (description : String)
  | respondSuccess (code : Nat) (schema : Option Schema) (description : String)
  | respondError (code : Nat) (schema : Option Schema) (description : String)
  | responseHeaders (code : Nat) (schema : Schema)
  | standardErrors (codes : List Nat)
  | secure (requirements : List SecurityRequirement)
  | makePublic
  deriving Repr

namespace OperationStep

/-- The response of a request that was served. -/
def ok (schema : Schema) : OperationStep := .respondSuccess 200 (some schema) "OK"

/-- The response of a request that made something. -/
def created (schema : Schema) : OperationStep := .respondSuccess 201 (some schema) "Created"

/-- The response of a request that will be served. -/
def accepted (schema : Schema) : OperationStep := .respondSuccess 202 (some schema) "Accepted"

/-- The response without a body. -/
def noContent : OperationStep := .respondSuccess 204 none "No Content"

/-- The demand of a scheme with some scopes. -/
def requireAuth (scheme : String) (scopes : List String) : OperationStep :=
  .secure (SecurityTerm.require scheme scopes).requirements

/-- The demand of any one scheme. -/
def requireAnyOf (schemes : List String) : OperationStep :=
  .secure (SecurityTerm.anyOf schemes).requirements

end OperationStep

namespace OperationDraft

/-- The code can be the status of a response. -/
def isStatusCode (code : Nat) : Bool := 100 ≤ code && code ≤ 599

/-- Keeps an error behind the others. -/
def fail (e : OperationError) (d : OperationDraft) : OperationDraft :=
  { d with errors := d.errors ++ [e] }

/-- A response is registered under the code. -/
def hasResponse (code : Nat) (d : OperationDraft) : Bool := Sorted.has d.responses code

/-- Registers a response under a status code that has none. -/
def respond (code : Nat) (schema : Option Schema) (description : String) (d : OperationDraft) :
    OperationDraft :=
  if !isStatusCode code then d.fail (.invalidStatusCode code)
  else if d.hasResponse code then d.fail (.duplicateResponse code)
  else
    let response := { code := code, description := description, schema := schema }
    { d with responses := Sorted.insert d.responses code response }

/-- Registers a response that tells of a success. -/
def respondSuccess (code : Nat) (schema : Option Schema) (description : String)
    (d : OperationDraft) : OperationDraft :=
  if 200 ≤ code && code < 300 then d.respond code schema description
  else d.fail (.successCodeOutOfRange code)

/-- Registers a response that tells of an error. -/
def respondError (code : Nat) (schema : Option Schema) (description : String)
    (d : OperationDraft) : OperationDraft :=
  if code < 400 then d.fail (.errorCodeOutOfRange code) else d.respond code schema description

/-- Registers a standard error, unless its code has a response already. -/
def respondStandard (d : OperationDraft) (code : Nat) : OperationDraft :=
  if d.hasResponse code then d
  else
    match StandardError.ofCode? code with
    | some e => d.respondError code (some StandardError.body) e.description
    | none => d.fail (.unknownStandardError code)

/-- Registers standard errors one after the other. -/
def respondStandards (codes : List Nat) (d : OperationDraft) : OperationDraft :=
  codes.foldl respondStandard d

/-- The draft after one step. -/
def apply (d : OperationDraft) : OperationStep → OperationDraft
  | .route method path => { d with method := some method, path := path }
  | .summary text => { d with summary := some text }
  | .description text => { d with description := some text }
  | .tags tags => { d with tags := d.tags ++ tags }
  | .operationId id => { d with operationId := some id }
  | .deprecated => { d with deprecated := true }
  | .externalDocs docs => { d with externalDocs := some docs }
  | .successCode code => { d with successCode := code }
  | .params schema => { d with params := some schema }
  | .query schema => { d with query := some schema }
  | .body schema => { d with body := some schema }
  | .headers schema => { d with headers := some schema }
  | .success schema => { d with success := some schema }
  | .respond code schema description => d.respond code schema description
  | .respondSuccess code schema description => d.respondSuccess code schema description
  | .respondError code schema description => d.respondError code schema description
  | .responseHeaders code schema =>
    { d with responseHeaders := Sorted.insert d.responseHeaders code schema }
  | .standardErrors codes => d.respondStandards codes
  | .secure requirements => { d with security := some (d.security.getD [] ++ requirements) }
  | .makePublic => { d with security := some [] }

/-- The draft after several steps. -/
def applyAll (d : OperationDraft) (steps : List OperationStep) : OperationDraft :=
  steps.foldl apply d

end OperationDraft

end ApiDescription
