import ApiDescription.Document.PathItem
import ApiDescription.Manifest.Schema
import ApiDescription.Operation.Compile

/-!
# Operations written as data

An operation definition is what a manifest says about an operation. `OperationDefinition.steps` are the
steps of the draft that it describes.
-/

set_option autoImplicit false

namespace ApiDescription

/-- What a manifest says about the response under one status code. -/
structure ResponseEntry where
  description : Option String := none
  schema : Option SchemaDefinition := none
  headers : Option SchemaDefinition := none
  deriving Repr, Inhabited

/-- Reads a response. -/
def ResponseEntry.ofData? (d : Data) : Option ResponseEntry := do
  let r ← Record.ofData? [⟨"description", true⟩, ⟨"schema", true⟩, ⟨"headers", true⟩] d
  let description ← r.optional? "description" Data.text?
  let schema ← r.optional? "schema" SchemaDefinition.ofData?
  let headers ← r.optional? "headers" SchemaDefinition.ofData?
  pure { description, schema, headers }

/-- An operation written as data. -/
structure OperationDefinition where
  method : Method
  path : String
  summary : Option String := none
  description : Option String := none
  operationId : Option String := none
  tags : List String := []
  deprecated : Bool := false
  successCode : Option Nat := none
  params : Option SchemaDefinition := none
  query : Option SchemaDefinition := none
  body : Option SchemaDefinition := none
  headers : Option SchemaDefinition := none
  /-- The response under the success code. -/
  response : Option SchemaDefinition := none
  /-- Responses by the texts of their status codes. -/
  responses : List (String × ResponseEntry) := []
  /-- The codes of standard errors. -/
  errors : List Nat := []
  security : Option (List SecurityRequirement) := none
  /-- The operation demands nothing, whatever the document does. -/
  isPublic : Bool := false
  deriving Repr

namespace OperationDefinition

/-- The greatest number that can stand for a status code is one less. -/
def codeLimit : Nat := twoTo 16

/-- Reads an operation. -/
def ofData? (d : Data) : Option OperationDefinition := do
  let r ← Record.ofData? [⟨"method", false⟩, ⟨"path", false⟩, ⟨"summary", true⟩,
    ⟨"description", true⟩, ⟨"operation_id", true⟩, ⟨"tags", true⟩, ⟨"deprecated", true⟩,
    ⟨"success_code", true⟩, ⟨"params", true⟩, ⟨"query", true⟩, ⟨"body", true⟩,
    ⟨"headers", true⟩, ⟨"response", true⟩, ⟨"responses", true⟩, ⟨"errors", true⟩,
    ⟨"security", true⟩, ⟨"public", true⟩] d
  let method ← r.required? "method" (Data.nameOf? Method.ofName?)
  let path ← r.required? "path" Data.text?
  let summary ← r.optional? "summary" Data.text?
  let description ← r.optional? "description" Data.text?
  let operationId ← r.optional? "operation_id" Data.text?
  let tags ← r.withDefault? "tags" [] (Data.listOf? Data.text?)
  let deprecated ← r.withDefault? "deprecated" false Data.bool?
  let successCode ← r.optional? "success_code" (Data.count? codeLimit)
  let params ← r.optional? "params" SchemaDefinition.ofData?
  let query ← r.optional? "query" SchemaDefinition.ofData?
  let body ← r.optional? "body" SchemaDefinition.ofData?
  let headers ← r.optional? "headers" SchemaDefinition.ofData?
  let response ← r.optional? "response" SchemaDefinition.ofData?
  let responses ← r.withDefault? "responses" [] (Data.mapOf? ResponseEntry.ofData?)
  let errors ← r.withDefault? "errors" [] (Data.listOf? (Data.count? codeLimit))
  let security ← r.optional? "security" (Data.listOf? SecurityRequirement.ofData?)
  let isPublic ← r.withDefault? "public" false Data.bool?
  pure {
    method, path, summary, description, operationId, tags, deprecated, successCode, params, query,
    body, headers, response, responses, errors, security, isPublic
  }

end OperationDefinition

/-! ## Errors -/

/-- Why an operation definition describes no draft. -/
inductive OperationDefinitionError where
  | invalidDefinition (error : DefinitionError)
  | invalidStatusCode (method : Method) (path code : String)
  deriving DecidableEq, Repr

/-- The wording of the error. -/
def OperationDefinitionError.message : OperationDefinitionError → String
  | .invalidDefinition error => error.message
  | .invalidStatusCode method path code =>
    method.name ++ " " ++ path ++ ": invalid status code '" ++ code ++ "'"

namespace OperationDefinition

/-! ## Status codes -/

/-- The status code that a text spells in decimal digits, with a plus sign or without. -/
def statusCode? (text : String) : Option Nat :=
  let digits := match text.toList with
    | '+' :: rest => rest
    | cs => cs
  if digits.isEmpty || !digits.all Char.isDigit then none
  else
    let n := Binary64.digitsValue digits
    if n < codeLimit then some n else none

/-- The description of a response that is given none. -/
def defaultDescription (code : Nat) : String :=
  match StandardError.ofCode? code with
  | some e => e.description
  | none => if 200 ≤ code && code < 300 then "Successful response" else "Response"

/-! ## Steps -/

variable [PatternReader]

/-- The place of one of the operation's schemas. -/
def place (o : OperationDefinition) (slot : String) : String :=
  o.method.name ++ " " ++ o.path ++ " " ++ slot

/-- The step that gives one of the operation's schemas, if there is one. -/
def schemaStep (o : OperationDefinition) (slot : String) (make : Schema → OperationStep)
    (schema : Option SchemaDefinition) : Except OperationDefinitionError (List OperationStep) :=
  match schema with
  | none => .ok []
  | some d =>
    match d.toSchema (o.place slot) with
    | .ok s => .ok [make s]
    | .error e => .error (.invalidDefinition e)

/-- The steps that register a response. -/
def responseSteps (o : OperationDefinition) (response : String × ResponseEntry) :
    Except OperationDefinitionError (List OperationStep) := do
  let (text, r) := response
  match statusCode? text with
  | none => .error (.invalidStatusCode o.method o.path text)
  | some code =>
    let slot := "responses." ++ text
    let description := r.description.getD (defaultDescription code)
    let body ← match r.schema with
      | none => .ok [.respond code none description]
      | some d => o.schemaStep slot (fun s => .respond code (some s) description) (some d)
    let headers ← o.schemaStep (slot ++ ".headers") (.responseHeaders code) r.headers
    .ok (body ++ headers)

/-- The steps that say what a caller must show. -/
def securitySteps (o : OperationDefinition) : List OperationStep :=
  if o.isPublic then [.makePublic] else (o.security.map .secure).toList

/-- The steps of the draft that the definition describes. -/
def steps (o : OperationDefinition) : Except OperationDefinitionError (List OperationStep) := do
  let params ← o.schemaStep "params" .params o.params
  let query ← o.schemaStep "query" .query o.query
  let body ← o.schemaStep "body" .body o.body
  let headers ← o.schemaStep "headers" .headers o.headers
  let response ← o.schemaStep "response" .success o.response
  let responses ← o.responses.mapM o.responseSteps
  .ok <| [.route o.method o.path] ++ (o.summary.map .summary).toList ++
    (o.description.map .description).toList ++ (o.operationId.map .operationId).toList ++
    (if o.tags.isEmpty then [] else [.tags o.tags]) ++
    (if o.deprecated then [.deprecated] else []) ++
    (o.successCode.map .successCode).toList ++ params ++ query ++ body ++ headers ++ response ++
    responses.flatten ++ (if o.errors.isEmpty then [] else [.standardErrors o.errors]) ++
    o.securitySteps

/-- The draft that the definition describes. -/
def draft (o : OperationDefinition) : Except OperationDefinitionError OperationDraft :=
  o.steps.map ({} : OperationDraft).applyAll

end OperationDefinition

end ApiDescription
