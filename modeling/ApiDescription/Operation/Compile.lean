import ApiDescription.Operation.Draft

/-!
# Checked operations

`OperationDraft.compile` makes an `Operation` of a draft once every check has passed: the path, the kinds
and the contents of all schemas, and the status codes.
-/

set_option autoImplicit false

namespace ApiDescription

/-- An operation that has passed every check. Its responses stand by ascending status code, and among
them is the one that `success` gives for the success code. -/
structure Operation where
  method : Method
  path : String
  summary : Option String
  description : Option String
  tags : List String
  operationId : Option String
  deprecated : Bool
  externalDocs : Option ExternalDocs
  successCode : Nat
  params : Option Schema
  query : Option Schema
  body : Option Schema
  headers : Option Schema
  success : Option Schema
  responses : List (Nat × ResponseDefinition)
  security : Option (List SecurityRequirement)
  deriving Repr, Inhabited

namespace Operation

/-- The names of the parameters in the path. -/
def pathParameters (o : Operation) : List String := PathTemplate.parameters o.path

end Operation

/-- The description of the response that a schema for the success code stands for. -/
def successDescription : String := "Successful response"

/-- The schemas attached to one response. -/
def ResponseDefinition.schemas (r : ResponseDefinition) : List (SchemaSlot × Schema) :=
  (r.schema.map (.response r.code, ·)).toList ++
    (r.headers.map (.responseHeaders r.code, ·)).toList

namespace OperationDraft

/-- There is no error in the draft, or the first one is reported. -/
def checkErrors (d : OperationDraft) : Except OperationError Unit :=
  match d.errors with
  | [] => .ok ()
  | e :: _ => .error e

/-- The method of the draft. -/
def checkMethod (d : OperationDraft) : Except OperationError Method :=
  match d.method with
  | some m => .ok m
  | none => .error .noMethod

/-- The names of the placeholders in the path of the draft. -/
def checkPath (d : OperationDraft) : Except OperationError (List String) :=
  match PathTemplate.placeholders d.path with
  | .ok names => .ok names
  | .error fault => .error (.ofPathFault d.path fault)

/-- The schema is for objects, or missing. -/
def checkObject (slot : SchemaSlot) : Option Schema → Except OperationError Unit
  | none => .ok ()
  | some s => if s.isObject then .ok () else .error (.nonObjectSchema slot s.kindName)

/-- If there are params, each placeholder is one of them. -/
def checkCovered (d : OperationDraft) (placeholders : List String) :
    Except OperationError Unit :=
  match d.params.bind Schema.properties? with
  | none => .ok ()
  | some ps =>
    match placeholders.find? fun name => !Entries.has ps name with
    | some name => .error (.uncoveredPlaceholder d.path name)
    | none => .ok ()

/-- The responses of the draft, and among them the one for the success code. -/
def withSuccess (d : OperationDraft) : Except OperationError (List (Nat × ResponseDefinition)) :=
  if !isStatusCode d.successCode then .error (.invalidSuccessCode d.successCode)
  else
    match d.success with
    | none => .ok d.responses
    | some s =>
      if d.hasResponse d.successCode then .error (.duplicateSuccessResponse d.successCode)
      else
        .ok (Sorted.insert d.responses d.successCode
          { code := d.successCode, description := successDescription, schema := some s })

/-- The responses with headers attached to them, by ascending status code. -/
def attachHeaders (responses : List (Nat × ResponseDefinition)) :
    List (Nat × Schema) → Except OperationError (List (Nat × ResponseDefinition))
  | [] => .ok responses
  | (code, headers) :: rest =>
    if !headers.isObject then
      .error (.nonObjectSchema (.responseHeaders code) headers.kindName)
    else
      match Sorted.get? responses code with
      | none => .error (.headersWithoutResponse code)
      | some r =>
        attachHeaders (Sorted.insert responses code { r with headers := some headers }) rest

/-- The schemas of the request in the order in which they are checked. -/
def requestSchemas (d : OperationDraft) : List (SchemaSlot × Schema) :=
  [(.params, d.params), (.query, d.query), (.body, d.body), (.headers, d.headers)].filterMap
    fun (slot, schema) => schema.map (slot, ·)

/-- None of the schemas has a fault. -/
def checkSchemas (method : Method) (path : String) :
    List (SchemaSlot × Schema) → Except OperationError Unit
  | [] => .ok ()
  | (slot, s) :: rest =>
    match s.check with
    | .ok _ => checkSchemas method path rest
    | .error e => .error (.invalidSchema method path slot e)

/-- The checked operation. -/
def compile (d : OperationDraft) : Except OperationError Operation := do
  d.checkErrors
  let method ← d.checkMethod
  let placeholders ← d.checkPath
  checkObject .params d.params
  checkObject .query d.query
  checkObject .headers d.headers
  d.checkCovered placeholders
  let responses ← d.withSuccess
  let responses ← attachHeaders responses d.responseHeaders
  checkSchemas method d.path d.requestSchemas
  checkSchemas method d.path (responses.flatMap fun r => r.2.schemas)
  pure {
    method := method
    path := d.path
    summary := d.summary
    description := d.description
    tags := d.tags
    operationId := d.operationId
    deprecated := d.deprecated
    externalDocs := d.externalDocs
    successCode := d.successCode
    params := d.params
    query := d.query
    body := d.body
    headers := d.headers
    success := d.success
    responses := responses
    security := d.security
  }

end OperationDraft

end ApiDescription
