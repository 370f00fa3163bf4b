import ApiDescription.Api.Draft

/-!
# Documents of descriptions

`ApiDraft.emit` writes the document of a draft and a list of operations. It refuses a draft with errors,
operations that share method and path, and operations that share an identifier. Requirements of
schemes that the draft does not register are warned of.
-/

set_option autoImplicit false

namespace ApiDescription

/-- An operation requires a security scheme that is not registered. -/
structure SchemeWarning where
  method : Method
  path : String
  scheme : String
  deriving DecidableEq, Repr

/-- The wording of the warning. -/
def SchemeWarning.message (w : SchemeWarning) : String :=
  "operation requires an unregistered security scheme method=" ++ w.method.name ++ " path=" ++
    w.path ++ " scheme=" ++ w.scheme

namespace Operation

/-- The two operations have the same method and path. -/
def sameRoute (o p : Operation) : Bool := o.method == p.method && o.path == p.path

/-- The operation shares neither its route nor its identifier with one before it. -/
def checkUnique (before : List Operation) (o : Operation) : Except ApiError Unit :=
  if before.any o.sameRoute then .error (.duplicateOperation o.method o.path)
  else
    match o.operationId with
    | none => .ok ()
    | some id =>
      if before.any (·.operationId == some id) then .error (.duplicateOperationId id) else .ok ()

end Operation

namespace ApiDraft

/-- The warnings of an operation. -/
def schemeWarnings (d : ApiDraft) (o : Operation) : List SchemeWarning :=
  ((SecurityRequirement.schemeNames (o.security.getD [])).filter
    fun scheme => !Entries.has d.components.securitySchemes scheme).map
      fun scheme => ⟨o.method, o.path, scheme⟩

/-- The path items of the operations that follow those before, put into the given ones, and the warnings
up to the first operation that is refused. -/
def emitPaths (d : ApiDraft) (before : List Operation) (paths : List (String × PathItem)) :
    List Operation → List SchemeWarning × Except ApiError (List (String × PathItem))
  | [] => ([], .ok paths)
  | o :: os =>
    match o.checkUnique before with
    | .error e => ([], .error e)
    | .ok _ =>
      match o.checkExamples with
      | .error e => (d.schemeWarnings o, .error e)
      | .ok _ =>
        let (warnings, result) := d.emitPaths (before ++ [o])
          (PathItem.putOperation paths o.path o.method o.toObject) os
        (d.schemeWarnings o ++ warnings, result)

/-- The document of the draft with the given path items. -/
def toDocument (d : ApiDraft) (paths : List (String × PathItem)) : OpenApi :=
  { info := d.info
    jsonSchemaDialect := d.jsonSchemaDialect
    servers := d.servers
    paths := paths
    webhooks := d.webhooks
    components := d.components
    security := d.security
    tags := d.tags
    externalDocs := d.externalDocs }

/-- The document of the draft and the operations, with the warnings on the way to it. -/
def emit (d : ApiDraft) (os : List Operation) : List SchemeWarning × Except ApiError OpenApi :=
  match d.errors with
  | e :: _ => ([], .error e)
  | [] =>
    let (warnings, paths) := d.emitPaths [] [] os
    (warnings, paths.map d.toDocument)

end ApiDraft

end ApiDescription
