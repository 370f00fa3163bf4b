import ApiDescription.Operation.Compile

/-!
# Operations as written in documents

`Operation.toObject` turns a checked operation into the operation of a document. Placeholders become
parameters, bodies become contents of one media type, and an operation without responses gets the
usual ones.
-/

set_option autoImplicit false

namespace ApiDescription

/-- The media type of all bodies. -/
def bodyMediaType : String := "application/json"

namespace Schema

/-- The schema as the content of a body, with its named examples beside it. -/
def toMediaType (s : Schema) : MediaType :=
  { schema := some s.toObject
    examples := s.facets.examples.map fun e => (e.1, .inline e.2) }

/-- The schema as the content of a body, under the media type of all bodies. -/
def toContent (s : Schema) : List (String × MediaType) := [(bodyMediaType, s.toMediaType)]

/-- The schema as a parameter. One in the path is required, and any other one when it says so. -/
def toParameter (location : ParameterLocation) (name : String) (s : Schema) : Parameter :=
  { name := name
    location := location
    description := s.facets.description
    required := location == .path || s.facets.presence == .required
    schema := some s.toObject }

/-- The schema as a header of a response. -/
def toHeader (s : Schema) : Header :=
  { description := s.facets.description
    required := some (s.facets.presence == .required)
    schema := some s.toObject }

/-- The properties of an optional schema; there are none when it is missing or not for objects. -/
def propertiesOf (s : Option Schema) : List (String × Schema) :=
  (s.bind Schema.properties?).getD []

end Schema

/-- A response under the written form of its status code. -/
abbrev WrittenResponse := String × OrReference Response

namespace ResponseDefinition

/-- The response as a document holds it. -/
def toResponse (r : ResponseDefinition) : Response :=
  { description := r.description
    headers := (Schema.propertiesOf r.headers).map fun (name, s) => (name, .inline s.toHeader)
    content := (r.schema.map Schema.toContent).getD [] }

end ResponseDefinition

namespace Operation

/-- The parameters in the path: the params that are placeholders, or every placeholder as a text when
there are no params. -/
def pathParameterObjects (o : Operation) : List Parameter :=
  match o.params.bind Schema.properties? with
  | some ps =>
    (ps.filter fun p => o.pathParameters.contains p.1).map fun p => p.2.toParameter .path p.1
  | none => o.pathParameters.map fun name => Schema.string.toParameter .path name

/-- All parameters: those in the path, the query and the headers. -/
def parameterObjects (o : Operation) : List Parameter :=
  o.pathParameterObjects ++
    ((Schema.propertiesOf o.query).map fun p => p.2.toParameter .query p.1) ++
    (Schema.propertiesOf o.headers).map fun p => p.2.toParameter .header p.1

/-- The body of the request, which is required unless its schema is optional. -/
def requestBodyObject (o : Operation) : Option RequestBody :=
  o.body.map fun s => { content := s.toContent, required := s.facets.presence != .optional }

/-- The codes of the errors that an operation without responses is given. -/
def stubErrorCodes : List Nat := [400, 500]

/-- The response that stands for a standard error. -/
def stubResponse (code : Nat) : Response :=
  { description := ((StandardError.ofCode? code).map (·.description)).getD "Error"
    content := StandardError.body.toContent }

/-- The responses of an operation that has none of its own: a success and the usual errors. -/
def stubResponses (o : Operation) : List WrittenResponse :=
  let success : Response :=
    { description := successDescription, content := (o.success.map Schema.toContent).getD [] }
  stubErrorCodes.foldl
    (fun rs code => Entries.putNew rs (toString code) (.inline (stubResponse code)))
    [(toString o.successCode, .inline success)]

/-- The responses by ascending status code. -/
def responseObjects (o : Operation) : List WrittenResponse :=
  if o.responses.isEmpty then o.stubResponses
  else o.responses.map fun (code, r) => (toString code, .inline r.toResponse)

/-- The operation as a document holds it. -/
def toObject (o : Operation) : OperationObject :=
  { tags := o.tags
    summary := o.summary
    description := o.description
    externalDocs := o.externalDocs
    operationId := o.operationId
    parameters := o.parameterObjects.map .inline
    requestBody := o.requestBodyObject.map .inline
    responses := o.responseObjects
    deprecated := if o.deprecated then some true else none
    security := o.security }

/-- The attached schemas in the order in which their examples are looked at. -/
def schemas (o : Operation) : List (SchemaSlot × Schema) :=
  ([(.params, o.params), (.query, o.query), (.headers, o.headers), (.body, o.body)].filterMap
    fun (slot, s) => s.map (slot, ·)) ++ o.responses.flatMap fun r => r.2.schemas

end Operation

end ApiDescription
