import ApiDescription.Data.Record
import ApiDescription.Json.Members
import ApiDescription.Text.Blank

/-!
# Security schemes

The five ways in which a caller can prove who it is. A scheme is written with its kind as a member
`type`; `SecurityScheme.check` holds what the kinds demand of their fields.
-/

set_option autoImplicit false

namespace ApiDescription

/-- The schemes that must be satisfied together, each with the scopes it must grant. -/
abbrev SecurityRequirement := List (String × List String)

namespace SecurityRequirement

/-- The written form. -/
def toJson (r : SecurityRequirement) : Json := Json.mapOf (Json.listOf .string) r

/-- Reads a requirement. -/
def ofData? (d : Data) : Option SecurityRequirement := d.mapOf? (Data.listOf? Data.text?)

end SecurityRequirement

/-! ## Flows -/

/-- One way of obtaining a token. -/
structure OAuthFlow where
  authorizationUrl : Option String := none
  tokenUrl : Option String := none
  refreshUrl : Option String := none
  scopes : List (String × String) := []
  deriving DecidableEq, Repr, Inhabited

namespace OAuthFlow

/-- The written form, which shows the scopes even when there are none. -/
def toJson (f : OAuthFlow) : Json := .object <|
  Json.member? "authorizationUrl" .string f.authorizationUrl ++
  Json.member? "tokenUrl" .string f.tokenUrl ++
  Json.member? "refreshUrl" .string f.refreshUrl ++
  [("scopes", Json.mapOf .string f.scopes)]

/-- Reads a flow. -/
def ofData? (d : Data) : Option OAuthFlow := do
  let r ← Record.ofData? [⟨"authorizationUrl", false⟩, ⟨"tokenUrl", false⟩,
    ⟨"refreshUrl", false⟩, ⟨"scopes", true⟩] d
  let authorizationUrl ← r.optional? "authorizationUrl" Data.text?
  let tokenUrl ← r.optional? "tokenUrl" Data.text?
  let refreshUrl ← r.optional? "refreshUrl" Data.text?
  let scopes ← r.withDefault? "scopes" [] (Data.mapOf? Data.text?)
  pure ⟨authorizationUrl, tokenUrl, refreshUrl, scopes⟩

end OAuthFlow

/-- The flows that a scheme supports. -/
structure OAuthFlows where
  implicit : Option OAuthFlow := none
  password : Option OAuthFlow := none
  clientCredentials : Option OAuthFlow := none
  authorizationCode : Option OAuthFlow := none
  deriving DecidableEq, Repr, Inhabited

/-- What is wrong with a security scheme. -/
inductive SecuritySchemeFault where
  | noParameterName
  | noSchemeName
  | bearerFormatElsewhere (scheme : String)
  | noFlow
  | noAuthorizationUrl (flow : String)
  | noTokenUrl (flow : String)
  | noDiscoveryUrl
  deriving DecidableEq, Repr

/-- The wording of the fault. -/
def SecuritySchemeFault.message : SecuritySchemeFault → String
  | .noParameterName => "apiKey scheme requires a parameter name"
  | .noSchemeName => "http scheme requires a scheme name"
  | .bearerFormatElsewhere scheme =>
    "bearerFormat is only allowed with the bearer scheme, not '" ++ scheme ++ "'"
  | .noFlow => "oauth2 scheme requires at least one flow"
  | .noAuthorizationUrl flow => "oauth2 " ++ flow ++ " flow requires an authorizationUrl"
  | .noTokenUrl flow => "oauth2 " ++ flow ++ " flow requires a tokenUrl"
  | .noDiscoveryUrl => "openIdConnect scheme requires a discovery URL"

namespace OAuthFlows

/-- A flow is missing, or has the URLs that its kind needs. -/
def checkFlow (name : String) (needsAuthorization needsToken : Bool) :
    Option OAuthFlow → Except SecuritySchemeFault Unit
  | none => .ok ()
  | some f =>
    if needsAuthorization && (f.authorizationUrl.getD "").isEmpty then
      .error (.noAuthorizationUrl name)
    else if needsToken && (f.tokenUrl.getD "").isEmpty then .error (.noTokenUrl name)
    else .ok ()

/-- There is a flow, and every flow has the URLs that its kind needs. -/
def check (f : OAuthFlows) : Except SecuritySchemeFault Unit :=
  if f.implicit.isNone && f.password.isNone && f.clientCredentials.isNone &&
      f.authorizationCode.isNone then
    .error .noFlow
  else do
    checkFlow "implicit" true false f.implicit
    checkFlow "password" false true f.password
    checkFlow "clientCredentials" false true f.clientCredentials
    checkFlow "authorizationCode" true true f.authorizationCode

/-- The written form. -/
def toJson (f : OAuthFlows) : Json := .object <|
  Json.member? "implicit" OAuthFlow.toJson f.implicit ++
  Json.member? "password" OAuthFlow.toJson f.password ++
  Json.member? "clientCredentials" OAuthFlow.toJson f.clientCredentials ++
  Json.member? "authorizationCode" OAuthFlow.toJson f.authorizationCode

/-- Reads the flows. -/
def ofData? (d : Data) : Option OAuthFlows := do
  let r ← Record.ofData? [⟨"implicit", false⟩, ⟨"password", false⟩,
    ⟨"clientCredentials", false⟩, ⟨"authorizationCode", false⟩] d
  let implicit ← r.optional? "implicit" OAuthFlow.ofData?
  let password ← r.optional? "password" OAuthFlow.ofData?
  let clientCredentials ← r.optional? "clientCredentials" OAuthFlow.ofData?
  let authorizationCode ← r.optional? "authorizationCode" OAuthFlow.ofData?
  pure ⟨implicit, password, clientCredentials, authorizationCode⟩

end OAuthFlows

/-! ## Schemes -/

/-- Where a key is sent. -/
inductive ApiKeyLocation where
  | header
  | query
  | cookie
  deriving DecidableEq, Repr, Inhabited

namespace ApiKeyLocation

/-- The name of the location. -/
def name : ApiKeyLocation → String
  | .header => "header"
  | .query => "query"
  | .cookie => "cookie"

/-- The location with the given name. -/
def ofName? (s : String) : Option ApiKeyLocation :=
  [header, query, cookie].find? (·.name == s)

end ApiKeyLocation

/-- A way in which a caller proves who it is. -/
inductive SecurityScheme where
  | apiKey (name : String) (location : ApiKeyLocation) (description : Option String)
  | http (scheme : String) (bearerFormat : Option String) (description : Option String)
  | oauth2 (flows : OAuthFlows) (description : Option String)
  | openIdConnect (url : String) (description : Option String)
  | mutualTls (description : Option String)
  deriving DecidableEq, Repr, Inhabited

namespace SecurityScheme

/-- The scheme with the given description. -/
def describe (text : String) : SecurityScheme → SecurityScheme
  | .apiKey name location _ => .apiKey name location (some text)
  | .http scheme bearerFormat _ => .http scheme bearerFormat (some text)
  | .oauth2 flows _ => .oauth2 flows (some text)
  | .openIdConnect url _ => .openIdConnect url (some text)
  | .mutualTls _ => .mutualTls (some text)

/-- The fields hold what the kind of the scheme demands. -/
def check : SecurityScheme → Except SecuritySchemeFault Unit
  | .apiKey name _ _ => if Text.isBlank name then .error .noParameterName else .ok ()
  | .http scheme bearerFormat _ =>
    if Text.isBlank scheme then .error .noSchemeName
    else if bearerFormat.isSome && Text.lower scheme != "bearer" then
      .error (.bearerFormatElsewhere scheme)
    else .ok ()
  | .oauth2 flows _ => flows.check
  | .openIdConnect url _ => if Text.isBlank url then .error .noDiscoveryUrl else .ok ()
  | .mutualTls _ => .ok ()

/-- The written form, beginning with the kind. -/
def toJson : SecurityScheme → Json
  | .apiKey name location description => .object <|
    [("type", .string "apiKey"), ("name", .string name), ("in", .string location.name)] ++
      Json.member? "description" .string description
  | .http scheme bearerFormat description => .object <|
    [("type", .string "http"), ("scheme", .string scheme)] ++
      Json.member? "bearerFormat" .string bearerFormat ++
      Json.member? "description" .string description
  | .oauth2 flows description => .object <|
    [("type", .string "oauth2"), ("flows", flows.toJson)] ++
      Json.member? "description" .string description
  | .openIdConnect url description => .object <|
    [("type", .string "openIdConnect"), ("openIdConnectUrl", .string url)] ++
      Json.member? "description" .string description
  | .mutualTls description => .object <|
    [("type", .string "mutualTLS")] ++ Json.member? "description" .string description

/-- Splits the kind off the fields: the entry `type` of a table, or the first item of a list. -/
def splitKind? : Data → Option (String × Data)
  | .table tagged entries =>
    match entries.filter fun e => e.1 == some "type" with
    | [(_, kind)] => kind.text?.map fun k =>
      (k, .table tagged (entries.filter fun e => !(e.1 == some "type")))
    | _ => none
  | .list fillsRecord tagged (kind :: items) =>
    kind.text?.map fun k => (k, .list fillsRecord tagged items)
  | _ => none

/-- Reads the fields of a scheme of the given kind. -/
def ofFields? (kind : String) (d : Data) : Option SecurityScheme :=
  if kind == "apiKey" then do
    let r ← Record.ofData? [⟨"name", false⟩, ⟨"in", false⟩, ⟨"description", false⟩] d
    let name ← r.required? "name" Data.text?
    let location ← r.required? "in" (Data.nameOf? ApiKeyLocation.ofName?)
    let description ← r.optional? "description" Data.text?
    pure (.apiKey name location description)
  else if kind == "http" then do
    let r ← Record.ofData? [⟨"scheme", false⟩, ⟨"bearerFormat", false⟩, ⟨"description", false⟩] d
    let scheme ← r.required? "scheme" Data.text?
    let bearerFormat ← r.optional? "bearerFormat" Data.text?
    let description ← r.optional? "description" Data.text?
    pure (.http scheme bearerFormat description)
  else if kind == "oauth2" then do
    let r ← Record.ofData? [⟨"flows", false⟩, ⟨"description", false⟩] d
    let flows ← r.required? "flows" OAuthFlows.ofData?
    let description ← r.optional? "description" Data.text?
    pure (.oauth2 flows description)
  else if kind == "openIdConnect" then do
    let r ← Record.ofData? [⟨"openIdConnectUrl", false⟩, ⟨"description", false⟩] d
    let url ← r.required? "openIdConnectUrl" Data.text?
    let description ← r.optional? "description" Data.text?
    pure (.openIdConnect url description)
  else if kind == "mutualTLS" then do
    let r ← Record.ofData? [⟨"description", false⟩] d
    let description ← r.optional? "description" Data.text?
    pure (.mutualTls description)
  else none

/-- Reads a scheme. The kind has to be known before the fields are read, so scalars have their own
types by then. -/
def ofData? (d : Data) : Option SecurityScheme := do
  let d ← d.typed?
  let (kind, fields) ← splitKind? d
  ofFields? kind fields

end SecurityScheme

end ApiDescription
