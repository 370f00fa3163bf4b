import ApiDescription.Data.Record
import ApiDescription.Json.Members
import ApiDescription.Text.Blank

/-!
# Metadata of a document

Who publishes the API, under which licence and where: the information object, the servers, the tags
and the links to further documentation. `License.check` and `Server.check` hold the two rules that
go beyond the shape of the data.
-/

set_option autoImplicit false

namespace ApiDescription

/-! ## Contact and licence -/

/-- Whom to ask about the API. -/
structure Contact where
  name : Option String := none
  url : Option String := none
  email : Option String := none
  deriving DecidableEq, Repr, Inhabited

namespace Contact

/-- The written form. -/
def toJson (c : Contact) : Json := .object <|
  Json.member? "name" .string c.name ++
  Json.member? "url" .string c.url ++
  Json.member? "email" .string c.email

/-- Reads a contact. -/
def ofData? (d : Data) : Option Contact := do
  let r ← Record.ofData? [⟨"name", false⟩, ⟨"url", false⟩, ⟨"email", false⟩] d
  let name ← r.optional? "name" Data.text?
  let url ← r.optional? "url" Data.text?
  let email ← r.optional? "email" Data.text?
  pure ⟨name, url, email⟩

end Contact

/-- The licence of the API. -/
structure License where
  name : String
  identifier : Option String := none
  url : Option String := none
  deriving DecidableEq, Repr, Inhabited

/-- What is wrong with a licence. -/
inductive LicenseFault where
  | blankName
  | identifierAndUrl (name : String)
  deriving DecidableEq, Repr

/-- The wording of the fault. -/
def LicenseFault.message : LicenseFault → String
  | .blankName => "license name is required"
  | .identifierAndUrl name =>
    "license '" ++ name ++ "' sets both identifier and url, which are mutually exclusive"

namespace License

/-- The licence has a name, and not both an identifier and a URL. -/
def check (l : License) : Except LicenseFault Unit :=
  if Text.isBlank l.name then .error .blankName
  else if l.identifier.isSome && l.url.isSome then .error (.identifierAndUrl l.name)
  else .ok ()

/-- The written form. -/
def toJson (l : License) : Json := .object <|
  [("name", .string l.name)] ++
  Json.member? "identifier" .string l.identifier ++
  Json.member? "url" .string l.url

/-- Reads a licence. -/
def ofData? (d : Data) : Option License := do
  let r ← Record.ofData? [⟨"name", false⟩, ⟨"identifier", false⟩, ⟨"url", false⟩] d
  let name ← r.required? "name" Data.text?
  let identifier ← r.optional? "identifier" Data.text?
  let url ← r.optional? "url" Data.text?
  pure ⟨name, identifier, url⟩

end License

/-! ## Further documentation and tags -/

/-- A link to documentation outside the document. -/
structure ExternalDocs where
  description : Option String := none
  url : String
  deriving DecidableEq, Repr, Inhabited

namespace ExternalDocs

/-- The written form. -/
def toJson (e : ExternalDocs) : Json := .object <|
  Json.member? "description" .string e.description ++ [("url", .string e.url)]

/-- Reads a link. -/
def ofData? (d : Data) : Option ExternalDocs := do
  let r ← Record.ofData? [⟨"description", false⟩, ⟨"url", false⟩] d
  let description ← r.optional? "description" Data.text?
  let url ← r.required? "url" Data.text?
  pure ⟨description, url⟩

end ExternalDocs

/-- A tag that operations are grouped under. -/
structure Tag where
  name : String
  description : Option String := none
  externalDocs : Option ExternalDocs := none
  deriving DecidableEq, Repr, Inhabited

namespace Tag

/-- The written form. -/
def toJson (t : Tag) : Json := .object <|
  [("name", .string t.name)] ++
  Json.member? "description" .string t.description ++
  Json.member? "externalDocs" ExternalDocs.toJson t.externalDocs

/-- Reads a tag. -/
def ofData? (d : Data) : Option Tag := do
  let r ← Record.ofData? [⟨"name", false⟩, ⟨"description", false⟩, ⟨"externalDocs", false⟩] d
  let name ← r.required? "name" Data.text?
  let description ← r.optional? "description" Data.text?
  let externalDocs ← r.optional? "externalDocs" ExternalDocs.ofData?
  pure ⟨name, description, externalDocs⟩

end Tag

/-! ## Information -/

/-- What the document says about the API as a whole. -/
structure Info where
  title : String
  version : String
  summary : Option String := none
  description : Option String := none
  termsOfService : Option String := none
  contact : Option Contact := none
  license : Option License := none
  deriving DecidableEq, Repr, Inhabited

namespace Info

/-- The written form. -/
def toJson (i : Info) : Json := .object <|
  [("title", .string i.title)] ++
  Json.member? "summary" .string i.summary ++
  Json.member? "description" .string i.description ++
  Json.member? "termsOfService" .string i.termsOfService ++
  Json.member? "contact" Contact.toJson i.contact ++
  Json.member? "license" License.toJson i.license ++
  [("version", .string i.version)]

/-- Reads the information object. -/
def ofData? (d : Data) : Option Info := do
  let r ← Record.ofData? [⟨"title", false⟩, ⟨"summary", false⟩, ⟨"description", false⟩,
    ⟨"termsOfService", false⟩, ⟨"contact", false⟩, ⟨"license", false⟩, ⟨"version", false⟩] d
  let title ← r.required? "title" Data.text?
  let summary ← r.optional? "summary" Data.text?
  let description ← r.optional? "description" Data.text?
  let termsOfService ← r.optional? "termsOfService" Data.text?
  let contact ← r.optional? "contact" Contact.ofData?
  let license ← r.optional? "license" License.ofData?
  let version ← r.required? "version" Data.text?
  pure ⟨title, version, summary, description, termsOfService, contact, license⟩

end Info

/-! ## Servers -/

/-- A variable in the URL of a server. -/
structure ServerVariable where
  choices : Option (List String) := none
  default : String
  description : Option String := none
  deriving DecidableEq, Repr, Inhabited

namespace ServerVariable

/-- The written form. -/
def toJson (v : ServerVariable) : Json := .object <|
  Json.member? "enum" (Json.listOf .string) v.choices ++
  [("default", .string v.default)] ++
  Json.member? "description" .string v.description

/-- Reads a variable. -/
def ofData? (d : Data) : Option ServerVariable := do
  let r ← Record.ofData? [⟨"enum", false⟩, ⟨"default", false⟩, ⟨"description", false⟩] d
  let choices ← r.optional? "enum" (Data.listOf? Data.text?)
  let default ← r.required? "default" Data.text?
  let description ← r.optional? "description" Data.text?
  pure ⟨choices, default, description⟩

end ServerVariable

/-- A server of the API. -/
structure Server where
  url : String
  description : Option String := none
  placeholders : List (String × ServerVariable) := []
  deriving DecidableEq, Repr, Inhabited

/-- What is wrong with a variable of a server. -/
inductive ServerFault where
  | noChoices (url variableName : String)
  | defaultNotAChoice (url variableName default : String)
  deriving DecidableEq, Repr

/-- The wording of the fault. -/
def ServerFault.message : ServerFault → String
  | .noChoices url name => "server '" ++ url ++ "' variable '" ++ name ++ "' has an empty enum"
  | .defaultNotAChoice url name default =>
    "server '" ++ url ++ "' variable '" ++ name ++ "' default '" ++ default ++
      "' is not one of its enum values"

namespace Server

/-- A variable that lists its choices has at least one, and its default among them. -/
def checkVariables (url : String) : List (String × ServerVariable) → Except ServerFault Unit
  | [] => .ok ()
  | (name, v) :: rest =>
    match v.choices with
    | none => checkVariables url rest
    | some choices =>
      if choices.isEmpty then .error (.noChoices url name)
      else if choices.contains v.default then checkVariables url rest
      else .error (.defaultNotAChoice url name v.default)

/-- Every variable of the server is in order. -/
def check (s : Server) : Except ServerFault Unit := checkVariables s.url s.placeholders

/-- The written form. -/
def toJson (s : Server) : Json := .object <|
  [("url", .string s.url)] ++
  Json.member? "description" .string s.description ++
  Json.mapMember "variables" ServerVariable.toJson s.placeholders

/-- Reads a server. -/
def ofData? (d : Data) : Option Server := do
  let r ← Record.ofData? [⟨"url", false⟩, ⟨"description", false⟩, ⟨"variables", true⟩] d
  let url ← r.required? "url" Data.text?
  let description ← r.optional? "description" Data.text?
  let placeholders ← r.withDefault? "variables" [] (Data.mapOf? ServerVariable.ofData?)
  pure ⟨url, description, placeholders⟩

end Server

end ApiDescription
