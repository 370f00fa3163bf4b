import ApiDescription.Document.PathItem

/-!
# Validity of combined documents

What a combined document must have: a version, a title, a path, an operation under every path and a
response under every operation. `DocumentFault.check` reports what is missing first.
-/

set_option autoImplicit false

namespace ApiDescription

/-- What is wrong with a combined document. -/
inductive DocumentFault where
  | noOpenApiVersion
  | noTitle
  | noInfoVersion
  | noPaths
  | emptyPath (path : String)
  | noResponses (method path : String)
  deriving DecidableEq, Repr

namespace DocumentFault

/-- A field of a document between back quotes. -/
def quoted (field : String) : String := "\x60" ++ field ++ "\x60"

/-- The wording of the fault. -/
def message : DocumentFault → String
  | .noOpenApiVersion => quoted "openapi" ++ " version is missing or empty"
  | .noTitle => quoted "info.title" ++ " is missing or empty"
  | .noInfoVersion => quoted "info.version" ++ " is missing or empty"
  | .noPaths => "document has no paths"
  | .emptyPath path => "path '" ++ path ++ "' has no operations"
  | .noResponses method path => "operation " ++ method ++ " " ++ path ++ " has no responses"

/-- The value is a text that is not blank. -/
def isFilled : Option Json → Bool
  | some (.string s) => !Text.isBlank s
  | _ => false

/-- The name is the name of a method. -/
def isMethod (name : String) : Bool := (Method.ofName? name).isSome

/-- The operations of a path item: the members that are named for a method. -/
def operationsOf (item : Json) : List (String × Json) :=
  (item.members?.getD []).filter fun m => isMethod m.1

/-- The operation has a response. -/
def hasResponses (operation : Json) : Bool :=
  !(((operation.get? "responses").bind Json.members?).getD []).isEmpty

/-- Every path has an operation, and every operation has a response. -/
def checkPaths : List (String × Json) → Except DocumentFault Unit
  | [] => .ok ()
  | (path, item) :: rest =>
    match (operationsOf item).find? fun o => !hasResponses o.2 with
    | some (method, _) => .error (.noResponses method path)
    | none => if (operationsOf item).isEmpty then .error (.emptyPath path) else checkPaths rest

/-- The document has all it must have. -/
def check (document : Json) : Except DocumentFault Unit :=
  let info := document.get? "info"
  let paths := ((document.get? "paths").bind Json.members?).getD []
  if !isFilled (document.get? "openapi") then .error .noOpenApiVersion
  else if !isFilled (info.bind (·.get? "title")) then .error .noTitle
  else if !isFilled (info.bind (·.get? "version")) then .error .noInfoVersion
  else if paths.isEmpty then .error .noPaths
  else checkPaths paths

end DocumentFault

end ApiDescription
