import ApiDescription.Command.Options
import ApiDescription.Command.Outcome
import ApiDescription.Manifest.Discovery
import ApiDescription.Text.Uppercase

/-!
# Generating a document

The document of all manifests under a directory. Its title is made of the directory's name when none is
given.
-/

set_option autoImplicit false

namespace ApiDescription

namespace GenerateOptions

/-! ## Titles -/

/-- The title of a document that is given none and cannot be named after its directory. -/
def fallbackTitle : String := "Generated API"

/-- The words of a name, which stand between hyphens and spaces. -/
def words : List Char → List (List Char)
  | [] => [[]]
  | c :: cs =>
    match words cs with
    | [] => [[c]]
    | word :: rest => if c = '-' || c = ' ' then [] :: word :: rest else (c :: word) :: rest

/-- The word with its first character in upper case. -/
def capitalize : List Char → List Char
  | [] => []
  | c :: cs => Text.upper c ++ cs

/-- The title of a document that is named after the directory at a path. -/
def titleOf (path : String) : String :=
  let found := (words ((FilePath.name? path).getD "").toList).filter (!·.isEmpty)
  if found.isEmpty then fallbackTitle
  else String.intercalate " " (found.map fun word => String.ofList (capitalize word)) ++ " API"

/-! ## Documents -/

/-- The warning that no manifest lists an operation. -/
def emptinessWarning (input : String) : String := "no operations found input=" ++ input

/-- The steps of the draft that the options and the manifests describe. -/
def apiSteps (o : GenerateOptions) (d : Discovered) : List ApiStep :=
  (o.description.map .description).toList ++
    o.servers.map (fun url => .server { url := url }) ++
    d.securitySchemes.map (fun (name, s) => .component name (.securityScheme s)) ++
    d.schemas.map (fun (name, s) => .component name (.schema s)) ++
    d.tags.map .tag

/-- The document of what the manifests list, with the warnings on the way to it. -/
def document (o : GenerateOptions) (d : Discovered) :
    List SchemeWarning × Except ApiError OpenApi :=
  let draft := ApiDraft.titled (o.title.getD (titleOf o.input)) o.version
  (draft.applyAll (o.apiSteps d)).emit (d.operations.map Prod.snd)

/-- The lines that report a document. -/
def report (o : GenerateOptions) (document : OpenApi) : List String :=
  let count := toString document.operationCount
  ("Generated OpenAPI document " ++ o.output ++ " (" ++ count ++ " operations)") ::
    if o.verbose then
      ["Title:      " ++ document.info.title, "Version:    " ++ document.info.version,
        "Paths:      " ++ toString document.paths.length, "Operations: " ++ count,
        "Schemas:    " ++ toString document.components.schemas.length]
    else []

/-- Generates the document and writes it. -/
def run [PatternReader] (o : GenerateOptions) (files : FileTree) : CommandOutcome :=
  match RouteManifest.discoverAll files o.input with
  | .error e => .failed files [] (.undiscoverable o.input e)
  | .ok d =>
    let (schemeWarnings, result) := o.document d
    let warnings := (if d.operations.isEmpty then [emptinessWarning o.input] else []) ++
      schemeWarnings.map SchemeWarning.message
    match result with
    | .error e => .failed files warnings (.unemittable e)
    | .ok document =>
      match files.write? o.output (o.format.text document.toJson) with
      | none => .failed files warnings (.unwritable o.output)
      | some files => { files := files, lines := o.report document, warnings := warnings }

end GenerateOptions

end ApiDescription
