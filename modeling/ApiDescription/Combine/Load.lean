import ApiDescription.Combine.Config
import ApiDescription.Combine.Source
import ApiDescription.File.Tree
import ApiDescription.Json.Reader
import ApiDescription.Yaml.Reader

/-!
# Loading documents

A document is read from a file as its extension tells; without one that does, it is tried as YAML and
then as JSON.
-/

set_option autoImplicit false

namespace ApiDescription

/-- Why a document cannot be loaded. -/
inductive LoadError where
  | missing (path : String)
  | unreadable (path : String)
  | malformedYaml (path : String)
  | malformedJson (path : String)
  | unrecognized (path : String)
  | notADocument (path : String)
  deriving DecidableEq, Repr

namespace LoadError

/-- The wording of the error. -/
def message : LoadError → String
  | .missing path => "input file '" ++ path ++ "' does not exist"
  | .unreadable path => "failed to read '" ++ path ++ "'"
  | .malformedYaml path => "failed to parse '" ++ path ++ "' as YAML"
  | .malformedJson path => "failed to parse '" ++ path ++ "' as JSON"
  | .unrecognized path =>
    "'" ++ path ++ "' is neither valid YAML (<yaml error>) nor valid JSON (<json error>)"
  | .notADocument path => "'" ++ path ++ "' does not contain an OpenAPI document object"

/-- The wordings of the error and of what caused it. -/
def chain (e : LoadError) : List String :=
  match e with
  | .unreadable _ => [e.message, "<io error>"]
  | .malformedYaml _ => [e.message, "<yaml error>"]
  | .malformedJson _ => [e.message, "<json error>"]
  | _ => [e.message]

end LoadError

namespace Source

/-- The value that a file of the given extension holds. -/
def parse (path text : String) : Except LoadError Json :=
  let yaml? := (Yaml.ofText? text).bind Data.toJson?
  match (FilePath.extension? path).bind OutputFormat.ofName? with
  | some .yaml =>
    match yaml? with
    | some j => .ok j
    | none => .error (.malformedYaml path)
  | some .json =>
    match Json.ofText? text with
    | some j => .ok j
    | none => .error (.malformedJson path)
  | none =>
    match yaml?.or (Json.ofText? text) with
    | some j => .ok j
    | none => .error (.unrecognized path)

/-- The document in a file. -/
def loadDocument (files : FileTree) (path : String) : Except LoadError Json := do
  if (files.find? path).isNone then throw (.missing path)
  match files.readText? path with
  | none => .error (.unreadable path)
  | some text =>
    let document ← parse path text
    if document.isObject then .ok document else .error (.notADocument path)

/-- The source in a file, whose service is named after the file. -/
def ofFile (files : FileTree) (path : String) : Except LoadError Source := do
  let document ← loadDocument files path
  .ok { service := Service.ofPath path, origin := path, document := document }

/-- The source of a configured service. -/
def ofService (files : FileTree) (s : ServiceConfig) : Except LoadError Source := do
  let document ← loadDocument files s.specFile
  .ok {
    service := s.name
    origin := s.specFile
    document := document
    tags := s.tags
    description := s.description
    version := s.version
    healthCheck := s.healthCheck
  }

end Source

/-- The services configuration in a file. The files of its services are seen from the directory that it
stands in. -/
def ServicesConfig.load (files : FileTree) (path : String) :
    Except ConfigError ServicesConfig := do
  match files.readText? path with
  | none => .error (.unreadable path)
  | some text =>
    match (Yaml.ofText? text).bind ServicesConfig.ofData? with
    | none => .error (.malformed path)
    | some config =>
      config.check
      .ok (config.inDirectory ((FilePath.parent? path).getD ""))

end ApiDescription
