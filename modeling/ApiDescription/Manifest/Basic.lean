import ApiDescription.File.Tree
import ApiDescription.Json.Reader
import ApiDescription.Manifest.Operation
import ApiDescription.Yaml.Reader

/-!
# Route manifests

A manifest is a file that lists operations, and the schemas, security schemes and tags that they speak
of.
-/

set_option autoImplicit false

namespace ApiDescription

/-- What a manifest lists. -/
structure RouteManifest where
  operations : List OperationDefinition := []
  schemas : List (String × SchemaDefinition) := []
  securitySchemes : List (String × SecurityScheme) := []
  tags : List Tag := []
  deriving Repr, Inhabited

/-- Why manifests cannot be turned into operations. -/
inductive ManifestError where
  | unwalkable (root : String)
  | unreadable (path : String)
  | malformedYaml (path : String)
  | malformedJson (path : String)
  | definition (error : OperationDefinitionError)
  | operation (origin : String) (error : OperationError)
  deriving DecidableEq, Repr

namespace ManifestError

/-- The wording of the error. -/
def message : ManifestError → String
  | .unwalkable root => "failed to walk '" ++ root ++ "'"
  | .unreadable path => "failed to read '" ++ path ++ "'"
  | .malformedYaml path => "failed to parse '" ++ path ++ "'"
  | .malformedJson path => "failed to parse '" ++ path ++ "'"
  | .definition error => error.message
  | .operation origin _ => "invalid operation in '" ++ origin ++ "'"

/-- The wordings of the error and of what caused it. -/
def chain (e : ManifestError) : List String :=
  match e with
  | .unwalkable _ => [e.message, "<walk error>", "<io error>"]
  | .unreadable _ => [e.message, "<io error>"]
  | .malformedYaml _ => [e.message, "<yaml error>"]
  | .malformedJson _ => [e.message, "<json error>"]
  | .definition _ => [e.message]
  | .operation _ error => e.message :: error.chain

end ManifestError

namespace RouteManifest

/-- Reads a manifest. -/
def ofData? (d : Data) : Option RouteManifest := do
  let r ← Record.ofData? [⟨"operations", true⟩, ⟨"schemas", true⟩, ⟨"security_schemes", true⟩,
    ⟨"tags", true⟩] d
  let operations ← r.withDefault? "operations" [] (Data.listOf? OperationDefinition.ofData?)
  let schemas ← r.withDefault? "schemas" [] (Data.mapOf? SchemaDefinition.ofData?)
  let securitySchemes ← r.withDefault? "security_schemes" [] (Data.mapOf? SecurityScheme.ofData?)
  let tags ← r.withDefault? "tags" [] (Data.listOf? Tag.ofData?)
  pure { operations, schemas, securitySchemes, tags }

/-- The manifest in a file. A file that is not named as JSON is YAML. -/
def load (files : FileTree) (path : String) : Except ManifestError RouteManifest :=
  match files.readText? path with
  | none => .error (.unreadable path)
  | some text =>
    if (FilePath.extension? path).map Text.lower = some "json" then
      match (Json.ofTextKeepingRepeats? text).bind (ofData? ∘ Data.ofJson) with
      | some m => .ok m
      | none => .error (.malformedJson path)
    else
      match (Yaml.ofText? text).bind ofData? with
      | some m => .ok m
      | none => .error (.malformedYaml path)

end RouteManifest

end ApiDescription
