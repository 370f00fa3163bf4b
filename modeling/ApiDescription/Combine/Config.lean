import ApiDescription.Api.Format
import ApiDescription.Combine.Service
import ApiDescription.Data.Record
import ApiDescription.Json.Members
import ApiDescription.Sorted

/-!
# Options of combining

A `CombineConfig` holds everything that can be chosen when documents are combined. A `ServicesConfig` is
what a file says about the services and some of these options; `CombineConfig.withServices` lets it
speak for those that it mentions.
-/

set_option autoImplicit false

namespace ApiDescription

/-- What happens when two services define the same thing in different ways. -/
inductive ConflictStrategy where
  /-- The later service wins, and a warning is recorded. -/
  | override
  /-- Known by name, but refused by every check. -/
  | merge
  /-- Nothing is combined. -/
  | error
  deriving DecidableEq, Repr, Inhabited

namespace ConflictStrategy

/-- The name of the strategy. -/
def name : ConflictStrategy → String
  | .override => "override"
  | .merge => "merge"
  | .error => "error"

/-- The strategy with the given name. -/
def ofName? (s : String) : Option ConflictStrategy :=
  [override, merge, error].find? (·.name == s)

end ConflictStrategy

/-! ## Errors -/

/-- Why options are refused. -/
inductive ConfigError where
  | unreadable (path : String)
  | malformed (path : String)
  | emptyServiceName (index : Nat)
  | emptySpecFile (service : String)
  | duplicateService (service : String)
  | unsupportedStrategy
  | invalidPrefix (text : String)
  | overlappingTagFilters (tag : String)
  deriving DecidableEq, Repr

namespace ConfigError

/-- The wording of the error. -/
def message : ConfigError → String
  | .unreadable path => "failed to read services config '" ++ path ++ "'"
  | .malformed path => "failed to parse services config '" ++ path ++ "'"
  | .emptyServiceName index => "service #" ++ toString index ++ " has an empty name"
  | .emptySpecFile service => "service '" ++ service ++ "' has an empty spec_file"
  | .duplicateService service => "service '" ++ service ++ "' is declared more than once"
  | .unsupportedStrategy =>
    "conflict strategy 'merge' is not supported (use 'override' or 'error')"
  | .invalidPrefix text =>
    "invalid service prefix '" ++ text ++ "' (expected service:/prefix)"
  | .overlappingTagFilters tag => "tag '" ++ tag ++ "' is both included and excluded"

/-- The wordings of the error and of what caused it. -/
def chain (e : ConfigError) : List String :=
  match e with
  | .unreadable _ => [e.message, "<io error>"]
  | .malformed _ => [e.message, "<yaml error>"]
  | _ => [e.message]

end ConfigError

/-! ## Services -/

/-- What a file says about one service. -/
structure ServiceConfig where
  name : String
  specFile : String
  pathPrefix : Option String := none
  tags : List String := []
  enabled : Bool := true
  description : Option String := none
  healthCheck : Option String := none
  version : Option String := none
  deriving DecidableEq, Repr, Inhabited

/-- What a file says about the options of combining. -/
structure Settings where
  mergeSchemas : Option Bool := none
  validateOutput : Option Bool := none
  includeTags : List String := []
  excludeTags : List String := []
  conflictStrategy : Option ConflictStrategy := none
  deriving DecidableEq, Repr, Inhabited

/-- What a file says about services and options. -/
structure ServicesConfig where
  title : Option String := none
  version : Option String := none
  description : Option String := none
  baseUrl : Option String := none
  services : List ServiceConfig := []
  settings : Settings := {}
  deriving DecidableEq, Repr, Inhabited

namespace ServiceConfig

/-- The written form, with null for what is missing. -/
def toJson (s : ServiceConfig) : Json := .object
  [("name", .string s.name), ("spec_file", .string s.specFile),
    ("path_prefix", Json.textOrNull s.pathPrefix), ("tags", Json.listOf .string s.tags),
    ("enabled", .bool s.enabled), ("description", Json.textOrNull s.description),
    ("health_check", Json.textOrNull s.healthCheck), ("version", Json.textOrNull s.version)]

/-- Reads a service. -/
def ofData? (d : Data) : Option ServiceConfig := do
  let r ← Record.ofData? [⟨"name", false⟩, ⟨"spec_file", false⟩, ⟨"path_prefix", true⟩,
    ⟨"tags", true⟩, ⟨"enabled", true⟩, ⟨"description", true⟩, ⟨"health_check", true⟩,
    ⟨"version", true⟩] d
  let name ← r.required? "name" Data.text?
  let specFile ← r.required? "spec_file" Data.text?
  let pathPrefix ← r.optional? "path_prefix" Data.text?
  let tags ← r.withDefault? "tags" [] (Data.listOf? Data.text?)
  let enabled ← r.withDefault? "enabled" true Data.bool?
  let description ← r.optional? "description" Data.text?
  let healthCheck ← r.optional? "health_check" Data.text?
  let version ← r.optional? "version" Data.text?
  pure ⟨name, specFile, pathPrefix, tags, enabled, description, healthCheck, version⟩

end ServiceConfig

namespace Settings

/-- The written form, with null for what is missing. -/
def toJson (s : Settings) : Json := .object
  [("merge_schemas", Json.boolOrNull s.mergeSchemas),
    ("validate_output", Json.boolOrNull s.validateOutput),
    ("include_tags", Json.listOf .string s.includeTags),
    ("exclude_tags", Json.listOf .string s.excludeTags),
    ("conflict_strategy", Json.textOrNull (s.conflictStrategy.map (·.name)))]

/-- Reads settings. -/
def ofData? (d : Data) : Option Settings := do
  let r ← Record.ofData? [⟨"merge_schemas", true⟩, ⟨"validate_output", true⟩,
    ⟨"include_tags", true⟩, ⟨"exclude_tags", true⟩, ⟨"conflict_strategy", true⟩] d
  let mergeSchemas ← r.optional? "merge_schemas" Data.bool?
  let validateOutput ← r.optional? "validate_output" Data.bool?
  let includeTags ← r.withDefault? "include_tags" [] (Data.listOf? Data.text?)
  let excludeTags ← r.withDefault? "exclude_tags" [] (Data.listOf? Data.text?)
  let conflictStrategy ← r.optional? "conflict_strategy"
    (Data.nameOf? ConflictStrategy.ofName?)
  pure ⟨mergeSchemas, validateOutput, includeTags, excludeTags, conflictStrategy⟩

end Settings

namespace ServicesConfig

/-- The written form, with null for what is missing. -/
def toJson (c : ServicesConfig) : Json := .object
  [("title", Json.textOrNull c.title), ("version", Json.textOrNull c.version),
    ("description", Json.textOrNull c.description), ("base_url", Json.textOrNull c.baseUrl),
    ("services", Json.listOf ServiceConfig.toJson c.services), ("settings", c.settings.toJson)]

/-- Reads a services configuration. -/
def ofData? (d : Data) : Option ServicesConfig := do
  let r ← Record.ofData? [⟨"title", true⟩, ⟨"version", true⟩, ⟨"description", true⟩,
    ⟨"base_url", true⟩, ⟨"services", true⟩, ⟨"settings", true⟩] d
  let title ← r.optional? "title" Data.text?
  let version ← r.optional? "version" Data.text?
  let description ← r.optional? "description" Data.text?
  let baseUrl ← r.optional? "base_url" Data.text?
  let services ← r.withDefault? "services" [] (Data.listOf? ServiceConfig.ofData?)
  let settings ← r.withDefault? "settings" {} Settings.ofData?
  pure ⟨title, version, description, baseUrl, services, settings⟩

/-- Each of the services, the first of which has the given index, has a name of its own, different from
those seen before, and a file. -/
def checkServices (index : Nat) (seen : List String) :
    List ServiceConfig → Except ConfigError Unit
  | [] => .ok ()
  | s :: rest =>
    if Text.isBlank s.name then .error (.emptyServiceName index)
    else if s.specFile.isEmpty then .error (.emptySpecFile s.name)
    else if seen.contains s.name then .error (.duplicateService s.name)
    else checkServices (index + 1) (s.name :: seen) rest

/-- The services and the strategy are in order. -/
def check (c : ServicesConfig) : Except ConfigError Unit := do
  checkServices 0 [] c.services
  if c.settings.conflictStrategy = some .merge then .error .unsupportedStrategy else .ok ()

/-- The services that take part, in order. -/
def enabledServices (c : ServicesConfig) : List ServiceConfig := c.services.filter (·.enabled)

/-- The configuration with the files of its services seen from a directory. -/
def inDirectory (directory : String) (c : ServicesConfig) : ServicesConfig :=
  { c with services := c.services.map fun s =>
      { s with specFile := FilePath.join directory s.specFile } }

end ServicesConfig

/-! ## Options -/

/-- The options of combining. -/
structure CombineConfig where
  outputFile : String := "combined-api.yaml"
  format : OutputFormat := .yaml
  title : String := "Combined API"
  version : String := "1.0.0"
  description : Option String := none
  baseUrl : String := ""
  servicePrefix : List (String × String) := []
  includeTags : List String := []
  excludeTags : List String := []
  mergeSchemas : Bool := true
  validateOutput : Bool := true
  conflictStrategy : ConflictStrategy := .override
  verbose : Bool := false
  deriving DecidableEq, Repr, Inhabited

namespace CombineConfig

/-- The written form. -/
def toJson (c : CombineConfig) : Json := .object
  [("output_file", .string c.outputFile), ("format", .string c.format.name),
    ("title", .string c.title), ("version", .string c.version),
    ("description", Json.textOrNull c.description), ("base_url", .string c.baseUrl),
    ("service_prefix", Json.mapOf .string c.servicePrefix),
    ("include_tags", Json.listOf .string c.includeTags),
    ("exclude_tags", Json.listOf .string c.excludeTags), ("merge_schemas", .bool c.mergeSchemas),
    ("validate_output", .bool c.validateOutput),
    ("conflict_strategy", .string c.conflictStrategy.name), ("verbose", .bool c.verbose)]

/-- Reads options, where those that are missing have their defaults. -/
def ofData? (d : Data) : Option CombineConfig := do
  let r ← Record.ofData? [⟨"output_file", true⟩, ⟨"format", true⟩, ⟨"title", true⟩,
    ⟨"version", true⟩, ⟨"description", true⟩, ⟨"base_url", true⟩, ⟨"service_prefix", true⟩,
    ⟨"include_tags", true⟩, ⟨"exclude_tags", true⟩, ⟨"merge_schemas", true⟩,
    ⟨"validate_output", true⟩, ⟨"conflict_strategy", true⟩, ⟨"verbose", true⟩] d
  let base : CombineConfig := {}
  let outputFile ← r.withDefault? "output_file" base.outputFile Data.text?
  let format ← r.withDefault? "format" base.format (Data.nameOf? OutputFormat.ofName?)
  let title ← r.withDefault? "title" base.title Data.text?
  let version ← r.withDefault? "version" base.version Data.text?
  let description ← r.optional? "description" Data.text?
  let baseUrl ← r.withDefault? "base_url" base.baseUrl Data.text?
  let prefixes ← r.withDefault? "service_prefix" base.servicePrefix (Data.mapOf? Data.text?)
  let includeTags ← r.withDefault? "include_tags" base.includeTags (Data.listOf? Data.text?)
  let excludeTags ← r.withDefault? "exclude_tags" base.excludeTags (Data.listOf? Data.text?)
  let mergeSchemas ← r.withDefault? "merge_schemas" base.mergeSchemas Data.bool?
  let validateOutput ← r.withDefault? "validate_output" base.validateOutput Data.bool?
  let conflictStrategy ← r.withDefault? "conflict_strategy" base.conflictStrategy
    (Data.nameOf? ConflictStrategy.ofName?)
  let verbose ← r.withDefault? "verbose" base.verbose Data.bool?
  pure {
    outputFile, format, title, version, description, baseUrl, includeTags, excludeTags,
    mergeSchemas, validateOutput, conflictStrategy, verbose
    servicePrefix := Sorted.ofList prefixes
  }

/-- The options with a path prefix for a service, in place of the one it had. -/
def withPrefix (service pathPrefix : String) (c : CombineConfig) : CombineConfig :=
  { c with servicePrefix := Sorted.insert c.servicePrefix service pathPrefix }

/-- The options with the prefix that a text gives to a service: the name of the service before the first
colon, and the prefix behind it. -/
def withPrefixText (text : String) (c : CombineConfig) : Except ConfigError CombineConfig :=
  let service := text.toList.takeWhile (· ≠ ':')
  match text.toList.drop service.length with
  | _ :: rest =>
    if service.isEmpty then .error (.invalidPrefix text)
    else .ok (c.withPrefix (String.ofList service) (String.ofList rest))
  | [] => .error (.invalidPrefix text)

/-- The second list, unless it is empty. -/
def orElse (old new : List String) : List String := if new.isEmpty then old else new

/-- The options with everything that a services configuration mentions. Prefixes count for services
that take part, and an empty list of tags mentions nothing. -/
def withServices (services : ServicesConfig) (c : CombineConfig) : CombineConfig :=
  let s := services.settings
  { c with
    title := services.title.getD c.title
    version := services.version.getD c.version
    description := services.description.or c.description
    baseUrl := services.baseUrl.getD c.baseUrl
    servicePrefix := services.enabledServices.foldl
      (fun m service => match service.pathPrefix with
        | some p => Sorted.insert m service.name p
        | none => m) c.servicePrefix
    mergeSchemas := s.mergeSchemas.getD c.mergeSchemas
    validateOutput := s.validateOutput.getD c.validateOutput
    includeTags := orElse c.includeTags s.includeTags
    excludeTags := orElse c.excludeTags s.excludeTags
    conflictStrategy := s.conflictStrategy.getD c.conflictStrategy }

/-- The strategy is supported, and no tag is both included and excluded. -/
def check (c : CombineConfig) : Except ConfigError Unit :=
  if c.conflictStrategy = .merge then .error .unsupportedStrategy
  else
    match c.includeTags.find? c.excludeTags.contains with
    | some tag => .error (.overlappingTagFilters tag)
    | none => .ok ()

/-- The path prefix of a service, which is empty when none was given. -/
def prefixOf (service : String) (c : CombineConfig) : String :=
  (Sorted.get? c.servicePrefix service).getD ""

/-- The filter of operations. -/
def tagFilter (c : CombineConfig) : TagFilter := ⟨c.includeTags, c.excludeTags⟩

end CombineConfig

end ApiDescription
