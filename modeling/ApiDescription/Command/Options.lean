import ApiDescription.Api.Format
import ApiDescription.Command.Usage
import ApiDescription.Json.Members

/-!
# Commands

There are two commands: one writes the document of the manifests under a directory, and one combines
documents. `Command.ofArguments` reads a command and its options.
-/

set_option autoImplicit false

namespace ApiDescription

/-- What is to be generated, and where to. -/
structure GenerateOptions where
  input : String := "."
  output : String := "openapi.yaml"
  format : OutputFormat := .yaml
  title : Option String := none
  version : String := "1.0.0"
  description : Option String := none
  servers : List String := []
  verbose : Bool := false
  deriving DecidableEq, Repr, Inhabited

/-- What is to be combined, and how. An option that is given wins over the services configuration. -/
structure CombineOptions where
  output : Option String := none
  format : Option OutputFormat := none
  title : Option String := none
  version : Option String := none
  baseUrl : Option String := none
  config : Option String := none
  prefixes : List String := []
  includeTags : List String := []
  excludeTags : List String := []
  mergeSchemas : Option Bool := none
  validate : Option Bool := none
  verbose : Bool := false
  inputs : List String := []
  deriving DecidableEq, Repr, Inhabited

/-- A command with its options. -/
inductive Command where
  | generate (options : GenerateOptions)
  | combine (options : CombineOptions)
  deriving DecidableEq, Repr

/-! ## Options -/

/-- The option that asks for help. -/
def helpOption : OptionSpec := { name := "help", letter := some 'h', kind := .request .help }

/-- The values of an option that names a format. -/
def formatType : ValueType := .matching fun s => (OutputFormat.ofName? s).isSome

namespace GenerateOptions

/-- The options as arguments. -/
def grammar : Grammar where
  options := [
    { name := "input", letter := some 'i', kind := .single .path },
    { name := "output", letter := some 'o', kind := .single .path },
    { name := "format", letter := some 'f', kind := .single formatType },
    { name := "title", letter := some 't', kind := .single .text },
    { name := "version", letter := some 'V', kind := .single .text },
    { name := "description", letter := some 'd', kind := .single .text },
    { name := "server", letter := some 's', kind := .repeated .text false },
    { name := "verbose", letter := some 'v', kind := .flag },
    helpOption]

/-- The options that the arguments give; others have their defaults. -/
def ofReading (r : ArgumentReading) : GenerateOptions :=
  let defaults : GenerateOptions := {}
  { input := (r.value? "input").getD defaults.input
    output := (r.value? "output").getD defaults.output
    format := ((r.value? "format").bind OutputFormat.ofName?).getD defaults.format
    title := r.value? "title"
    version := (r.value? "version").getD defaults.version
    description := r.value? "description"
    servers := r.valuesOf "server"
    verbose := r.isGiven "verbose" }

/-- The written form. -/
def toJson (o : GenerateOptions) : Json := .object
  [("input", .string o.input), ("output", .string o.output), ("format", .string o.format.name),
    ("title", Json.textOrNull o.title), ("version", .string o.version),
    ("description", Json.textOrNull o.description), ("servers", Json.listOf .string o.servers),
    ("verbose", .bool o.verbose)]

end GenerateOptions

namespace CombineOptions

/-- The options as arguments. -/
def grammar : Grammar where
  options := [
    { name := "output", letter := some 'o', kind := .single .path },
    { name := "format", letter := some 'f', kind := .single formatType },
    { name := "title", letter := some 't', kind := .single .text },
    { name := "version", letter := some 'V', kind := .single .text },
    { name := "base-url", letter := some 'b', kind := .single .text },
    { name := "config", letter := some 'c', kind := .single .path },
    { name := "prefix", letter := some 'p', kind := .repeated .text false },
    { name := "include-tags", kind := .repeated .text true },
    { name := "exclude-tags", kind := .repeated .text true },
    { name := "merge-schemas", kind := .switch },
    { name := "validate", kind := .switch },
    { name := "verbose", letter := some 'v', kind := .flag },
    helpOption]
  inputs := some .path

/-- The options that the arguments give. -/
def ofReading (r : ArgumentReading) : CombineOptions :=
  { output := r.value? "output"
    format := (r.value? "format").bind OutputFormat.ofName?
    title := r.value? "title"
    version := r.value? "version"
    baseUrl := r.value? "base-url"
    config := r.value? "config"
    prefixes := r.valuesOf "prefix"
    includeTags := r.valuesOf "include-tags"
    excludeTags := r.valuesOf "exclude-tags"
    mergeSchemas := (r.value? "merge-schemas").map (· = "true")
    validate := (r.value? "validate").map (· = "true")
    verbose := r.isGiven "verbose"
    inputs := r.valuesOf Grammar.inputsName }

/-- The written form. -/
def toJson (o : CombineOptions) : Json := .object
  [("output", Json.textOrNull o.output), ("format", Json.textOrNull (o.format.map (·.name))),
    ("title", Json.textOrNull o.title), ("version", Json.textOrNull o.version),
    ("base_url", Json.textOrNull o.baseUrl), ("config", Json.textOrNull o.config),
    ("prefixes", Json.listOf .string o.prefixes),
    ("include_tags", Json.listOf .string o.includeTags),
    ("exclude_tags", Json.listOf .string o.excludeTags),
    ("merge_schemas", Json.boolOrNull o.mergeSchemas),
    ("validate", Json.boolOrNull o.validate), ("verbose", .bool o.verbose),
    ("inputs", Json.listOf .string o.inputs)]

end CombineOptions

/-! ## Commands -/

namespace Command

/-- The command reports more than usual. -/
def verbose : Command → Bool
  | .generate o => o.verbose
  | .combine o => o.verbose

/-- Which messages are shown. -/
def logFilter (verbose : Bool) : String := if verbose then "specforge=debug" else "specforge=info"

/-- The names of the commands, and of the one that asks for help. -/
def names : List String := ["generate", "combine", "help"]

/-- The options that stand before a command. -/
def grammar : Grammar where
  options := [helpOption, { name := "version", letter := some 'V', kind := .request .version }]

/-- What is asked for behind the name of the command for help: at most one name of a command. -/
def ofHelp : List String → UsageError
  | [] => .help
  | [name] => if names.contains name then .help else .unknownCommand
  | _ => .unknownCommand

/-- Reads a command with its options. -/
def ofArguments : List String → Except UsageError Command
  | [] => .error .noCommand
  | first :: rest =>
    match first with
    | "generate" => (GenerateOptions.grammar.read rest).map (.generate ∘ GenerateOptions.ofReading)
    | "combine" => (CombineOptions.grammar.read rest).map (.combine ∘ CombineOptions.ofReading)
    | "help" => .error (ofHelp rest)
    | "--" =>
      match rest with
      | [] => .error .noCommand
      | name :: _ => .error (if names.contains name then .unknownArgument else .unknownCommand)
    | _ =>
      match Grammar.longOption? first, Grammar.letters? first with
      | none, none => .error .unknownCommand
      | _, _ =>
        match grammar.step {} first with
        | .error e => .error e
        | .ok _ => ofArguments rest

end Command

end ApiDescription
