import ApiDescription.Command.Options
import ApiDescription.Command.Outcome

/-!
# Combining documents

The options of a run are the defaults, overridden by a services configuration, overridden by the
arguments.
-/

set_option autoImplicit false

namespace ApiDescription

namespace CombineOptions

/-- The options of the run that a services configuration and the arguments ask for. -/
def resolve (o : CombineOptions) (services : Option ServicesConfig) :
    Except ConfigError CombineConfig := do
  let base : CombineConfig := (services.map fun s => ({} : CombineConfig).withServices s).getD {}
  let output := o.output.getD base.outputFile
  let withPrefixes ← o.prefixes.foldlM (fun c text => c.withPrefixText text) base
  .ok { withPrefixes with
    outputFile := output
    format := (o.format.or (OutputFormat.ofPath? output)).getD .yaml
    title := o.title.getD base.title
    version := o.version.getD base.version
    baseUrl := o.baseUrl.getD base.baseUrl
    includeTags := CombineConfig.orElse base.includeTags o.includeTags
    excludeTags := CombineConfig.orElse base.excludeTags o.excludeTags
    mergeSchemas := o.mergeSchemas.getD base.mergeSchemas
    validateOutput := o.validate.getD base.validateOutput
    verbose := o.verbose }

/-- The services configuration that is named, if one is. -/
def loadServices (o : CombineOptions) (files : FileTree) :
    Except CommandError (Option ServicesConfig) :=
  match o.config with
  | none => .ok none
  | some path =>
    match ServicesConfig.load files path with
    | .ok services => .ok (some services)
    | .error e => .error (.unusableServices path e)

/-- Gets everything that is to be combined: first the inputs, and then the services. -/
def prepare (o : CombineOptions) (files : FileTree) : Except CommandError Combiner := do
  let services ← o.loadServices files
  let config ← (o.resolve services).mapError fun e => .uncombinable (.config e)
  let combiner ← (Combiner.ofConfig config).mapError fun e => .uncombinable (.config e)
  let (combiner, result) := combiner.loadFiles files o.inputs
  result.mapError fun e => .uncombinable (.load e)
  match services with
  | none => if combiner.sources.isEmpty then .error .noInputs else .ok combiner
  | some services =>
    let (combiner, result) := combiner.loadServices files services
    result.mapError fun e => .uncombinable (.load e)
    if combiner.sources.isEmpty then .error .noInputs else .ok combiner

/-- The lines that report a run. -/
def report (c : Combiner) : List String :=
  ("Combined " ++ toString c.stats.services ++ " services into " ++ c.config.outputFile) ::
    if c.config.verbose then [c.stats.text] else []

/-- Combines the documents and writes the result. -/
def run (o : CombineOptions) (files : FileTree) : CommandOutcome :=
  match o.prepare files with
  | .error e => .failed files [] e
  | .ok combiner =>
    let (combiner, after, result) := combiner.run files
    let warnings := combiner.shownWarnings.map Conflict.warning
    match result with
    | .error e => .failed files warnings (.uncombinable e)
    | .ok _ => { files := after, lines := report combiner, warnings := warnings }

end CombineOptions

end ApiDescription
