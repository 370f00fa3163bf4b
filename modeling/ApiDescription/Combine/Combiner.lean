import ApiDescription.Collect
import ApiDescription.Combine.Load
import ApiDescription.Combine.Merge

/-!
# Combining

A `Combiner` holds options, the sources that were added, and what the last run had to report. A run
puts the document together; it may also be checked and written to a file.
-/

set_option autoImplicit false

namespace ApiDescription

/-- What a run counts. -/
structure CombineStats where
  inputFiles : Nat := 0
  services : Nat := 0
  paths : Nat := 0
  operations : Nat := 0
  mergedSchemas : Nat := 0
  conflicts : Nat := 0
  deriving DecidableEq, Repr, Inhabited

namespace CombineStats

/-- The lines that report the counts. -/
def text (s : CombineStats) : String :=
  "Input files:    " ++ toString s.inputFiles ++ "\n" ++
  "Services:       " ++ toString s.services ++ "\n" ++
  "Paths:          " ++ toString s.paths ++ "\n" ++
  "Operations:     " ++ toString s.operations ++ "\n" ++
  "Merged schemas: " ++ toString s.mergedSchemas ++ "\n" ++
  "Conflicts:      " ++ toString s.conflicts

/-- The counts of a run over sources that ended in a state. -/
def ofRun (sources : List Source) (s : MergeState) : CombineStats :=
  { inputFiles := sources.length
    services := (sources.map (·.service)).eraseDups.length
    paths := s.paths.length
    operations := (s.paths.flatMap fun (_, item) =>
      item.filter fun m => DocumentFault.isMethod m.1).length
    mergedSchemas := s.mergedSchemas
    conflicts := s.conflicts }

end CombineStats

/-- Why a run fails. -/
inductive CombineError where
  | config (e : ConfigError)
  | load (e : LoadError)
  | invalid (fault : DocumentFault)
  | conflict (c : Conflict)
  | unwritable (path : String)
  | noInputs
  deriving DecidableEq, Repr

namespace CombineError

/-- The wording of the error. -/
def message : CombineError → String
  | .config e => e.message
  | .load e => e.message
  | .invalid fault => "combined document is invalid: " ++ fault.message
  | .conflict c => c.message
  | .unwritable path => "failed to write '" ++ path ++ "'"
  | .noInputs => "no input documents to combine"

/-- The wordings of the error and of what caused it. -/
def chain (e : CombineError) : List String :=
  match e with
  | .config e => e.chain
  | .load e => e.chain
  | .invalid fault => [e.message, fault.message]
  | .unwritable _ => [e.message, "<io error>"]
  | _ => [e.message]

end CombineError

/-- Options, sources, and the report of the last run. -/
structure Combiner where
  config : CombineConfig
  sources : List Source := []
  warnings : List Conflict := []
  stats : CombineStats := {}
  deriving Inhabited

namespace Combiner

/-- The combiner with the given options, if they are in order. -/
def ofConfig (config : CombineConfig) : Except ConfigError Combiner := do
  config.check
  .ok { config := config }

/-- Adds a source. -/
def addSource (c : Combiner) (s : Source) : Combiner := { c with sources := c.sources ++ [s] }

/-- Adds the documents in files, up to the first one that cannot be loaded. -/
def loadFiles (c : Combiner) (files : FileTree) (paths : List String) :
    Combiner × Except LoadError Unit :=
  let (sources, result) := collect (Source.ofFile files) paths
  ({ c with sources := c.sources ++ sources }, result)

/-- Adds the documents of the services that take part, up to the first one that cannot be loaded. -/
def loadServices (c : Combiner) (files : FileTree) (services : ServicesConfig) :
    Combiner × Except LoadError Unit :=
  let (sources, result) := collect (Source.ofService files) services.enabledServices
  ({ c with sources := c.sources ++ sources }, result)

/-- The warnings of the last run that are to be shown at once. -/
def shownWarnings (c : Combiner) : List Conflict := if c.config.verbose then c.warnings else []

/-- Puts the combined document together. Without sources nothing happens. A conflict that stops the run
leaves the warnings recorded by then, and the counts of the run before. -/
def combine (c : Combiner) : Combiner × Except CombineError Json :=
  if c.sources.isEmpty then (c, .error .noInputs)
  else
    match MergeState.addAll c.config c.sources with
    | .error stop => ({ c with warnings := stop.state.warnings }, .error (.conflict stop.conflict))
    | .ok s =>
      ({ c with warnings := s.warnings, stats := CombineStats.ofRun c.sources s },
        .ok (s.toDocument c.config))

/-- The document when it need not be checked, or passes the check. -/
def checkOutput (c : Combiner) (document : Json) : Except CombineError Unit :=
  if c.config.validateOutput then
    match DocumentFault.check document with
    | .ok _ => .ok ()
    | .error fault => .error (.invalid fault)
  else .ok ()

/-- The files with the document written to the output file. -/
def writeOutput (c : Combiner) (files : FileTree) (document : Json) :
    Except CombineError FileTree :=
  match files.write? c.config.outputFile (c.config.format.text document) with
  | some files => .ok files
  | none => .error (.unwritable c.config.outputFile)

/-- Combines, checks and writes. Nothing is written when any of them fails. -/
def run (c : Combiner) (files : FileTree) :
    Combiner × FileTree × Except CombineError Json :=
  let (c, result) := c.combine
  let written := do
    let document ← result
    c.checkOutput document
    let files ← c.writeOutput files document
    pure (document, files)
  match written with
  | .ok (document, files) => (c, files, .ok document)
  | .error e => (c, files, .error e)

end Combiner

end ApiDescription
