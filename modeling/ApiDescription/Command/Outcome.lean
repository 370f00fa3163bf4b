import ApiDescription.Api.Emit
import ApiDescription.Combine.Combiner
import ApiDescription.Manifest.Basic

/-!
# Outcomes of commands

What a command leaves behind: files, lines that it prints, warnings, and an error if it failed.
-/

set_option autoImplicit false

namespace ApiDescription

/-- Why a command fails. -/
inductive CommandError where
  | undiscoverable (input : String) (error : ManifestError)
  | unemittable (error : ApiError)
  | unwritable (path : String)
  | unusableServices (path : String) (error : ConfigError)
  | uncombinable (error : CombineError)
  | noInputs
  deriving DecidableEq, Repr

namespace CommandError

/-- The wordings of the error and of what caused it. -/
def chain : CommandError → List String
  | .undiscoverable input error =>
    ("failed to discover operations in '" ++ input ++ "'") :: error.chain
  | .unemittable error => "failed to emit OpenAPI document" :: error.chain
  | .unwritable path => ("failed to write '" ++ path ++ "'") :: (CombineError.unwritable path).chain
  | .unusableServices path error =>
    ("failed to load services config '" ++ path ++ "'") :: error.chain
  | .uncombinable error => error.chain
  | .noInputs => ["no input documents (pass spec files or a services config with --config)"]

/-- The wording of the error with all its causes. -/
def text (e : CommandError) : String := String.intercalate ": " e.chain

end CommandError

/-- What a command leaves behind. -/
structure CommandOutcome where
  files : FileTree
  /-- The lines that it prints, which are none when it fails. -/
  lines : List String := []
  warnings : List String := []
  result : Except CommandError Unit := .ok ()

namespace CommandOutcome

/-- The outcome of a command that fails and leaves the files as they are. -/
def failed (files : FileTree) (warnings : List String) (e : CommandError) : CommandOutcome :=
  { files := files, warnings := warnings, result := .error e }

/-- What the command prints. -/
def output (o : CommandOutcome) : String := String.join (o.lines.map (· ++ "\n"))

end CommandOutcome

end ApiDescription
