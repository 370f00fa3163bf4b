import ApiDescription.File.Path
import ApiDescription.Text.Blank
import ApiDescription.Yaml.Writer

/-!
# Formats of files

A document is written as YAML or as JSON.
-/

set_option autoImplicit false

namespace ApiDescription

/-- The format of a file. -/
inductive OutputFormat where
  | yaml
  | json
  deriving DecidableEq, Repr, Inhabited

namespace OutputFormat

/-- The name of the format. -/
def name : OutputFormat → String
  | .yaml => "yaml"
  | .json => "json"

/-- The format that a name or a file extension stands for, in letters of either case. -/
def ofName? (s : String) : Option OutputFormat :=
  let s := Text.lower s
  if s == "yaml" || s == "yml" then some .yaml else if s == "json" then some .json else none

/-- The format that the extension of a path tells. -/
def ofPath? (path : String) : Option OutputFormat := (FilePath.extension? path).bind ofName?

/-- The message for a name that no format has. -/
def unknownMessage (name : String) : String :=
  "unsupported output format '" ++ name ++ "' (expected yaml or json)"

/-- The text of a file that holds the value. -/
def text (j : Json) : OutputFormat → String
  | .yaml => Yaml.text j
  | .json => j.pretty ++ "\n"

end OutputFormat

end ApiDescription
