import ApiDescription.Command.Combine
import ApiDescription.Command.Generate
import ApiDescription.Pattern.Grammar

/-!
# Running a command

`Command.run` gives what a command leaves behind when it is run on files. Patterns are read by
`Pattern.isAccepted` here, and only here.
-/

set_option autoImplicit false

namespace ApiDescription

/-- Patterns are read as regular expressions. What is wrong with a text is not told. -/
instance Pattern.reader : PatternReader where
  refusal? text := if Pattern.isAccepted text then none else some "<regex error>"

/-- What the command leaves behind when it is run on files. -/
def Command.run (files : FileTree) : Command → CommandOutcome
  | .generate o => o.run files
  | .combine o => o.run files

end ApiDescription
