import ApiDescription.Yaml.Node.Reader
import ApiDescription.Yaml.Token.Lexer

/-!
# Reading YAML

`Yaml.ofText?` gives the data of a file that holds one document, or none.
-/

set_option autoImplicit false

namespace ApiDescription.Yaml

/-- The data of a file, if it can be read. -/
def ofText? (text : String) : Option Data := do
  let tokens ← Token.ofText? text
  let node ← Node.ofTokens? tokens
  pure node.toData

end ApiDescription.Yaml
