/-!
# Path templates

A path may hold placeholders, names between braces. `PathTemplate.placeholders` reads the names and
refuses a path that is not well formed; `PathTemplate.parameters` reads them of a path that is known
to be so.
-/

set_option autoImplicit false

namespace ApiDescription

/-- What is wrong with a path. -/
inductive PathFault where
  | empty
  | noLeadingSlash
  | nested
  | unmatchedClose
  | emptyPlaceholder
  | duplicatePlaceholder (name : String)
  | unclosed
  deriving DecidableEq, Repr

/-- The reason why a path that is not empty is refused. -/
def PathFault.reason : PathFault → String
  | .empty => "path is empty"
  | .noLeadingSlash => "path must start with '/'"
  | .nested => "nested '\x7b'"
  | .unmatchedClose => "'\x7d' without matching '\x7b'"
  | .emptyPlaceholder => "empty placeholder '\x7b\x7d'"
  | .duplicatePlaceholder name => "duplicate placeholder '" ++ name ++ "'"
  | .unclosed => "unclosed '\x7b'"

namespace PathTemplate

mutual

/-- Reads on between placeholders, behind the names read so far. -/
def readLiteral (names : List String) : List Char → Except PathFault (List String)
  | [] => .ok names
  | c :: cs =>
    if c = '{' then readName names [] cs
    else if c = '}' then .error .unmatchedClose
    else readLiteral names cs

/-- Reads on inside a placeholder, behind the start of its name. -/
def readName (names : List String) (start : List Char) :
    List Char → Except PathFault (List String)
  | [] => .error .unclosed
  | c :: cs =>
    if c = '{' then .error .nested
    else if c = '/' then .error .unclosed
    else if c = '}' then
      if start.isEmpty then .error .emptyPlaceholder
      else if names.contains (String.ofList start) then
        .error (.duplicatePlaceholder (String.ofList start))
      else readLiteral (names ++ [String.ofList start]) cs
    else readName names (start ++ [c]) cs

end

/-- The names of the placeholders in order. A path starts with a slash; its placeholders are closed
before the next slash, not nested, not empty, and different from each other. -/
def placeholders (path : String) : Except PathFault (List String) :=
  match path.toList with
  | [] => .error .empty
  | c :: cs => if c = '/' then readLiteral [] cs else .error .noLeadingSlash

mutual

/-- The texts between an opening brace and the next closing one. -/
def bracedTexts : List Char → List String
  | [] => []
  | c :: cs => if c = '{' then bracedTextsFrom [] cs else bracedTexts cs

/-- The same behind an opening brace and the start of the text. -/
def bracedTextsFrom (start : List Char) : List Char → List String
  | [] => []
  | c :: cs =>
    if c = '}' then String.ofList start :: bracedTexts cs else bracedTextsFrom (start ++ [c]) cs

end

/-- The names of the parameters of a path in order. -/
def parameters (path : String) : List String := bracedTexts path.toList

end PathTemplate

end ApiDescription
