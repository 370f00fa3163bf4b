import ApiDescription.Json.Value
import ApiDescription.Number.Shortest

/-!
# Writing JSON text

`Json.compact` writes no blanks at all; `Json.pretty` puts every item and every member on a line of
its own, two spaces deeper than its container. Both leave characters outside ASCII as they are.
-/

set_option autoImplicit false

namespace ApiDescription

/-- The text of a number in JSON. -/
def Number.jsonText : Number → String
  | .integer n => toString n
  | .real x => FloatLayout.json.text x

namespace Json

/-! ## Strings -/

/-- The lower-case hexadecimal digit of a number below sixteen. -/
def hexDigit (n : Nat) : Char := if n < 10 then Char.ofNat (48 + n) else Char.ofNat (87 + n)

/-- The written form of a character inside a string. -/
def escape (c : Char) : List Char :=
  if c = '"' then ['\\', '"']
  else if c = '\\' then ['\\', '\\']
  else if c = '\n' then ['\\', 'n']
  else if c = '\r' then ['\\', 'r']
  else if c = '\t' then ['\\', 't']
  else if c = '\x08' then ['\\', 'b']
  else if c = '\x0c' then ['\\', 'f']
  else if c.toNat < 0x20 then
    ['\\', 'u', '0', '0', hexDigit (c.toNat / 16), hexDigit (c.toNat % 16)]
  else [c]

/-- A string between quotes. -/
def quote (s : String) : String := String.ofList ('"' :: s.toList.flatMap escape ++ ['"'])

/-! ## Values -/

mutual

/-- The value without blanks. -/
def compact : Json → String
  | .null => "null"
  | .bool b => if b then "true" else "false"
  | .number n => n.jsonText
  | .string s => quote s
  | .array xs => "[" ++ ",".intercalate (compactItems xs) ++ "]"
  | .object ms => "\x7b" ++ ",".intercalate (compactMembers ms) ++ "\x7d"

/-- The written items. -/
def compactItems : List Json → List String
  | [] => []
  | x :: xs => compact x :: compactItems xs

/-- The written members. -/
def compactMembers : List (String × Json) → List String
  | [] => []
  | (k, v) :: ms => (quote k ++ ":" ++ compact v) :: compactMembers ms

end

/-- The beginning of a line at the given depth. -/
def indent (depth : Nat) : String := "\n" ++ String.ofList (List.replicate (2 * depth) ' ')

mutual

/-- The value over several lines, its own line being `depth` deep. -/
def prettyAt (depth : Nat) : Json → String
  | .array (x :: xs) =>
    "[" ++ ",".intercalate (prettyItems (depth + 1) (x :: xs)) ++ indent depth ++ "]"
  | .object (m :: ms) =>
    "\x7b" ++ ",".intercalate (prettyMembers (depth + 1) (m :: ms)) ++ indent depth ++ "\x7d"
  | .array [] => "[]"
  | .object [] => "\x7b\x7d"
  | .null => "null"
  | .bool b => if b then "true" else "false"
  | .number n => n.jsonText
  | .string s => quote s

/-- The items, each on its line. -/
def prettyItems (depth : Nat) : List Json → List String
  | [] => []
  | x :: xs => (indent depth ++ prettyAt depth x) :: prettyItems depth xs

/-- The members, each on its line. -/
def prettyMembers (depth : Nat) : List (String × Json) → List String
  | [] => []
  | (k, v) :: ms => (indent depth ++ quote k ++ ": " ++ prettyAt depth v) :: prettyMembers depth ms

end

/-- The value over several lines. -/
def pretty (j : Json) : String := prettyAt 0 j

end Json

end ApiDescription
