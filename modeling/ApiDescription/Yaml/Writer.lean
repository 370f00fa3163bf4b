import ApiDescription.Json.Writer
import ApiDescription.Yaml.Style

/-!
# Writing YAML

Lists and tables are written in block layout, two spaces a level, where the items of a list under a key
are not indented. `Yaml.text` is the text of a whole file.
-/

set_option autoImplicit false

namespace ApiDescription.Yaml

/-! ## Scalars -/

/-- So many spaces. -/
def spaces (n : Nat) : List Char := List.replicate n ' '

/-- The letter that stands for a character behind a backslash. -/
def escapeLetter? (c : Char) : Option Char :=
  [(0x00, '0'), (0x07, 'a'), (0x08, 'b'), (0x09, 't'), (0x0a, 'n'), (0x0b, 'v'), (0x0c, 'f'),
    (0x0d, 'r'), (0x1b, 'e'), (0x22, '"'), (0x5c, '\\'), (0x85, 'N'), (0xa0, '_'), (0x2028, 'L'),
    (0x2029, 'P')].lookup c.toNat

/-- The lowest hexadecimal digits of a number, so many of them. -/
def hexDigits : Nat → Nat → List Char
  | 0, _ => []
  | n + 1, value => hexDigits n (value / 16) ++ [(Json.hexDigit (value % 16)).toUpper]

/-- The character behind a backslash. -/
def escape (c : Char) : List Char :=
  match escapeLetter? c with
  | some letter => ['\\', letter]
  | none =>
    if c.toNat ≤ 0xff then '\\' :: 'x' :: hexDigits 2 c.toNat
    else if c.toNat ≤ 0xffff then '\\' :: 'u' :: hexDigits 4 c.toNat
    else '\\' :: 'U' :: hexDigits 8 c.toNat

/-- The text between double quotes. -/
def doubleQuoted (s : List Char) : List Char :=
  let inner := s.flatMap fun c =>
    if !isPrintable c || isBreak c || c = '"' || c = '\\' then escape c else [c]
  '"' :: inner ++ ['"']

/-- The characters with the lines behind a break indented, where the first argument says whether the
text stands behind a break. -/
def indentLines (indent : Nat) : Bool → List Char → List Char
  | _, [] => []
  | behindBreak, c :: rest =>
    if isBreak c then c :: indentLines indent true rest
    else if behindBreak then spaces indent ++ c :: indentLines indent false rest
    else c :: indentLines indent false rest

/-- The text between single quotes, where a quote is written twice. -/
def singleQuoted (indent : Nat) (s : List Char) : List Char :=
  let inner := indentLines indent false s
  let close := if (s.getLast?.map isBreak).getD false then spaces indent else []
  '\'' :: (inner.flatMap fun c => if c = '\'' then ['\'', '\''] else [c]) ++ close ++ ['\'']

/-- What the head of a literal block says about the breaks at its end: there is none, there is one, or
there are more. -/
def chompMark (s : List Char) : List Char :=
  match s.reverse with
  | a :: b :: _ => if !isBreak a then ['-'] else if isBreak b then ['+'] else []
  | [a] => if isBreak a then ['+'] else ['-']
  | [] => ['-']

/-- The literal block of a text, with its indentation in the head when it begins with a blank. -/
def literalBlock (indent : Nat) (s : List Char) : List Char :=
  let hint := match s with
    | c :: _ => if isSpace c || isBreak c then ['2'] else []
    | [] => []
  '|' :: hint ++ chompMark s ++ '\n' :: indentLines indent true s

/-- The text in the form that it needs, with further lines at the given indentation. -/
def scalarText (indent : Nat) (s : String) : List Char :=
  match TextForm.of s with
  | .plain => s.toList
  | .singleQuoted => singleQuoted indent s.toList
  | .doubleQuoted => doubleQuoted s.toList
  | .literal => literalBlock indent s.toList

/-- The text of a number. -/
def numberText : Number → String
  | .integer n => toString n
  | .real x => FloatLayout.yaml.text x

/-- Ends the line, unless the text has ended it. -/
def closeLine (s : List Char) : List Char :=
  if (s.getLast?.map isBreak).getD false then s else s ++ ['\n']

/-! ## Lists and tables -/

/-- What a value stands behind. -/
inductive Place where
  /-- Nothing, at the beginning of the file. -/
  | start
  /-- A key at the given indentation. -/
  | key (indent : Nat)
  /-- A mark at the given indentation. -/
  | mark (indent : Nat)

namespace Place

/-- The indentation of further lines of a scalar. -/
def scalarIndent : Place → Nat
  | start => 2
  | key n | mark n => n + 2

/-- The indentation of the entries of a table. -/
def tableIndent : Place → Nat
  | start => 0
  | key n | mark n => n + 2

/-- The indentation of the items of a list. -/
def listIndent : Place → Nat
  | start => 0
  | key n => n
  | mark n => n + 2

/-- What stands between the place and a value on the same line. -/
def gap : Place → List Char
  | start => []
  | key _ | mark _ => [' ']

/-- What stands between the place and the first of several lines with the given indentation. -/
def opening (indent : Nat) : Place → List Char
  | start => []
  | key _ => '\n' :: spaces indent
  | mark _ => [' ']

end Place

/-- The lines of a scalar. -/
def scalarLines (place : Place) (s : List Char) : List Char := place.gap ++ closeLine s

/-- The lines of a text. -/
def textLines (place : Place) (s : String) : List Char :=
  scalarLines place (scalarText place.scalarIndent s)

/-- The beginning of an entry up to its value, and the place of the value. -/
def keyLines (indent : Nat) (key : String) : List Char × Place :=
  if isSimpleKey key then (scalarText (indent + 2) key ++ [':'], .key indent)
  else ('?' :: textLines (.mark indent) key ++ spaces indent ++ [':'], .mark indent)

mutual

/-- The lines of a value, the first of them behind its place. -/
def valueLines (place : Place) : Json → List Char
  | .null => scalarLines place "null".toList
  | .bool b => scalarLines place (if b then "true" else "false").toList
  | .number n => scalarLines place (numberText n).toList
  | .string s => textLines place s
  | .array [] => scalarLines place "[]".toList
  | .array (x :: xs) =>
    let indent := place.listIndent
    place.opening indent ++ '-' :: valueLines (.mark indent) x ++ itemLines indent xs
  | .object [] => scalarLines place "\x7b\x7d".toList
  | .object ((k, v) :: ms) =>
    let indent := place.tableIndent
    let (start, under) := keyLines indent k
    place.opening indent ++ start ++ valueLines under v ++ entryLines indent ms

/-- The lines of the items of a list. -/
def itemLines (indent : Nat) : List Json → List Char
  | [] => []
  | x :: xs => spaces indent ++ '-' :: valueLines (.mark indent) x ++ itemLines indent xs

/-- The lines of the entries of a table. -/
def entryLines (indent : Nat) : List (String × Json) → List Char
  | [] => []
  | (k, v) :: ms =>
    let (start, under) := keyLines indent k
    spaces indent ++ start ++ valueLines under v ++ entryLines indent ms

end

/-- The text of a file that holds the value. -/
def text (j : Json) : String :=
  let lines := valueLines .start j
  String.ofList (if lines.getLast? = some '\n' then lines else lines ++ ['\n'])

end ApiDescription.Yaml
