import ApiDescription.Data.Scalar
import ApiDescription.Yaml.Style

/-!
# Tokens of YAML

The tokens of a file, and the place in it that reading has come to. A line may end in several ways,
which `cleanText?` makes one; files with control characters hold nothing.
-/

set_option autoImplicit false

namespace ApiDescription.Yaml

/-- A token of a file. -/
inductive Token where
  | streamEnd
  | version (major minor : Nat)
  | tagDirective (handle start : String)
  | documentStart
  | documentEnd
  | blockListStart
  | blockTableStart
  | blockEnd
  | flowListStart
  | flowListEnd
  | flowTableStart
  | flowTableEnd
  | blockEntry
  | flowEntry
  | key
  | value
  | alias (name : String)
  | anchor (name : String)
  | tag (handle suffix : String)
  | scalar (text : String) (style : TextStyle)
  deriving DecidableEq, Repr, Inhabited

/-! ## Characters -/

/-- The character may stand in a file at all. -/
def isAllowed (c : Char) : Bool :=
  let n := c.toNat
  n = 0x09 || n = 0x0a || n = 0x0d || (0x20 ≤ n && n ≤ 0x7e) || n = 0x85 ||
    (0xa0 ≤ n && n ≤ 0xfffd) || 0x10000 ≤ n

/-- The characters with one break for each way of ending a line that is not a separator. -/
def joinBreaks : List Char → List Char
  | [] => []
  | '\r' :: '\n' :: rest => '\n' :: joinBreaks rest
  | c :: rest => (if c = '\r' || c.toNat = 0x85 then '\n' else c) :: joinBreaks rest

/-- Drops a byte order mark. -/
def dropByteOrderMark : List Char → List Char
  | '\ufeff' :: rest => rest
  | cs => cs

/-- The characters of a file with line feeds for breaks, unless there is one that no file may hold. -/
def cleanText? (text : String) : Option (List Char) :=
  let cs := dropByteOrderMark text.toList
  if cs.all isAllowed then some (dropByteOrderMark (joinBreaks cs)) else none

/-- A space or a tab. -/
def isBlank (c : Char) : Bool := c = ' ' || c = '\t'

/-- The next character, if any, ends a word. -/
def isWordEndNext (cs : List Char) : Bool :=
  match cs with
  | [] => true
  | c :: _ => isBlank c || isBreak c

/-- The next character, if any, ends a line. -/
def isLineEndNext (cs : List Char) : Bool :=
  match cs with
  | [] => true
  | c :: _ => isBreak c

/-- A letter or digit of ASCII, a hyphen or an underscore. -/
def isNameChar (c : Char) : Bool := c.isAlphanum || c = '-' || c = '_'

/-! ## Places -/

/-- How far reading has come. -/
structure Mark where
  line : Nat := 0
  column : Nat := 0
  index : Nat := 0
  deriving DecidableEq, Repr, Inhabited

/-- The mark behind a character. -/
def Mark.after (m : Mark) (c : Char) : Mark :=
  if isBreak c then ⟨m.line + 1, 0, m.index + 1⟩ else ⟨m.line, m.column + 1, m.index + 1⟩

/-- The characters still to be read, and the mark before them. -/
structure Cursor where
  rest : List Char
  mark : Mark := {}
  deriving Repr, Inhabited

namespace Cursor

/-- The cursor behind the next character. -/
def advance (c : Cursor) : Cursor :=
  match c.rest with
  | [] => c
  | x :: rest => ⟨rest, c.mark.after x⟩

/-- The cursor behind so many characters. -/
def advanceBy : Nat → Cursor → Cursor
  | 0, c => c
  | n + 1, c => advanceBy n c.advance

/-- The characters of a kind that come next, and the cursor behind them. -/
def takeWhile (p : Char → Bool) (c : Cursor) : List Char × Cursor :=
  let cs := c.rest.takeWhile p
  (cs, c.advanceBy cs.length)

/-- The cursor behind the blanks that come next. -/
def skipBlanks (c : Cursor) : Cursor := (c.takeWhile isBlank).2

/-- The cursor behind blanks and a comment, if nothing else comes before the end of the line. -/
def skipToLineEnd? (c : Cursor) : Option Cursor :=
  let c := c.skipBlanks
  let c := if c.rest.head? = some '#' then (c.takeWhile fun x => !isBreak x).2 else c
  if isLineEndNext c.rest then some c else none

/-- A mark of three characters that begins or ends a document comes next. -/
def isAtDocumentMark (c : Cursor) : Bool :=
  c.mark.column = 0 && match c.rest with
  | '-' :: '-' :: '-' :: rest => isWordEndNext rest
  | '.' :: '.' :: '.' :: rest => isWordEndNext rest
  | _ => false

end Cursor

end ApiDescription.Yaml
