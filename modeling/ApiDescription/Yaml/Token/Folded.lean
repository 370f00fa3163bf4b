import ApiDescription.Yaml.Token

/-!
# Folded texts

Unquoted and quoted texts may go over several lines. One break between words becomes a space, more
breaks lose the first of them, and blanks around breaks are dropped.
-/

set_option autoImplicit false

namespace ApiDescription.Yaml

/-- A text being read. All its lists hold the last character first. -/
structure Folding where
  text : List Char := []
  /-- The blanks behind the text on the same line. -/
  blanks : List Char := []
  /-- A line has ended behind the text. -/
  isLineEnded : Bool := false
  /-- The first break behind the text, if it shows. -/
  firstBreak : List Char := []
  /-- The other breaks behind the text. -/
  moreBreaks : List Char := []
  deriving Repr, Inhabited

namespace Folding

/-- A blank comes behind the text; one at the beginning of a line is dropped. -/
def addBlank (f : Folding) (c : Char) : Folding :=
  if f.isLineEnded then f else { f with blanks := c :: f.blanks }

/-- A break comes behind the text; blanks before the first one are dropped. -/
def addBreak (f : Folding) (c : Char) : Folding :=
  if f.isLineEnded then { f with moreBreaks := c :: f.moreBreaks }
  else { f with blanks := [], isLineEnded := true, firstBreak := [c] }

/-- A line ends behind the text without a trace. -/
def endLine (f : Folding) : Folding := { f with isLineEnded := true }

/-- Puts what blanks and breaks become behind the text. -/
def close (f : Folding) : Folding :=
  if f.isLineEnded then
    let gap :=
      if f.firstBreak = ['\n'] then if f.moreBreaks.isEmpty then [' '] else f.moreBreaks
      else f.moreBreaks ++ f.firstBreak
    { text := gap ++ f.text }
  else { text := f.blanks ++ f.text }

/-- A character of the text itself. -/
def push (f : Folding) (c : Char) : Folding :=
  let f := f.close
  { f with text := c :: f.text }

/-- The text without what comes behind it. -/
def result (f : Folding) : String := String.ofList f.text.reverse

end Folding

/-! ## Unquoted text -/

/-- The character is a mark of the flow layout. -/
def isFlowMark (c : Char) : Bool := c = ',' || c = '[' || c = ']' || c = '{' || c = '}'

/-- Reads an unquoted text on. The flags say whether the last characters were blanks or breaks, and
whether the text stands in flow layout; text at a lesser indentation than given does not belong to it.
The result holds the text, whether it ends before a new line, and the cursor behind it. -/
def readPlain (flow : Bool) (indent : Int) (f : Folding) (behindBlanks : Bool) (m : Mark) :
    List Char → Option (String × Bool × Cursor)
  | [] => some (f.result, f.isLineEnded, ⟨[], m⟩)
  | c :: cs =>
    let stop := some (f.result, f.isLineEnded, (⟨c :: cs, m⟩ : Cursor))
    if isBlank c then
      if f.isLineEnded && (m.column : Int) < indent && c = '\t' then none
      else readPlain flow indent (f.addBlank c) true (m.after c) cs
    else if isBreak c then readPlain flow indent (f.addBreak c) true (m.after c) cs
    else if behindBlanks && !flow && (m.column : Int) < indent then stop
    else if behindBlanks && ((⟨c :: cs, m⟩ : Cursor).isAtDocumentMark || c = '#') then stop
    else if flow && c = ':' && (cs.head?.map fun d => isFlowMark d || d = '?').getD false then
      none
    else if c = ':' && isWordEndNext cs then stop
    else if flow && isFlowMark c then stop
    else readPlain flow indent (f.push c) false (m.after c) cs

/-! ## Quoted text -/

/-- Reads a text in single quotes on. -/
def readSingleQuoted (f : Folding) (m : Mark) : List Char → Option (String × Cursor)
  | [] => none
  | '\'' :: '\'' :: cs =>
    readSingleQuoted (f.push '\'') ((m.after '\'').after '\'') cs
  | c :: cs =>
    if c = '\'' then some (f.close.result, ⟨cs, m.after c⟩)
    else if isBlank c then readSingleQuoted (f.addBlank c) (m.after c) cs
    else if isBreak c then readSingleQuoted (f.addBreak c) (m.after c) cs
    else if (⟨c :: cs, m⟩ : Cursor).isAtDocumentMark then none
    else readSingleQuoted (f.push c) (m.after c) cs

/-- The character that a letter behind a backslash stands for. -/
def unescape? (c : Char) : Option Char :=
  [('0', 0x00), ('a', 0x07), ('b', 0x08), ('t', 0x09), ('\t', 0x09), ('n', 0x0a), ('v', 0x0b),
    ('f', 0x0c), ('r', 0x0d), ('e', 0x1b), (' ', 0x20), ('"', 0x22), ('/', 0x2f), ('\\', 0x5c),
    ('N', 0x85), ('_', 0xa0), ('L', 0x2028), ('P', 0x2029)].lookup c |>.map Char.ofNat

/-- How many hexadecimal digits follow a letter behind a backslash. -/
def codeLength? (c : Char) : Option Nat := [('x', 2), ('u', 4), ('U', 8)].lookup c

/-- The character with the given code, if there is one. -/
def charOfCode? (n : Nat) : Option Char := if n.isValidChar then some (Char.ofNat n) else none

/-- What the next character of a text in double quotes belongs to. -/
inductive QuotedPlace where
  | text
  | escape
  | code (digits value : Nat)
  deriving Repr

/-- Reads a text in double quotes on. -/
def readDoubleQuoted (f : Folding) (m : Mark) (place : QuotedPlace) :
    List Char → Option (String × Cursor)
  | [] => none
  | c :: cs =>
    match place with
    | .escape =>
      if isBreak c then readDoubleQuoted f.close.endLine (m.after c) .text cs
      else
        match unescape? c, codeLength? c with
        | some x, _ => readDoubleQuoted (f.push x) (m.after c) .text cs
        | none, some n => readDoubleQuoted f (m.after c) (.code n 0) cs
        | none, none => none
    | .code digits value =>
      (digitIn? 16 c).bind fun d =>
        let value := value * 16 + d
        if digits = 1 then
          (charOfCode? value).bind fun x => readDoubleQuoted (f.push x) (m.after c) .text cs
        else readDoubleQuoted f (m.after c) (.code (digits - 1) value) cs
    | .text =>
      if c = '"' then some (f.close.result, ⟨cs, m.after c⟩)
      else if isBlank c then readDoubleQuoted (f.addBlank c) (m.after c) .text cs
      else if isBreak c then readDoubleQuoted (f.addBreak c) (m.after c) .text cs
      else if (⟨c :: cs, m⟩ : Cursor).isAtDocumentMark then none
      else if c = '\\' then readDoubleQuoted f (m.after c) .escape cs
      else readDoubleQuoted (f.push c) (m.after c) .text cs

end ApiDescription.Yaml
