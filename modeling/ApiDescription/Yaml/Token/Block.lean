import ApiDescription.Yaml.Token

/-!
# Block texts

A block text begins behind a mark at the end of a line and goes on as long as its lines are indented. A
literal one keeps its breaks, and a folded one makes spaces of single breaks between lines that do not
begin with a blank. The head says what becomes of the breaks at the end.
-/

set_option autoImplicit false

namespace ApiDescription.Yaml

/-- What becomes of the breaks at the end of a block text. -/
inductive Chomping where
  | strip
  | clip
  | keep
  deriving DecidableEq, Repr

/-- The head of a block text: what becomes of the last breaks, and the indentation if it is given. -/
structure BlockHead where
  chomping : Chomping := .clip
  increment : Option Nat := none
  deriving Repr

namespace BlockHead

/-- The way that a mark stands for. -/
def chomping? (c : Char) : Option Chomping :=
  if c = '+' then some .keep else if c = '-' then some .strip else none

/-- Reads a digit that is not zero; nothing else may be a digit. -/
def readIncrement (h : BlockHead) (c : Cursor) : Option (BlockHead × Cursor) :=
  match c.rest with
  | d :: _ =>
    if d = '0' then none
    else if d.isDigit then
      some ({ h with increment := some (d.toNat - '0'.toNat) }, c.advance)
    else some (h, c)
  | [] => some (h, c)

/-- Reads a mark for the last breaks. -/
def readChomping (h : BlockHead) (c : Cursor) : BlockHead × Cursor :=
  match c.rest.head?.bind chomping? with
  | some way => ({ h with chomping := way }, c.advance)
  | none => (h, c)

/-- Reads a head up to the beginning of the next line. -/
def read? (c : Cursor) : Option (BlockHead × Cursor) := do
  let (h, c) ← match c.rest.head?.bind chomping? with
    | some way => readIncrement { chomping := way } c.advance
    | none => do
      let (h, c) ← readIncrement {} c
      pure (if h.increment.isSome then readChomping h c else (h, c))
  let c ← c.skipToLineEnd?
  pure (h, c.advance)

end BlockHead

/-- A block text being read. All its lists hold the last character first. -/
structure BlockText where
  /-- The indentation, once it is known. -/
  indent : Option Nat
  /-- The greatest indentation before the first line of text. -/
  widest : Nat := 0
  text : List Char := []
  /-- The break at the end of the last line of text. -/
  lineBreak : List Char := []
  /-- The breaks behind that one. -/
  moreBreaks : List Char := []
  /-- The last line of text begins with a blank. -/
  isIndented : Bool := false
  deriving Repr

namespace BlockText

/-- The text with its indentation settled, which is at least the given one. -/
def settle (least : Nat) (b : BlockText) : BlockText :=
  match b.indent with
  | some _ => b
  | none => { b with indent := some (max (max b.widest least) 1) }

/-- Puts what the breaks before a line become behind the text, and then the line's first character. -/
def beginLine (literal : Bool) (c : Char) (b : BlockText) : BlockText :=
  let folds := !literal && b.lineBreak = ['\n'] && !b.isIndented && !isBlank c
  let gap :=
    if folds then if b.moreBreaks.isEmpty then [' '] else b.moreBreaks
    else b.moreBreaks ++ b.lineBreak
  { b with
    text := c :: gap ++ b.text, lineBreak := [], moreBreaks := [], isIndented := isBlank c }

/-- The text with the breaks at its end that are kept. -/
def result (chomping : Chomping) (b : BlockText) : String :=
  let tail := match chomping with
    | .strip => []
    | .clip => b.lineBreak
    | .keep => b.moreBreaks ++ b.lineBreak
  String.ofList (tail ++ b.text).reverse

/-- Reads a block text on, inside a line of text or before one. The text itself is never indented less
than given. -/
def readLines (literal : Bool) (least : Nat) (b : BlockText) (insideLine : Bool) (m : Mark) :
    List Char → Option (BlockText × Cursor)
  | [] => some (if insideLine then b else b.settle least, ⟨[], m⟩)
  | c :: cs =>
    if insideLine then
      if isBreak c then
        readLines literal least { b with lineBreak := [c] } false (m.after c) cs
      else readLines literal least { b with text := c :: b.text } true (m.after c) cs
    else
      let isShort := match b.indent with
        | some n => m.column < n
        | none => true
      let b := { b with widest := max b.widest m.column }
      if isShort && c = ' ' then readLines literal least b false (m.after c) cs
      else if isShort && c = '\t' then none
      else if isBreak c then
        readLines literal least { b with moreBreaks := c :: b.moreBreaks } false (m.after c) cs
      else
        let b := b.settle least
        if b.indent = some m.column then
          readLines literal least (b.beginLine literal c) true (m.after c) cs
        else some (b, ⟨c :: cs, m⟩)

end BlockText

/-- Reads a block text behind its mark, in a collection at the given indentation. -/
def readBlock? (literal : Bool) (indent : Int) (c : Cursor) : Option (String × Cursor) := do
  let (h, c) ← BlockHead.read? c
  let start : BlockText := { indent := h.increment.map fun n => indent.toNat + n }
  let (b, c) ← BlockText.readLines literal (indent + 1).toNat start false c.mark c.rest
  pure (b.result h.chomping, c)

end ApiDescription.Yaml
