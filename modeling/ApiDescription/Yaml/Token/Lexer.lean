import ApiDescription.Yaml.Token.Block
import ApiDescription.Yaml.Token.Folded
import ApiDescription.Yaml.Token.Property

/-!
# Splitting a file into tokens

`Token.ofText?` gives the tokens of a file. A collection in block layout begins where text is indented
deeper than before and ends where it is not any more. That a text is a key shows only at the colon
behind it, so the place where it began is kept until then.
-/

set_option autoImplicit false

namespace ApiDescription.Yaml

/-- A place where a key on one line may have begun. -/
structure KeyPlace where
  /-- How many tokens there were before it. -/
  tokens : Nat
  mark : Mark
  /-- There is an error unless it turns out to be a key. -/
  isRequired : Bool
  deriving Repr

/-- What has been read, and what is to be known to read on. -/
structure Lexer where
  cursor : Cursor
  /-- The indentation of the innermost collection in block layout, and those around it. -/
  indent : Int := -1
  outerIndents : List Int := []
  /-- A place for each level of flow layout, the innermost first. -/
  keyPlaces : List (Option KeyPlace) := [none]
  allowsKey : Bool := true
  /-- The tokens so far, the last one first. -/
  tokens : List Token := []
  count : Nat := 0
  deriving Repr

namespace Lexer

/-- The text stands in flow layout. -/
def inFlow (l : Lexer) : Bool := 1 < l.keyPlaces.length

/-- The column of the next character. -/
def column (l : Lexer) : Nat := l.cursor.mark.column

/-- Puts a token behind the others. -/
def emit (t : Token) (l : Lexer) : Lexer := { l with tokens := t :: l.tokens, count := l.count + 1 }

/-- Puts a token in behind so many others. -/
def emitAt (place : Nat) (t : Token) (l : Lexer) : Lexer :=
  let later := l.count - place
  { l with
    tokens := l.tokens.take later ++ t :: l.tokens.drop later
    count := l.count + 1 }

/-- Goes on behind so many characters. -/
def skip (n : Nat) (l : Lexer) : Lexer := { l with cursor := l.cursor.advanceBy n }

/-- Allows a key to begin, or forbids it. -/
def setAllowsKey (allowed : Bool) (l : Lexer) : Lexer := { l with allowsKey := allowed }

/-! ## Places of keys -/

/-- The place of a key on the innermost level. -/
def keyPlace? (l : Lexer) : Option KeyPlace := l.keyPlaces.head?.join

/-- Changes the place of a key on the innermost level. -/
def setKeyPlace (p : Option KeyPlace) (l : Lexer) : Lexer :=
  { l with keyPlaces := p :: l.keyPlaces.drop 1 }

/-- Gives the place of a key up, which must not be required. -/
def dropKeyPlace? (l : Lexer) : Option Lexer :=
  if (l.keyPlace?.map (·.isRequired)).getD false then none else some (l.setKeyPlace none)

/-- Keeps the place of a key that may begin here. One is required where the text stands at the
indentation of its collection. -/
def saveKeyPlace? (l : Lexer) : Option Lexer :=
  if l.allowsKey then do
    let place : KeyPlace :=
      { tokens := l.count, mark := l.cursor.mark, isRequired := !l.inFlow && l.indent = l.column }
    let l ← l.dropKeyPlace?
    pure (l.setKeyPlace (some place))
  else some l

/-- The place is on the line of the mark, and not too far before it. -/
def KeyPlace.isFresh (m : Mark) (p : KeyPlace) : Bool :=
  !(p.mark.line < m.line || p.mark.index + 1024 < m.index)

/-- Gives the places up at which no key can have begun any more. -/
def dropStalePlaces? (l : Lexer) : Option Lexer := do
  let m := l.cursor.mark
  let places ← l.keyPlaces.mapM fun p =>
    match p with
    | none => some none
    | some p =>
      if KeyPlace.isFresh m p then some (some p)
      else if p.isRequired then none
      else some none
  pure { l with keyPlaces := places }

/-! ## Indentation -/

/-- Begins a collection in block layout, if the column is deeper than the innermost one. -/
def deepen (column : Nat) (place : Nat) (t : Token) (l : Lexer) : Lexer :=
  if !l.inFlow && l.indent < column then
    { l.emitAt place t with indent := column, outerIndents := l.indent :: l.outerIndents }
  else l

/-- Ends the collections that are deeper than the column. -/
def endDeeper (column : Int) (indent : Int) : List Int → Lexer → Lexer
  | [], l => { l with indent := indent, outerIndents := [] }
  | outer :: rest, l =>
    if column < indent then endDeeper column outer rest (l.emit .blockEnd)
    else { l with indent := indent, outerIndents := outer :: rest }

/-- Ends the collections that are deeper than the column, outside of flow layout. -/
def shallow (column : Int) (l : Lexer) : Lexer :=
  if l.inFlow then l else endDeeper column l.indent l.outerIndents l

/-! ## Tokens -/

/-- Skips blanks, comments and breaks. A tab at the beginning of a line is none of them where a key may
begin, and behind a break one may. -/
def skipToToken (flow : Bool) (allowsKey inComment : Bool) (m : Mark) :
    List Char → Bool × Cursor
  | [] => (allowsKey, ⟨[], m⟩)
  | c :: cs =>
    if isBreak c then skipToToken flow (allowsKey || !flow) false (m.after c) cs
    else if inComment then skipToToken flow allowsKey true (m.after c) cs
    else if c = ' ' || (c = '\t' && (flow || !allowsKey)) then
      skipToToken flow allowsKey false (m.after c) cs
    else if c = '#' then skipToToken flow allowsKey true (m.after c) cs
    else (allowsKey, ⟨c :: cs, m⟩)

/-- Gets ready for the next token. -/
def prepare? (l : Lexer) : Option Lexer := do
  let (allowsKey, cursor) :=
    skipToToken l.inFlow l.allowsKey false l.cursor.mark l.cursor.rest
  let l ← { l with allowsKey := allowsKey, cursor := cursor }.dropStalePlaces?
  pure (l.shallow l.column)

/-- Reads the end of the file. -/
def finish? (l : Lexer) : Option Lexer := do
  let l := l.shallow (-1)
  let l ← l.dropKeyPlace?
  pure (l.emit .streamEnd)

/-- Reads a mark that begins or ends a document. -/
def documentMark? (t : Token) (l : Lexer) : Option Lexer := do
  let l := l.shallow (-1)
  let l ← l.dropKeyPlace?
  pure (((l.setAllowsKey false).skip 3).emit t)

/-- Reads a directive. -/
def directive? (l : Lexer) : Option Lexer := do
  let l := l.shallow (-1)
  let l ← l.dropKeyPlace?
  let (t, cursor) ← readDirective? l.cursor.advance
  pure ({ l.setAllowsKey false with cursor := cursor }.emit t)

/-- Reads the beginning of a collection in flow layout. -/
def flowStart? (t : Token) (l : Lexer) : Option Lexer := do
  let l ← l.saveKeyPlace?
  pure ((({ l with keyPlaces := none :: l.keyPlaces }.setAllowsKey true).skip 1).emit t)

/-- Reads the end of a collection in flow layout. -/
def flowEnd? (t : Token) (l : Lexer) : Option Lexer := do
  let l ← l.dropKeyPlace?
  let places := if l.inFlow then l.keyPlaces.drop 1 else l.keyPlaces
  pure ((({ l with keyPlaces := places }.setAllowsKey false).skip 1).emit t)

/-- Reads a comma between the entries of a collection in flow layout. -/
def flowEntry? (l : Lexer) : Option Lexer := do
  let l ← l.dropKeyPlace?
  pure (((l.setAllowsKey true).skip 1).emit .flowEntry)

/-- Reads the mark of an item in block layout. -/
def blockEntry? (l : Lexer) : Option Lexer := do
  if !l.inFlow && !l.allowsKey then none
  let l := l.deepen l.column l.count .blockListStart
  let l ← l.dropKeyPlace?
  pure (((l.setAllowsKey true).skip 1).emit .blockEntry)

/-- Reads the mark of a key. -/
def keyMark? (l : Lexer) : Option Lexer := do
  if !l.inFlow && !l.allowsKey then none
  let l := l.deepen l.column l.count .blockTableStart
  let l ← l.dropKeyPlace?
  pure (((l.setAllowsKey !l.inFlow).skip 1).emit .key)

/-- Reads the mark of a value, which makes a key of what began at the place that was kept. -/
def valueMark? (l : Lexer) : Option Lexer :=
  match l.keyPlace? with
  | some p =>
    let l := l.emitAt p.tokens .key
    let l := (l.deepen p.mark.column p.tokens .blockTableStart).setKeyPlace none
    some (((l.setAllowsKey false).skip 1).emit .value)
  | none =>
    if !l.inFlow && !l.allowsKey then none
    else
      let l := l.deepen l.column l.count .blockTableStart
      some (((l.setAllowsKey !l.inFlow).skip 1).emit .value)

/-- Reads a token that may begin a key. -/
def property? (read : Cursor → Option (Token × Cursor)) (l : Lexer) : Option Lexer := do
  let l ← l.saveKeyPlace?
  let (t, cursor) ← read l.cursor
  pure ({ l.setAllowsKey false with cursor := cursor }.emit t)

/-- Reads a block text. -/
def blockText? (literal : Bool) (l : Lexer) : Option Lexer := do
  let l ← l.dropKeyPlace?
  let (text, cursor) ← readBlock? literal l.indent l.cursor.advance
  let t := Token.scalar text (if literal then .literal else .folded)
  pure ({ l.setAllowsKey true with cursor := cursor }.emit t)

/-- Reads an unquoted text. A new line behind it may begin with a key. -/
def plainText? (l : Lexer) : Option Lexer := do
  let l ← l.saveKeyPlace?
  let (text, endsLine, cursor) ←
    readPlain l.inFlow (l.indent + 1) {} false l.cursor.mark l.cursor.rest
  pure ({ l.setAllowsKey endsLine with cursor := cursor }.emit (.scalar text .plain))

/-- Reads an anchor or an alias. -/
def readName? (make : String → Token) (c : Cursor) : Option (Token × Cursor) :=
  (readAnchor? c.advance).map fun (name, c) => (make name, c)

/-- Reads a text in single quotes. -/
def readSingle? (c : Cursor) : Option (Token × Cursor) :=
  let c := c.advance
  (readSingleQuoted {} c.mark c.rest).map fun (text, c) => (.scalar text .quoted, c)

/-- Reads a text in double quotes. -/
def readDouble? (c : Cursor) : Option (Token × Cursor) :=
  let c := c.advance
  (readDoubleQuoted {} c.mark .text c.rest).map fun (text, c) => (.scalar text .quoted, c)

/-- The character cannot begin an unquoted text, whatever follows it. -/
def isMark (c : Char) : Bool := "-?:,[]\x7b\x7d#&*!|>'\"%@\x60".toList.contains c

/-- An unquoted text can begin with the character before the others. -/
def beginsPlain (flow : Bool) (c : Char) (cs : List Char) : Bool :=
  !(isMark c || isBlank c || isBreak c) ||
    (c = '-' && !(cs.head?.map isBlank).getD false) ||
    (!flow && (c = '?' || c = ':') && !isWordEndNext cs)

/-- Reads the token that begins with the next character. -/
def token? (l : Lexer) (c : Char) (cs : List Char) : Option Lexer :=
  if l.column = 0 && c = '%' then l.directive?
  else if l.cursor.isAtDocumentMark then
    l.documentMark? (if c = '-' then .documentStart else .documentEnd)
  else if c = '[' then l.flowStart? .flowListStart
  else if c = '{' then l.flowStart? .flowTableStart
  else if c = ']' then l.flowEnd? .flowListEnd
  else if c = '}' then l.flowEnd? .flowTableEnd
  else if c = ',' then l.flowEntry?
  else if c = '-' && isWordEndNext cs then l.blockEntry?
  else if c = '?' && (l.inFlow || isWordEndNext cs) then l.keyMark?
  else if c = ':' && (l.inFlow || isWordEndNext cs) then l.valueMark?
  else if c = '*' then l.property? (readName? .alias)
  else if c = '&' then l.property? (readName? .anchor)
  else if c = '!' then l.property? (readTag? l.inFlow)
  else if c = '|' && !l.inFlow then l.blockText? true
  else if c = '>' && !l.inFlow then l.blockText? false
  else if c = '\'' then l.property? readSingle?
  else if c = '"' then l.property? readDouble?
  else if beginsPlain l.inFlow c cs then l.plainText?
  else none

/-- Reads tokens to the end of the file. Every token but the last one takes a character, so the first
argument need not be greater than the number of characters. -/
def run? : Nat → Lexer → Option (List Token)
  | 0, _ => none
  | n + 1, l => do
    let l ← l.prepare?
    match l.cursor.rest with
    | [] => (l.finish?).map fun l => l.tokens.reverse
    | c :: cs => run? n (← l.token? c cs)

end Lexer

/-- The tokens of a file, if it can be split into tokens. -/
def Token.ofText? (text : String) : Option (List Token) := do
  let cs ← cleanText? text
  Lexer.run? (cs.length + 1) { cursor := ⟨cs, {}⟩ }

end ApiDescription.Yaml
