import ApiDescription.Yaml.Token

/-!
# Anchors, tags and directives

The tokens that say something about a node or about the whole document.
-/

set_option autoImplicit false

namespace ApiDescription.Yaml

/-! ## Anchors -/

/-- The character may stand right behind an anchor. -/
def endsAnchor (cs : List Char) : Bool :=
  isWordEndNext cs || (cs.head?.map "?:,]\x7d%@\x60".toList.contains).getD false

/-- Reads the name of an anchor, or of an alias, behind its mark. -/
def readAnchor? (c : Cursor) : Option (String × Cursor) :=
  let (name, c) := c.takeWhile isNameChar
  if name.isEmpty || !endsAnchor c.rest then none else some (String.ofList name, c)

/-! ## Tags -/

/-- The character may stand in a tag; some only in a tag in angle brackets. -/
def isTagChar (bracketed : Bool) (c : Char) : Bool :=
  isNameChar c || ";/?:@&=+$.!~*'()".toList.contains c ||
    (bracketed && (c = ',' || c = '[' || c = ']'))

/-- The byte that a percent sign and two hexadecimal digits stand for. -/
def readByte? : List Char → Option (Nat × List Char)
  | '%' :: a :: b :: rest => do
    let a ← digitIn? 16 a
    let b ← digitIn? 16 b
    some (a * 16 + b, rest)
  | _ => none

/-- How many bytes follow the first byte of a character, and the part of the code in that one. -/
def leadByte? (byte : Nat) : Option (Nat × Nat) :=
  if byte < 0x80 then some (0, byte)
  else if byte / 32 = 6 then some (1, byte % 32)
  else if byte / 16 = 14 then some (2, byte % 16)
  else if byte / 8 = 30 then some (3, byte % 8)
  else none

/-- Reads so many bytes on of a character with the given part of its code. -/
def readTrailing? : Nat → Nat → List Char → Option (Nat × List Char)
  | 0, code, cs => some (code, cs)
  | n + 1, code, cs => do
    let (byte, cs) ← readByte? cs
    if byte / 64 = 2 then readTrailing? n (code * 64 + byte % 64) cs else none

/-- Reads a character that is written as the bytes of its encoding. -/
def readEscapedChar? (cs : List Char) : Option (Char × List Char) := do
  let (byte, cs) ← readByte? cs
  let (more, start) ← leadByte? byte
  let (code, cs) ← readTrailing? more start cs
  if code.isValidChar then some (Char.ofNat code, cs) else none

/-- The characters of a tag that come next, with escapes resolved. The first argument bounds their
number. -/
def readTagChars? (bracketed : Bool) : Nat → Cursor → Option (List Char × Cursor)
  | 0, c => some ([], c)
  | n + 1, c =>
    match c.rest with
    | [] => some ([], c)
    | x :: _ =>
      if x = '%' then do
        let (y, rest) ← readEscapedChar? c.rest
        let (ys, c) ← readTagChars? bracketed n (c.advanceBy (c.rest.length - rest.length))
        some (y :: ys, c)
      else if isTagChar bracketed x then do
        let (ys, c) ← readTagChars? bracketed n c.advance
        some (x :: ys, c)
      else some ([], c)

/-- The characters of a tag up to its end. -/
def readTagText? (bracketed : Bool) (c : Cursor) : Option (List Char × Cursor) :=
  readTagChars? bracketed (c.rest.length + 1) c

/-- Reads a handle: an exclamation mark, a name, and another exclamation mark if one follows. -/
def readHandle? (c : Cursor) : Option (List Char × Cursor) :=
  match c.rest with
  | '!' :: _ =>
    let (name, c) := c.advance.takeWhile isNameChar
    if c.rest.head? = some '!' then some ('!' :: name ++ ['!'], c.advance)
    else some ('!' :: name, c)
  | _ => none

/-- The handle is closed by a second exclamation mark. -/
def isClosedHandle (handle : List Char) : Bool :=
  2 ≤ handle.length && handle.getLast? = some '!'

/-- Reads a tag: its handle, which is empty for a tag in angle brackets, and the rest of it. -/
def readTag? (flow : Bool) (c : Cursor) : Option (Token × Cursor) := do
  let (handle, suffix, c) ← match c.rest with
    | '!' :: '<' :: _ => do
      let (text, c) ← readTagText? true (c.advanceBy 2)
      if text.isEmpty || c.rest.head? != some '>' then none else some ([], text, c.advance)
    | _ => do
      let (handle, c) ← readHandle? c
      let (text, c) ← readTagText? false c
      if isClosedHandle handle then if text.isEmpty then none else some (handle, text, c)
      else
        let suffix := handle.drop 1 ++ text
        if suffix.isEmpty then some ([], ['!'], c) else some (['!'], suffix, c)
  if isWordEndNext c.rest || (flow && c.rest.head? = some ',') then
    some (.tag (String.ofList handle) (String.ofList suffix), c)
  else none

/-! ## Directives -/

/-- Reads a number of at most nine digits. -/
def readVersionNumber? (c : Cursor) : Option (Nat × Cursor) :=
  let (digits, c) := c.takeWhile Char.isDigit
  if digits.isEmpty || 9 < digits.length then none else some (Binary64.digitsValue digits, c)

/-- Reads a directive behind its mark, up to the beginning of the next line. -/
def readDirective? (c : Cursor) : Option (Token × Cursor) := do
  let (name, c) := c.takeWhile isNameChar
  if name.isEmpty || !isWordEndNext c.rest then none
  let (token, c) ← match String.ofList name with
    | "YAML" => do
      let (major, c) ← readVersionNumber? c.skipBlanks
      if c.rest.head? != some '.' then none
      let (minor, c) ← readVersionNumber? c.advance
      pure (Token.version major minor, c)
    | "TAG" => do
      let (handle, c) ← readHandle? c.skipBlanks
      if !(isClosedHandle handle || handle = ['!']) then none
      if !(c.rest.head?.map isBlank).getD false then none
      let (start, c) ← readTagText? true c.skipBlanks
      if start.isEmpty || !isWordEndNext c.rest then none
      pure (Token.tagDirective (String.ofList handle) (String.ofList start), c)
    | _ => none
  let c ← c.skipToLineEnd?
  pure (token, c.advance)

end ApiDescription.Yaml
