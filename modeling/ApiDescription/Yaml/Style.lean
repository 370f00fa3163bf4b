import ApiDescription.Yaml.Plain

/-!
# Writing texts in YAML

A text is written unquoted where it reads back as itself, in single quotes where it would read as
another type or break the layout, as a literal block where it has more than one line, and in double
quotes with escapes where nothing else will do. `TextForm.of` makes the choice.
-/

set_option autoImplicit false

namespace ApiDescription.Yaml

/-! ## Characters -/

/-- The character ends a line. -/
def isBreak (c : Char) : Bool :=
  c = '\n' || c = '\r' || c.toNat = 0x85 || c.toNat = 0x2028 || c.toNat = 0x2029

/-- The character ends a word. -/
def isWordEnd (c : Char) : Bool := c = ' ' || c = '\t' || c = '\x00' || isBreak c

/-- The character may stand in a file as it is. -/
def isPrintable (c : Char) : Bool :=
  c = '\n' || (0x20 ≤ c.toNat && c.toNat ≤ 0x7e) ||
    (0xa0 ≤ c.toNat && c.toNat != 0xfeff && c.toNat != 0xfffe && c.toNat != 0xffff)

/-- The character cannot begin an unquoted text. -/
def isIndicator (c : Char) : Bool := "#,[]\x7b\x7d&*!|>'\"%@\x60".toList.contains c

/-! ## Analysis -/

/-- A mark of the layout begins the text. -/
def startsWithMark : List Char → Bool
  | '-' :: '-' :: '-' :: _ => true
  | '.' :: '.' :: '.' :: _ => true
  | c :: rest =>
    isIndicator c ||
      ((c = '?' || c = ':' || c = '-') && (rest.head?.map isWordEnd).getD true)
  | [] => false

/-- A colon before the end of a word, or a hash behind one, stands behind the given character. -/
def hasMarkBehind (before : Char) : List Char → Bool
  | [] => false
  | c :: rest =>
    (c = ':' && (rest.head?.map isWordEnd).getD true) || (c = '#' && isWordEnd before) ||
      hasMarkBehind c rest

/-- Part of the text would be read as a mark of the layout. -/
def hasMark (s : List Char) : Bool :=
  startsWithMark s || (match s with
    | c :: rest => hasMarkBehind c rest
    | [] => false)

/-- A character of the first kind stands right before one of the second. -/
def hasPair (p q : Char → Bool) : List Char → Bool
  | a :: b :: rest => (p a && q b) || hasPair p q (b :: rest)
  | _ => false

/-- The character is a space. -/
def isSpace (c : Char) : Bool := c = ' '

/-- A character of the kind begins the text or ends it. -/
def isAtEnd (p : Char → Bool) (s : List Char) : Bool :=
  (s.head?.map p).getD false || (s.getLast?.map p).getD false

/-- A space stands at the end of a line, or a character needs an escape. -/
def needsEscape (s : List Char) : Bool :=
  hasPair isSpace isBreak s || s.any fun c => !isPrintable c

/-- The text may stand without quotes. -/
def allowsPlain (s : List Char) : Bool :=
  !needsEscape s && !s.any isBreak && !isAtEnd isSpace s && !hasMark s

/-- The text may stand in single quotes. -/
def allowsSingleQuoted (s : List Char) : Bool := !needsEscape s && !hasPair isBreak isSpace s

/-- The text may stand as a literal block. -/
def allowsLiteral (s : List Char) : Bool :=
  !needsEscape s && !s.isEmpty && !((s.getLast?.map isSpace).getD false)

/-! ## Choice -/

/-- The forms of a written text. -/
inductive TextForm where
  | plain
  | singleQuoted
  | doubleQuoted
  | literal
  deriving DecidableEq, Repr

/-- The text reads back as itself without quotes. -/
def readsAsText (s : String) : Bool :=
  match plainMeaning s with
  | some (.string _) => !isZeroPadded s.toList
  | _ => false

/-- The form in which a text is written. -/
def TextForm.of (s : String) : TextForm :=
  let cs := s.toList
  if cs.contains '\n' then if allowsLiteral cs then .literal else .doubleQuoted
  else if readsAsText s && allowsPlain cs then .plain
  else if allowsSingleQuoted cs then .singleQuoted
  else .doubleQuoted

/-- The key may stand on one line with its value: one line of at most 128 bytes. -/
def isSimpleKey (s : String) : Bool := !s.toList.any isBreak && s.utf8ByteSize ≤ 128

end ApiDescription.Yaml
