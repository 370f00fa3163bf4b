import ApiDescription.Number.Arithmetic
import ApiDescription.Pattern.Property
import ApiDescription.Text.Blank
import ApiDescription.Text.Letter

/-!
# Accepted patterns

`Pattern.isAccepted` decides whether a text is a regular expression that can be compiled: neither
look-around nor back-references, no two groups of one name, at most 250 levels of nesting, only
characters that make valid text, and a program of bounded size. What matters of each part that is read
is how deep it nests and how large a program it becomes, where the sizes of classes are estimates.

Nothing about schemas rests on what is accepted here: they take any `PatternReader`.
-/

set_option autoImplicit false

namespace ApiDescription.Pattern

/-! ## Parts -/

/-- What matters of a part of a pattern. -/
structure Piece where
  depth : Nat
  size : Nat
  isRepeatable : Bool

/-- What matters of a set of characters: also which bytes are in it, as a mask of 256 bits, where
characters are bytes. -/
structure SetPiece where
  depth : Nat
  size : Nat
  bytes : Option Nat

/-- The flags that decide how a pattern is read: blanks are passed over, characters are those of
Unicode. -/
structure Scope where
  isSpaced : Bool
  isUnicode : Bool

/-- The greatest depth of nesting. -/
def depthLimit : Nat := 250

/-- The greatest size of a compiled pattern in bytes. -/
def sizeLimit : Nat := 10 * twoTo 20

/-- The size of one state of a compiled pattern. -/
def stateSize : Nat := 32

/-- The mask of the ASCII bytes. -/
def asciiMask : Nat := twoTo 128 - 1

/-- The mask of all bytes. -/
def byteMask : Nat := twoTo 256 - 1

/-- The mask of the bytes from `low` to `high`. -/
def rangeMask (low high : Nat) : Nat := twoTo (high + 1) - twoTo low

/-- The parts one after the other. -/
def concatenation : List Piece → Piece
  | [] => ⟨0, stateSize, false⟩
  | [p] => p
  | ps => ⟨(ps.map (·.depth)).foldl max 0 + 1, (ps.map (·.size)).foldl (· + ·) 0, true⟩

/-- The parts as alternatives. -/
def alternation : List Piece → Piece
  | [p] => p
  | ps => ⟨(ps.map (·.depth)).foldl max 0 + 1,
      (ps.map (·.size)).foldl (· + ·) 0 + 2 * stateSize + 4 * ps.length, true⟩

/-- A part repeated at least `least` times, and at most `most` times if that is bounded. -/
def repetition (p : Piece) (least : Nat) (most : Option Nat) : Piece :=
  let size := match most with
    | none => max least 1 * p.size + 2 * stateSize
    | some m => m * p.size + (m - least) * (stateSize + 8) + stateSize
  ⟨p.depth + 1, size, true⟩

/-! ## Blanks -/

/-- The text behind a comment, which ends with its line. -/
def skipComment : List Char → List Char
  | [] => []
  | c :: rest => if c = '\n' then rest else skipComment rest

theorem length_skipComment_le (s : List Char) : (skipComment s).length ≤ s.length := by
  induction s with
  | nil => simp [skipComment]
  | cons c rest ih =>
    simp only [skipComment]
    split
    · simp
    · simp only [List.length_cons]
      omega

/-- The text behind blanks and comments. -/
def skipSpaced (s : List Char) : List Char :=
  match s with
  | [] => []
  | c :: rest =>
    if Text.isBlankChar c then skipSpaced rest
    else if c = '#' then skipSpaced (skipComment rest)
    else c :: rest
termination_by s.length
decreasing_by
  · simp
  · have := length_skipComment_le rest
    simp only [List.length_cons]
    omega

/-- The text behind blanks where they are passed over. -/
def skip (sc : Scope) (s : List Char) : List Char := if sc.isSpaced then skipSpaced s else s

/-- The character behind the blanks that follow a hyphen. -/
def peekSpaced (sc : Scope) (s : List Char) : Option Char :=
  if sc.isSpaced then
    match s.dropWhile Text.isBlankChar with
    | '#' :: rest => (rest.dropWhile Text.isBlankChar).head?
    | rest => rest.head?
  else s.head?

/-! ## Escapes -/

/-- The classes with a letter of their own. -/
inductive LetterClass where
  | digit
  | space
  | word

/-- What stands for characters outside of sets. -/
inductive Primitive where
  | literal (c : Char) (isByte : Bool)
  | letterClass (c : LetterClass) (negated : Bool)
  | property
  | anyCharacter
  | assertion

/-- The characters that mean something in a pattern. -/
def isMeta (c : Char) : Bool := "\\.+*?()|[]\x7b\x7d^$#&-~".toList.contains c

/-- The character may stand behind a backslash and means itself. -/
def isEscapable (c : Char) : Bool :=
  isMeta c || (c.toNat < 0x80 && !c.isAlphanum && c != '<' && c != '>')

/-- The value of a hexadecimal digit. -/
def hexDigit? (c : Char) : Option Nat :=
  if '0' ≤ c ∧ c ≤ '9' then some (c.toNat - '0'.toNat)
  else if 'a' ≤ c ∧ c ≤ 'f' then some (c.toNat - 'a'.toNat + 10)
  else if 'A' ≤ c ∧ c ≤ 'F' then some (c.toNat - 'A'.toNat + 10)
  else none

/-- The character with the code point. -/
def characterOf? (n : Nat) : Option Char := if n.isValidChar then some (Char.ofNat n) else none

/-- Reads a fixed number of hexadecimal digits. -/
def readHexDigits? (sc : Scope) : Nat → Nat → List Char → Option (Nat × List Char)
  | 0, n, s => some (n, s)
  | _ + 1, _, [] => none
  | count + 1, n, c :: rest => do
    let d ← hexDigit? c
    readHexDigits? sc count (n * 16 + d) (skip sc rest)

/-- Reads hexadecimal digits up to a closing brace. The first argument bounds their number. -/
def readHexBrace? (sc : Scope) : Nat → Nat → Bool → List Char → Option (Nat × List Char)
  | 0, _, _, _ => none
  | fuel + 1, n, any, s =>
    match skip sc s with
    | [] => none
    | '\x7d' :: rest => if any then some (n, skip sc rest) else none
    | c :: rest => do
      let d ← hexDigit? c
      readHexBrace? sc fuel (n * 16 + d) true rest

/-- Reads a code point in hexadecimal digits, of which there are `digits` unless they stand in
braces. -/
def readHex? (sc : Scope) (digits : Nat) (s : List Char) : Option (Primitive × List Char) :=
  match skip sc s with
  | '\x7b' :: rest => do
    let (n, rest) ← readHexBrace? sc (rest.length + 1) 0 false rest
    let c ← characterOf? n
    some (.literal c false, rest)
  | s => do
    let (n, rest) ← readHexDigits? sc digits 0 s
    let c ← characterOf? n
    some (.literal c (digits = 2), rest)

/-- Reads the text up to a closing brace. The first argument bounds its length. -/
def readBraced? (sc : Scope) : Nat → List Char → List Char → Option (List Char × List Char)
  | 0, _, _ => none
  | fuel + 1, acc, s =>
    match skip sc s with
    | [] => none
    | '\x7d' :: rest => some (acc.reverse, rest)
    | c :: rest => readBraced? sc fuel (c :: acc) rest

/-- Reads the name of a property, one letter or text in braces. -/
def readProperty? (sc : Scope) (s : List Char) : Option (Primitive × List Char) :=
  match skip sc s with
  | [] => none
  | '\\' :: _ => none
  | '\x7b' :: rest => do
    let (name, rest) ← readBraced? sc (rest.length + 1) [] rest
    if isProperty name then some (.property, rest) else none
  | c :: rest => if isPropertyName [c] then some (.property, skip sc rest) else none

/-- A boundary of words may be narrowed down by a word in braces; other braces are not its own. -/
def readBoundary? (sc : Scope) (s : List Char) : Option (List Char) :=
  let isNameChar (c : Char) : Bool := c.isAlpha || c = '-'
  match s with
  | '\x7b' :: rest =>
    match skip sc rest with
    | [] => none
    | c :: r =>
      if isNameChar c then do
        let (name, rest) ← readBraced? sc (r.length + 2) [] (c :: r)
        let name := String.ofList name
        if name == "start" || name == "end" || name == "start-half" || name == "end-half" then
          some rest
        else none
      else some s
  | s => some s

/-- Reads what follows a backslash. -/
def readEscape? (sc : Scope) (s : List Char) : Option (Primitive × List Char) :=
  match s with
  | [] => none
  | c :: rest =>
    match c with
    | 'x' => readHex? sc 2 rest
    | 'u' => readHex? sc 4 rest
    | 'U' => readHex? sc 8 rest
    | 'p' => readProperty? sc rest
    | 'P' => readProperty? sc rest
    | 'd' => some (.letterClass .digit false, rest)
    | 'D' => some (.letterClass .digit true, rest)
    | 's' => some (.letterClass .space false, rest)
    | 'S' => some (.letterClass .space true, rest)
    | 'w' => some (.letterClass .word false, rest)
    | 'W' => some (.letterClass .word true, rest)
    | 'a' => some (.literal '\x07' false, rest)
    | 'f' => some (.literal '\x0c' false, rest)
    | 't' => some (.literal '\t' false, rest)
    | 'n' => some (.literal '\n' false, rest)
    | 'r' => some (.literal '\r' false, rest)
    | 'v' => some (.literal '\x0b' false, rest)
    | 'A' => some (.assertion, rest)
    | 'z' => some (.assertion, rest)
    | 'B' => some (.assertion, rest)
    | '<' => some (.assertion, rest)
    | '>' => some (.assertion, rest)
    | 'b' => (readBoundary? sc rest).map fun r => (.assertion, r)
    | c => if isEscapable c then some (.literal c false, rest) else none

/-! ## Sizes of characters -/

/-- The size of a character of text. -/
def literalSize (c : Char) : Nat := stateSize * c.utf8Size

/-- About the size of a class with a letter of its own, where characters are those of Unicode. -/
def letterClassSize : LetterClass → Nat
  | .digit => 4000
  | .space => 800
  | .word => 42000

/-- About the size of the characters with a property, whichever it is. -/
def propertySize : Nat := 20000

/-- The size of any character. -/
def anySize : Nat := 15 * stateSize

/-- The bytes of a class with a letter of its own. -/
def letterClassMask : LetterClass → Nat
  | .digit => rangeMask 48 57
  | .space => rangeMask 9 13 ||| rangeMask 32 32
  | .word => rangeMask 48 57 ||| rangeMask 65 90 ||| rangeMask 95 95 ||| rangeMask 97 122

/-- A single character as a part, where it can stand for valid text. -/
def primitivePiece? (sc : Scope) : Primitive → Option Piece
  | .literal c isByte =>
    if !sc.isUnicode && isByte && 0x7F < c.toNat then none else some ⟨0, literalSize c, true⟩
  | .letterClass c negated =>
    if sc.isUnicode then some ⟨0, letterClassSize c, true⟩
    else if negated then none
    else some ⟨0, stateSize, true⟩
  | .property => if sc.isUnicode then some ⟨0, propertySize, true⟩ else none
  | .anyCharacter => if sc.isUnicode then some ⟨0, anySize, true⟩ else none
  | .assertion => some ⟨0, stateSize, true⟩

/-! ## Sets of characters -/

/-- The named sets of ASCII characters. -/
def namedMask? (name : String) : Option Nat :=
  let upper := rangeMask 65 90
  let lower := rangeMask 97 122
  let digit := rangeMask 48 57
  let blank := rangeMask 9 9 ||| rangeMask 32 32
  match name with
  | "alnum" => some (upper ||| lower ||| digit)
  | "alpha" => some (upper ||| lower)
  | "ascii" => some asciiMask
  | "blank" => some blank
  | "cntrl" => some (rangeMask 0 31 ||| rangeMask 127 127)
  | "digit" => some digit
  | "graph" => some (rangeMask 33 126)
  | "lower" => some lower
  | "print" => some (rangeMask 32 126)
  | "punct" => some (rangeMask 33 47 ||| rangeMask 58 64 ||| rangeMask 91 96 |||
      rangeMask 123 126)
  | "space" => some (rangeMask 9 13 ||| rangeMask 32 32)
  | "upper" => some upper
  | "word" => some (upper ||| lower ||| digit ||| rangeMask 95 95)
  | "xdigit" => some (digit ||| rangeMask 65 70 ||| rangeMask 97 102)
  | _ => none

/-- Reads a named set behind an opening bracket, if one stands there. -/
def readNamed? (s : List Char) : Option (SetPiece × List Char) :=
  match s with
  | ':' :: rest => do
    let (negated, rest) := match rest with
      | '^' :: r => (true, r)
      | r => (false, r)
    let (name, rest) := rest.span (· ≠ ':')
    match rest with
    | ':' :: ']' :: rest =>
      let mask ← namedMask? (String.ofList name)
      some (⟨0, 8, some (if negated then byteMask - mask else mask)⟩, rest)
    | _ => none
  | _ => none

/-- The items of a set. -/
def setUnion : List SetPiece → SetPiece
  | [] => ⟨0, 0, some 0⟩
  | [p] => p
  | ps => ⟨(ps.map (·.depth)).foldl max 0 + 1, (ps.map (·.size)).foldl (· + ·) 0,
      ps.foldl (fun m? p => do some ((← m?) ||| (← p.bytes))) (some 0)⟩

/-- The operators between sets. -/
inductive SetOperator where
  | intersection
  | difference
  | symmetricDifference

/-- The bytes that an operator leaves. -/
def SetOperator.apply : SetOperator → Nat → Nat → Nat
  | .intersection, a, b => a &&& b
  | .difference, a, b => a ^^^ (a &&& b)
  | .symmetricDifference, a, b => a ^^^ b

/-- Applies the operator that waits for its right operand, if there is one. -/
def applyWaiting (waiting : Option (SetOperator × SetPiece)) (right : SetPiece) : SetPiece :=
  match waiting with
  | none => right
  | some (op, left) =>
    ⟨max left.depth right.depth + 1, left.size + right.size, do
      some (op.apply (← left.bytes) (← right.bytes))⟩

/-- A single character as an item of a set. -/
def itemPiece? : Primitive → Option SetPiece
  | .literal c _ =>
    let mask := if c.toNat < 0x80 then some (rangeMask c.toNat c.toNat) else none
    some ⟨0, if c.toNat < 0x80 then 8 else literalSize c, mask⟩
  | .letterClass c negated =>
    some ⟨0, letterClassSize c, if negated then none else some (letterClassMask c)⟩
  | .property => some ⟨0, propertySize, none⟩
  | .anyCharacter => none
  | .assertion => none

/-- Reads one character of a set. -/
def readSetCharacter? (sc : Scope) : List Char → Option (Primitive × List Char)
  | [] => none
  | '\\' :: rest => readEscape? sc rest
  | c :: rest => some (.literal c false, rest)

/-- Reads a character of a set or a range of them. -/
def readRange? (sc : Scope) (s : List Char) : Option (SetPiece × List Char) := do
  let (first, rest) ← readSetCharacter? sc s
  match skip sc rest with
  | [] => none
  | '-' :: r =>
    if peekSpaced sc r == some ']' || peekSpaced sc r == some '-' then
      let p ← itemPiece? first
      some (p, '-' :: r)
    else
      match skip sc r with
      | [] => none
      | r =>
        let (last, rest) ← readSetCharacter? sc r
        match first, last with
        | .literal a _, .literal b _ =>
          if b < a then none
          else
            let mask := if b.toNat < 0x80 then some (rangeMask a.toNat b.toNat) else none
            some (⟨0, if b.toNat < 0x80 then 8 else 4 * literalSize b, mask⟩, rest)
        | _, _ => none
  | rest =>
    let p ← itemPiece? first
    some (p, rest)

/-- Reads the hyphens at the beginning of a set, which stand for themselves. -/
def readHyphens (sc : Scope) : Nat → List Char → Nat × List Char
  | 0, s => (0, s)
  | fuel + 1, s =>
    match s with
    | '-' :: rest =>
      let (n, r) := readHyphens sc fuel (skip sc rest)
      (n + 1, r)
    | s => (0, s)

mutual

/-- Reads a set behind its opening bracket. The first argument bounds the number of steps. -/
def readSet? : Nat → Scope → List Char → Option (SetPiece × List Char)
  | 0, _, _ => none
  | fuel + 1, sc, s => do
    let (negated, s) := match skip sc s with
      | '^' :: r => (true, skip sc r)
      | r => (false, r)
    let (hyphens, s) := readHyphens sc s.length s
    let hyphen : SetPiece := ⟨0, 8, some (rangeMask 45 45)⟩
    let (items, s) := match hyphens, s with
      | 0, ']' :: r => ([⟨0, 8, some (rangeMask 93 93)⟩], skip sc r)
      | n, r => (List.replicate n hyphen, r)
    let (body, rest) ← readSetItems? fuel sc none items s
    let bytes := (body.bytes.map fun m => if negated then byteMask - m else m).filter
      (· ≤ asciiMask)
    if !sc.isUnicode && bytes.isNone then none
    else some (⟨body.depth + 1, stateSize + body.size + (if negated then anySize else 0), bytes⟩,
      rest)

/-- Reads the items of a set up to its closing bracket. Items are kept last first. -/
def readSetItems? : Nat → Scope → Option (SetOperator × SetPiece) → List SetPiece → List Char →
    Option (SetPiece × List Char)
  | 0, _, _, _, _ => none
  | fuel + 1, sc, waiting, items, s =>
    match skip sc s with
    | [] => none
    | '[' :: rest =>
      match readNamed? rest with
      | some (p, rest) => readSetItems? fuel sc waiting (p :: items) rest
      | none =>
        match readSet? fuel sc rest with
        | some (p, rest) => readSetItems? fuel sc waiting (p :: items) rest
        | none => none
    | ']' :: rest => some (applyWaiting waiting (setUnion items), rest)
    | '&' :: '&' :: rest =>
      readSetItems? fuel sc (some (.intersection, applyWaiting waiting (setUnion items))) [] rest
    | '-' :: '-' :: rest =>
      readSetItems? fuel sc (some (.difference, applyWaiting waiting (setUnion items))) [] rest
    | '~' :: '~' :: rest =>
      readSetItems? fuel sc (some (.symmetricDifference, applyWaiting waiting (setUnion items)))
        [] rest
    | s =>
      match readRange? sc s with
      | some (p, rest) => readSetItems? fuel sc waiting (p :: items) rest
      | none => none

end

/-! ## Repetitions -/

/-- Reads a decimal with blanks around it. -/
def readDecimal? (sc : Scope) : Nat → List Char → List Char → Option (Nat × List Char)
  | 0, _, _ => none
  | fuel + 1, acc, s =>
    match s with
    | c :: rest =>
      if c.isDigit then readDecimal? sc fuel (c :: acc) (skip sc rest)
      else finish acc s
    | [] => finish acc []
where
  /-- The value of the digits, which must fit into 32 bits. -/
  finish (acc s : List Char) : Option (Nat × List Char) :=
    if acc.isEmpty then none
    else
      let n := acc.reverse.foldl (fun n c => n * 10 + (c.toNat - '0'.toNat)) 0
      if n < twoTo 32 then some (n, s.dropWhile Text.isBlankChar) else none

/-- Reads how often a part is repeated, behind an opening brace. -/
def readCounts? (sc : Scope) (s : List Char) : Option ((Nat × Option Nat) × List Char) := do
  let number (s : List Char) : Option (Nat × List Char) :=
    readDecimal? sc (s.length + 1) [] (s.dropWhile Text.isBlankChar)
  let (least, rest) ← number (skip sc s)
  match rest with
  | '\x7d' :: rest => some ((least, some least), rest)
  | ',' :: rest =>
    match skip sc rest with
    | '\x7d' :: rest => some ((least, none), rest)
    | rest =>
      let (most, rest) ← number rest
      match rest with
      | '\x7d' :: rest => if most < least then none else some ((least, some most), rest)
      | _ => none
  | _ => none

/-- The text behind the mark that makes a repetition lazy. -/
def skipLazy : List Char → List Char
  | '?' :: rest => rest
  | rest => rest

/-! ## Groups -/

/-- The character may stand in the name of a group, at its beginning or later. -/
def isNameCharacter (isFirst : Bool) (c : Char) : Bool :=
  if isFirst then c = '_' || Text.isLetter c
  else c = '_' || c = '.' || c = '[' || c = ']' || Text.isLetterOrNumber c

/-- Reads the name of a group up to its closing angle. -/
def readName? (s : List Char) : Option (String × List Char) :=
  let (name, rest) := s.span (· ≠ '>')
  match name, rest with
  | c :: cs, '>' :: rest =>
    if isNameCharacter true c && cs.all (isNameCharacter false) then
      some (String.ofList (c :: cs), rest)
    else none
  | _, _ => none

/-- Reads flags up to a colon or a closing parenthesis, each of which may stand once. -/
def readFlags? : List Char → List Char → Option (List Char × List Char)
  | _, [] => none
  | acc, c :: rest =>
    if c = ':' ∨ c = ')' then
      if acc.head? = some '-' then none else some (acc.reverse, c :: rest)
    else if acc.contains c then none
    else if "-imsUuRx".toList.contains c then readFlags? (c :: acc) rest
    else none

/-- The value that flags give to one of them. -/
def flagValue? (flag : Char) (flags : List Char) : Option Bool :=
  let (set, unset) := flags.span (· ≠ '-')
  if set.contains flag then some true
  else if unset.contains flag then some false
  else none

/-- The scope under flags. -/
def Scope.withFlags (sc : Scope) (flags : List Char) : Scope :=
  ⟨(flagValue? 'x' flags).getD sc.isSpaced, (flagValue? 'u' flags).getD sc.isUnicode⟩

/-- What an opening parenthesis begins. -/
inductive Opening where
  | flags (flags : List Char)
  | group (flags : List Char)
  | named (name : String)
  | capture

/-- Reads what follows an opening parenthesis. -/
def readOpening? (sc : Scope) (s : List Char) : Option (Opening × List Char) :=
  match skip sc s with
  | '?' :: '=' :: _ => none
  | '?' :: '!' :: _ => none
  | '?' :: '<' :: '=' :: _ => none
  | '?' :: '<' :: '!' :: _ => none
  | '?' :: 'P' :: '<' :: rest => (readName? rest).map fun (n, r) => (.named n, r)
  | '?' :: '<' :: rest => (readName? rest).map fun (n, r) => (.named n, r)
  | '?' :: rest =>
    match readFlags? [] rest with
    | some (flags, ')' :: r) => if flags.isEmpty then none else some (.flags flags, r)
    | some (flags, ':' :: r) => some (.group flags, r)
    | _ => none
  | rest => some (.capture, rest)

/-! ## Patterns -/

/-- Repeats the last of the parts read so far. -/
def repeatLast? (items : List Piece) (least : Nat) (most : Option Nat) : Option (List Piece) :=
  match items with
  | p :: ps => if p.isRepeatable then some (repetition p least most :: ps) else none
  | [] => none

/-- The group around a part. -/
def grouped (p : Piece) : Piece := ⟨p.depth + 1, p.size + 2 * stateSize, true⟩

/-- Reads alternatives up to a closing parenthesis or the end. Names of groups are gathered; branches
and parts of the branch at hand are kept last first. The first argument bounds the number of steps. -/
def readBranches? : Nat → Scope → List String → List Piece → List Piece → List Char →
    Option (Piece × List String × List Char)
  | 0, _, _, _, _, _ => none
  | fuel + 1, sc, names, branches, items, s =>
    let branch := concatenation items.reverse
    match skip sc s with
    | [] => some (alternation (branch :: branches).reverse, names, [])
    | ')' :: rest => some (alternation (branch :: branches).reverse, names, ')' :: rest)
    | '|' :: rest => readBranches? fuel sc names (branch :: branches) [] rest
    | '(' :: rest => do
      let (opening, rest) ← readOpening? sc rest
      let inside (sc' : Scope) (names : List String) := do
        let (p, names, rest) ← readBranches? fuel sc' names [] [] rest
        match rest with
        | ')' :: rest => readBranches? fuel sc names branches (grouped p :: items) rest
        | _ => none
      match opening with
      | .flags flags =>
        readBranches? fuel (sc.withFlags flags) names branches (⟨0, 0, false⟩ :: items) rest
      | .group flags => inside (sc.withFlags flags) names
      | .named name => if names.contains name then none else inside sc (name :: names)
      | .capture => inside sc names
    | '[' :: rest => do
      let (p, rest) ← readSet? fuel sc rest
      readBranches? fuel sc names branches (⟨p.depth, p.size, true⟩ :: items) rest
    | '?' :: rest => do
      readBranches? fuel sc names branches (← repeatLast? items 0 (some 1)) (skipLazy rest)
    | '*' :: rest => do
      readBranches? fuel sc names branches (← repeatLast? items 0 none) (skipLazy rest)
    | '+' :: rest => do
      readBranches? fuel sc names branches (← repeatLast? items 1 none) (skipLazy rest)
    | '\x7b' :: rest => do
      let ((least, most), rest) ← readCounts? sc rest
      readBranches? fuel sc names branches (← repeatLast? items least most)
        (skipLazy (skip sc rest))
    | '\\' :: rest => do
      let (p, rest) ← readEscape? sc rest
      readBranches? fuel sc names branches ((← primitivePiece? sc p) :: items) rest
    | '.' :: rest => do
      readBranches? fuel sc names branches ((← primitivePiece? sc .anyCharacter) :: items) rest
    | c :: rest => do
      let p : Primitive := if c = '^' ∨ c = '$' then .assertion else .literal c false
      readBranches? fuel sc names branches ((← primitivePiece? sc p) :: items) rest

/-- The text is a regular expression that can be compiled. -/
def isAccepted (pattern : String) : Bool :=
  let s := pattern.toList
  match readBranches? (2 * s.length + 2) ⟨false, true⟩ [] [] [] s with
  | some (p, _, []) => p.depth ≤ depthLimit && p.size ≤ sizeLimit
  | _ => false

end ApiDescription.Pattern
