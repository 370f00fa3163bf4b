import ApiDescription.Json.Value

/-!
# Reading JSON text

`Json.ofText?` reads one value and nothing behind it. Values nest at most 127 deep. An integer that
fits into 64 bits stays an integer, except minus zero; every other number is floating-point, and one
that is too large for that is refused.
`Json.ofTextKeepingRepeats?` leaves repeated member names in the value for readers that refuse them.
-/

set_option autoImplicit false

namespace ApiDescription

namespace Json

/-- How deep values may nest. -/
def nestingLimit : Nat := 127

/-! ## Numbers -/

/-- The greatest significand that digits are gathered into. -/
def significandLimit : Nat := twoTo 64

/-- Appends digits to a significand for as long as it stays below its limit, and counts them. -/
def gatherDigits : Nat → List Char → Nat × Nat
  | n, [] => (n, 0)
  | n, c :: cs =>
    let n' := n * 10 + (c.toNat - '0'.toNat)
    if significandLimit ≤ n' then (n, 0)
    else
      let (m, count) := gatherDigits n' cs
      (m, count + 1)

/-- The floating-point number nearest to a power of ten. -/
def tenPower (k : Nat) : Dyadic64 :=
  match Binary64.ofNat (tenTo k) with
  | .finite x => x
  | _ => default

/-- The number of a floating-point value that is finite. -/
def finite? : Binary64 → Option Dyadic64
  | .finite x => some x
  | _ => none

/-- Scales by a power of ten in steps of at most `10 ^ 308`, rounding after each step. -/
def scaleByTens (x : Dyadic64) (e : Int) : Option Dyadic64 :=
  if x.significand = 0 then some x
  else if 308 < e then none
  else if 0 ≤ e then finite? (x.mul (tenPower e.toNat))
  else if -308 ≤ e then finite? (x.div (tenPower (-e).toNat))
  else (finite? (x.div (tenPower 308))).bind fun y => scaleByTens y (e + 308)
termination_by (-e).toNat
decreasing_by omega

/-- The floating-point number of a decimal. Digits beyond a significand of 64 bits are dropped, those
before the point still counting for its place. -/
def realOfDecimal (negative : Bool) (whole fraction : List Char) (exponent : Int) :
    Option Dyadic64 :=
  let (n, taken) := gatherDigits 0 whole
  let (n, places) := gatherDigits n fraction
  let e := exponent + (whole.length - taken : Nat) - places
  match Binary64.ofNat n with
  | .finite x => scaleByTens { x with negative := negative } e
  | _ => none

/-- The integer of a sign and digits when it is kept as one. -/
def integerOfDigits? (negative : Bool) (whole : List Char) : Option Int :=
  let n : Int := Binary64.digitsValue whole
  let value := if negative then -n else n
  if (negative && n == 0) || !Number.isIntegerRange value then none else some value

/-- Splits a number text into its digits before and behind the point, its exponent and what follows.
Refused are a leading zero before other digits, a point without digits and a mark without digits. -/
def splitNumber? (s : List Char) :
    Option (List Char × Option (List Char) × Option Int × List Char) := do
  let (whole, rest) := Binary64.spanDigits s
  match whole with
  | [] => none
  | '0' :: _ :: _ => none
  | _ => pure ()
  let (fraction, rest) ← match rest with
    | '.' :: r =>
      let (ds, r') := Binary64.spanDigits r
      if ds.isEmpty then none else some (some ds, r')
    | r => some (none, r)
  match rest with
  | c :: r =>
    if c = 'e' ∨ c = 'E' then
      let (negative, r) := match r with
        | '+' :: r' => (false, r')
        | '-' :: r' => (true, r')
        | r' => (false, r')
      let (ds, r') := Binary64.spanDigits r
      if ds.isEmpty then none
      else
        let e : Int := Binary64.digitsValue ds
        some (whole, fraction, some (if negative then -e else e), r')
    else some (whole, fraction, none, rest)
  | [] => some (whole, fraction, none, [])

/-- Reads a number behind its sign. -/
def readNumber? (negative : Bool) (s : List Char) : Option (Number × List Char) := do
  let (whole, fraction, exponent, rest) ← splitNumber? s
  match fraction, exponent, integerOfDigits? negative whole with
  | none, none, some n => some (.integer n, rest)
  | _, _, _ =>
    let x ← realOfDecimal negative whole (fraction.getD []) (exponent.getD 0)
    some (.real x, rest)

/-! ## Strings -/

/-- The value of a hexadecimal digit. -/
def hexDigit? (c : Char) : Option Nat :=
  if '0' ≤ c ∧ c ≤ '9' then some (c.toNat - '0'.toNat)
  else if 'a' ≤ c ∧ c ≤ 'f' then some (c.toNat - 'a'.toNat + 10)
  else if 'A' ≤ c ∧ c ≤ 'F' then some (c.toNat - 'A'.toNat + 10)
  else none

/-- The value of four hexadecimal digits. -/
def hexUnit? (a b c d : Char) : Option Nat := do
  let a ← hexDigit? a
  let b ← hexDigit? b
  let c ← hexDigit? c
  let d ← hexDigit? d
  some (((a * 16 + b) * 16 + c) * 16 + d)

/-- The character that a one-letter escape stands for. -/
def letterEscape? : Char → Option Char
  | '"' => some '"'
  | '\\' => some '\\'
  | '/' => some '/'
  | 'b' => some '\x08'
  | 'f' => some '\x0c'
  | 'n' => some '\n'
  | 'r' => some '\r'
  | 't' => some '\t'
  | _ => none

/-- Reads the rest of a string behind its opening quote. An escaped code unit of a pair needs its
partner. -/
def readString? : List Char → List Char → Option (String × List Char)
  | _, [] => none
  | acc, '"' :: rest => some (String.ofList acc.reverse, rest)
  | acc, '\\' :: 'u' :: a :: b :: c :: d :: rest =>
    match hexUnit? a b c d with
    | none => none
    | some high =>
      if 0xDC00 ≤ high ∧ high ≤ 0xDFFF then none
      else if 0xD800 ≤ high ∧ high ≤ 0xDBFF then
        match rest with
        | '\\' :: 'u' :: a' :: b' :: c' :: d' :: rest' =>
          match hexUnit? a' b' c' d' with
          | none => none
          | some low =>
            if 0xDC00 ≤ low ∧ low ≤ 0xDFFF then
              readString?
                (Char.ofNat (0x10000 + (high - 0xD800) * 0x400 + (low - 0xDC00)) :: acc) rest'
            else none
        | _ => none
      else readString? (Char.ofNat high :: acc) rest
  | acc, '\\' :: e :: rest =>
    match letterEscape? e with
    | some c => readString? (c :: acc) rest
    | none => none
  | acc, c :: rest => if c.toNat < 0x20 ∨ c = '\\' then none else readString? (c :: acc) rest

/-! ## Values -/

/-- Blanks between the tokens of JSON text. -/
def isBlank (c : Char) : Bool := c = ' ' || c = '\t' || c = '\n' || c = '\r'

/-- The text behind its leading blanks. -/
def skipBlanks (s : List Char) : List Char := s.dropWhile isBlank

/-- The text behind a word that it begins with. -/
def stripWord? (word : List Char) (s : List Char) : Option (List Char) :=
  if word.isPrefixOf s then some (s.drop word.length) else none

mutual

/-- Reads a value that nests at most `depth` deep and returns what follows. The first argument bounds
the number of tokens. -/
def readValue? : Nat → Nat → List Char → Option (Json × List Char)
  | 0, _, _ => none
  | fuel + 1, depth, s =>
    match skipBlanks s with
    | '"' :: rest => (readString? [] rest).map fun (t, r) => (.string t, r)
    | '-' :: rest => (readNumber? true rest).map fun (n, r) => (.number n, r)
    | '[' :: rest =>
      match depth with
      | 0 => none
      | depth + 1 =>
        match skipBlanks rest with
        | ']' :: r => some (.array [], r)
        | r => (readItems? fuel depth r).map fun (xs, r') => (.array xs, r')
    | '{' :: rest =>
      match depth with
      | 0 => none
      | depth + 1 =>
        match skipBlanks rest with
        | '}' :: r => some (.object [], r)
        | r => (readMembers? fuel depth r).map fun (ms, r') => (.object ms, r')
    | 't' :: rest => (stripWord? ['r', 'u', 'e'] rest).map fun r => (.bool true, r)
    | 'f' :: rest => (stripWord? ['a', 'l', 's', 'e'] rest).map fun r => (.bool false, r)
    | 'n' :: rest => (stripWord? ['u', 'l', 'l'] rest).map fun r => (.null, r)
    | rest => (readNumber? false rest).map fun (n, r) => (.number n, r)

/-- Reads one or more items up to the closing bracket. -/
def readItems? : Nat → Nat → List Char → Option (List Json × List Char)
  | 0, _, _ => none
  | fuel + 1, depth, s =>
    match readValue? fuel depth s with
    | none => none
    | some (x, rest) =>
      match skipBlanks rest with
      | ',' :: r => (readItems? fuel depth r).map fun (xs, r') => (x :: xs, r')
      | ']' :: r => some ([x], r)
      | _ => none

/-- Reads one or more members up to the closing brace. -/
def readMembers? : Nat → Nat → List Char → Option (List (String × Json) × List Char)
  | 0, _, _ => none
  | fuel + 1, depth, s =>
    match skipBlanks s with
    | '"' :: rest =>
      match readString? [] rest with
      | none => none
      | some (name, rest) =>
        match skipBlanks rest with
        | ':' :: rest =>
          match readValue? fuel depth rest with
          | none => none
          | some (v, rest) =>
            match skipBlanks rest with
            | ',' :: r => (readMembers? fuel depth r).map fun (ms, r') => ((name, v) :: ms, r')
            | '}' :: r => some ([(name, v)], r)
            | _ => none
        | _ => none
    | _ => none

end

/-- Reads a whole text as one value, leaving repeated member names in place. -/
def ofTextKeepingRepeats? (s : String) : Option Json :=
  let cs := s.toList
  match readValue? (2 * cs.length + 2) nestingLimit cs with
  | some (j, rest) => if (skipBlanks rest).isEmpty then some j else none
  | none => none

/-- Reads a whole text as one value; of members with the same name the last one counts. -/
def ofText? (s : String) : Option Json := (ofTextKeepingRepeats? s).map withoutRepeats

end Json

end ApiDescription
