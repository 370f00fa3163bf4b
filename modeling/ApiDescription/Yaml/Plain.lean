import ApiDescription.Json.Value

/-!
# Meaning of unquoted text in YAML

The core types of YAML 1.2: null, booleans, integers in four bases and floating-point numbers. Digits
behind a leading zero are text, and so are the yes-and-no words of older versions.
-/

set_option autoImplicit false

namespace ApiDescription.Yaml

/-- The text is one of the spellings of null. -/
def isNullWord (s : String) : Bool := s == "null" || s == "Null" || s == "NULL" || s == "~"

/-- The boolean that a text spells. -/
def boolOf? (s : String) : Option Bool :=
  if s == "true" || s == "True" || s == "TRUE" then some true
  else if s == "false" || s == "False" || s == "FALSE" then some false
  else none

/-! ## Integers -/

/-- The value of a digit in a base up to sixteen. -/
def digitIn? (base : Nat) (c : Char) : Option Nat :=
  let d? :=
    if '0' ≤ c ∧ c ≤ '9' then some (c.toNat - '0'.toNat)
    else if 'a' ≤ c ∧ c ≤ 'f' then some (c.toNat - 'a'.toNat + 10)
    else if 'A' ≤ c ∧ c ≤ 'F' then some (c.toNat - 'A'.toNat + 10)
    else none
  d?.filter (· < base)

/-- The natural that one or more digits of a base denote. -/
def naturalIn? (base : Nat) (s : List Char) : Option Nat :=
  if s.isEmpty then none
  else s.foldl (fun n? c => do
    let n ← n?
    let d ← digitIn? base c
    some (n * base + d)) (some 0)

/-- The base that a marker of two characters announces. -/
def baseOf? : Char → Option Nat
  | 'x' => some 16
  | 'o' => some 8
  | 'b' => some 2
  | _ => none

/-- The text is a zero and more digits, after a sign or without one. -/
def isZeroPadded (s : List Char) : Bool :=
  let body := match s with
    | '-' :: r => r
    | '+' :: r => r
    | r => r
  match body with
  | '0' :: c :: r => (c :: r).all Char.isDigit
  | _ => false

/-- The digits behind a sign, either of which may be missing. -/
def signed : List Char → Option Bool × List Char
  | '+' :: r => (some false, r)
  | '-' :: r => (some true, r)
  | r => (none, r)

/-- The integer that the text denotes, of any size. -/
def integerOf? (s : List Char) : Option Int :=
  let (sign, body) := signed s
  let natural? := match body with
    | '0' :: m :: r =>
      match baseOf? m with
      | some base => naturalIn? base r
      | none => none
    | _ => none
  let natural? := match natural? with
    | some n => some n
    | none => if isZeroPadded s then none else naturalIn? 10 body
  natural?.map fun n => if sign = some true then -(n : Int) else n

/-- The text denotes a natural of 64 bits, which is what a field for a count reads. -/
def countOf? (s : List Char) : Option Nat :=
  match s with
  | '-' :: _ => none
  | _ => (integerOf? s).bind fun n => if 0 ≤ n ∧ n < twoTo 64 then some n.toNat else none

/-! ## Floating-point numbers -/

/-- The floating-point number that a text denotes: a finite decimal, or one of the words for infinity
and for no number. -/
def realOf? (s : List Char) : Option Binary64 :=
  let body := match s with
    | '+' :: '+' :: _ => none
    | '+' :: '-' :: _ => none
    | '+' :: r => some r
    | r => some r
  body.bind fun body =>
    let word := String.ofList body
    let whole := String.ofList s
    if word == ".inf" || word == ".Inf" || word == ".INF" then some (.infinite false)
    else if whole == "-.inf" || whole == "-.Inf" || whole == "-.INF" then some (.infinite true)
    else if whole == ".nan" || whole == ".NaN" || whole == ".NAN" then some .nan
    else
      match Binary64.ofText? body with
      | some (.finite x) => some (.finite x)
      | _ => none

/-- A floating-point number as a JSON value, which has nothing but null for those not finite. -/
def jsonOfReal : Binary64 → Json
  | .finite x => .number (.real x)
  | _ => .null

/-! ## Meaning -/

/-- The greatest magnitude that an integer may have at all: 128 bits without a sign, 127 with one. -/
def isWideInteger (n : Int) : Bool := -(twoTo 127 : Int) ≤ n && n < twoTo 128

/-- The number that a text denotes as an integer, if any: refused when it needs more than 64 bits. -/
def integerMeaning (s : List Char) : Option (Option Json) :=
  match integerOf? s with
  | none => none
  | some n =>
    if -(twoTo 63 : Int) ≤ n ∧ n < twoTo 64 then some (some (.ofInt n))
    else if isWideInteger n then some none
    else none

/-- What an unquoted text means; nothing when it is an integer that no value can hold. -/
def plainMeaning (text : String) : Option Json :=
  let s := text.toList
  if s.isEmpty || isNullWord text then some .null
  else
    match boolOf? text with
    | some b => some (.bool b)
    | none =>
      match integerMeaning s with
      | some meaning => meaning
      | none =>
        if isZeroPadded s then some (.string text)
        else
          match realOf? s with
          | some x => some (jsonOfReal x)
          | none => some (.string text)

end ApiDescription.Yaml
