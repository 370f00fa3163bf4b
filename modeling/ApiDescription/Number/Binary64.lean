import ApiDescription.Number.Arithmetic

/-!
# Binary floating-point numbers

A `Dyadic64` is a finite number `± significand · 2 ^ exponent` with a significand below `2 ^ 53`,
and `Binary64` adds the two infinities and the value that is no number. Every comparison and
every rounding is exact arithmetic on naturals: `Dyadic64.ofRatio` rounds a quotient to the nearest
representable number, a tie going to the even significand.
-/

set_option autoImplicit false

namespace ApiDescription

/-- The finite number `± significand · 2 ^ exponent`. -/
structure Dyadic64 where
  negative : Bool
  significand : Nat
  exponent : Int
  deriving DecidableEq, Repr, Inhabited

/-- A number of the 64-bit binary floating-point format. -/
inductive Binary64 where
  | nan
  | infinite (negative : Bool)
  | finite (x : Dyadic64)
  deriving DecidableEq, Repr, Inhabited

/-! ## Rounding a quotient -/

/-- The quotient `n / d` rounded to the nearest natural, a tie going to the even one. -/
def roundDiv (n d : Nat) : Nat :=
  let q := n / d
  let r := n % d
  if d < 2 * r ∨ (2 * r = d ∧ q % 2 = 1) then q + 1 else q

namespace Dyadic64

/-- The least exponent of the format, which all numbers near zero share. -/
def leastExponent : Int := -1074

/-- The greatest exponent of the format. -/
def greatestExponent : Int := 971

/-- The zero of the given sign. -/
def zero (negative : Bool) : Dyadic64 := ⟨negative, 0, leastExponent⟩

/-- The pair whose quotient is `num / den` in units of `2 ^ e`. -/
def inUnits (num den : Nat) (e : Int) : Nat × Nat :=
  if e < 0 then (num * twoTo (-e).toNat, den) else (num, den * twoTo e.toNat)

/-- The exponent at which `num / den` has a significand of 53 bits, or the least exponent. -/
def unitOf (num den : Nat) : Int :=
  let e := max ((num.log2 : Int) - (den.log2 : Int) - 53) leastExponent
  let (n, d) := inUnits num den e
  if twoTo 53 ≤ n / d then e + 1 else e

/-- The number nearest to `± num / den`; beyond the greatest finite number it is infinite. -/
def ofRatio (negative : Bool) (num den : Nat) : Binary64 :=
  if num = 0 then .finite (zero negative)
  else
    let e := unitOf num den
    let (n, d) := inUnits num den e
    let m := roundDiv n d
    let x : Dyadic64 := if m = twoTo 53 then ⟨negative, twoTo 52, e + 1⟩ else ⟨negative, m, e⟩
    if greatestExponent < x.exponent then .infinite negative else .finite x

/-! ## Order and arithmetic -/

/-- The magnitude as a quotient of naturals. -/
def ratio (x : Dyadic64) : Nat × Nat :=
  if x.exponent < 0 then (x.significand, twoTo (-x.exponent).toNat)
  else (x.significand * twoTo x.exponent.toNat, 1)

/-- The signed significand, which has the sign of the number. -/
def mantissa (x : Dyadic64) : Int :=
  if x.negative then -(x.significand : Int) else x.significand

/-- The signed significand in units of `2 ^ e`, for an `e` that is no greater than the exponent. -/
def atExponent (x : Dyadic64) (e : Int) : Int :=
  x.mantissa * twoTo (x.exponent - e).toNat

/-- The order of the two numbers as real numbers; the two zeros are equal. -/
def lt (x y : Dyadic64) : Bool :=
  let e := min x.exponent y.exponent
  x.atExponent e < y.atExponent e

/-- Equality of the two numbers as real numbers; the two zeros are equal. -/
def same (x y : Dyadic64) : Bool :=
  let e := min x.exponent y.exponent
  x.atExponent e = y.atExponent e

/-- The number is a whole number. -/
def isWhole (x : Dyadic64) : Bool :=
  let (n, d) := x.ratio
  n % d = 0

/-- The whole part, without its sign. -/
def wholePart (x : Dyadic64) : Nat :=
  let (n, d) := x.ratio
  n / d

/-- The product, rounded. -/
def mul (x y : Dyadic64) : Binary64 :=
  ofRatio (x.negative != y.negative) (x.ratio.1 * y.ratio.1) (x.ratio.2 * y.ratio.2)

/-- The quotient by a number that is not zero, rounded. -/
def div (x y : Dyadic64) : Binary64 :=
  ofRatio (x.negative != y.negative) (x.ratio.1 * y.ratio.2) (x.ratio.2 * y.ratio.1)

end Dyadic64

namespace Binary64

/-- The number nearest to an integer. -/
def ofInt (n : Int) : Binary64 := Dyadic64.ofRatio (n < 0) n.natAbs 1

/-- The number nearest to a natural. -/
def ofNat (n : Nat) : Binary64 := Dyadic64.ofRatio false n 1

/-- The number nearest to `± digits · 10 ^ exponent`. Quotients far outside the range of the format
are not computed: they are infinite or zero whatever their digits. -/
def ofDecimal (negative : Bool) (digits : Nat) (exponent : Int) : Binary64 :=
  if digits = 0 then .finite (Dyadic64.zero negative)
  else
    let order := exponent + (Nat.toDigits 10 digits).length
    if 400 < order then .infinite negative
    else if order < -400 then .finite (Dyadic64.zero negative)
    else if exponent < 0 then Dyadic64.ofRatio negative digits (tenTo (-exponent).toNat)
    else Dyadic64.ofRatio negative (digits * tenTo exponent.toNat) 1

/-- The value is a finite number. -/
def isFinite : Binary64 → Bool
  | .finite _ => true
  | _ => false

/-- Strict order; nothing is ordered with the value that is no number. -/
def lt : Binary64 → Binary64 → Bool
  | .nan, _ => false
  | _, .nan => false
  | .finite x, .finite y => x.lt y
  | .infinite n, .infinite p => n && !p
  | .infinite n, .finite _ => n
  | .finite _, .infinite p => !p

/-- The value is a number that is greater than zero. -/
def isPositive : Binary64 → Bool
  | .finite x => !x.negative && 0 < x.significand
  | .infinite n => !n
  | .nan => false

/-! ## Reading decimal text -/

/-- Splits a text after its leading decimal digits. -/
def spanDigits (s : List Char) : List Char × List Char := s.span Char.isDigit

/-- The natural that a list of decimal digits denotes. -/
def digitsValue (s : List Char) : Nat :=
  s.foldl (fun n c => n * 10 + (c.toNat - '0'.toNat)) 0

/-- Reads the exponent that may follow a decimal: nothing, or a mark, a sign and digits. -/
def exponentOf? : List Char → Option Int
  | [] => some 0
  | c :: rest =>
    if c = 'e' ∨ c = 'E' then
      let (negative, digits) := match rest with
        | '+' :: ds => (false, ds)
        | '-' :: ds => (true, ds)
        | ds => (false, ds)
      if digits.isEmpty ∨ ¬ digits.all Char.isDigit then none
      else
        let e : Int := digitsValue digits
        some (if negative then -e else e)
    else none

/-- Reads an unsigned decimal: digits with an optional point and an optional exponent, at least one
digit standing before the exponent. -/
def unsignedOfText? (negative : Bool) (s : List Char) : Option Binary64 :=
  let (whole, rest) := spanDigits s
  let (fraction, rest) := match rest with
    | '.' :: r => spanDigits r
    | r => ([], r)
  if whole.isEmpty ∧ fraction.isEmpty then none
  else
    match exponentOf? rest with
    | none => none
    | some e => some (ofDecimal negative (digitsValue (whole ++ fraction)) (e - fraction.length))

/-- Reads a number: a sign, then a decimal or one of the words `inf`, `infinity` and `nan` in letters
of either case. -/
def ofText? (s : List Char) : Option Binary64 :=
  let (negative, body) := match s with
    | '-' :: r => (true, r)
    | '+' :: r => (false, r)
    | r => (false, r)
  let word := String.ofList (body.map Char.toLower)
  if word = "inf" ∨ word = "infinity" then some (.infinite negative)
  else if word = "nan" then some .nan
  else unsignedOfText? negative body

end Binary64

end ApiDescription
