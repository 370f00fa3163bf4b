import ApiDescription.Number.Binary64

/-!
# Shortest decimal text of binary numbers

`Dyadic64.shortest` finds the fewest decimal digits that read back as the number, and of those the
nearest to it. `FloatLayout` is how one kind of text lays such digits out, and there is one layout
for each text the library writes: `FloatLayout.json`, `FloatLayout.yaml` and
`FloatLayout.message`.
-/

set_option autoImplicit false

namespace ApiDescription

/-! ## The fewest digits that read back -/

/-- The open or closed interval of rationals that round to one number, and the number itself, all
over the common denominator `den`. -/
structure Neighbourhood where
  low : Nat
  value : Nat
  high : Nat
  den : Nat
  closed : Bool

namespace Neighbourhood

/-- The rational `n / 1` lies in the interval. -/
def contains (i : Neighbourhood) (n : Nat) : Bool :=
  let p := n * i.den
  if i.closed then i.low ≤ p && p ≤ i.high else i.low < p && p < i.high

/-- The interval in units of `10 ^ k`. -/
def inTens (i : Neighbourhood) (k : Int) : Neighbourhood :=
  if k < 0 then
    let f := tenTo (-k).toNat
    { i with low := i.low * f, value := i.value * f, high := i.high * f }
  else { i with den := i.den * tenTo k.toNat }

/-- The whole number nearest to the value among its two neighbours that lie in the interval; of two
equally near ones the even one. -/
def pick (i : Neighbourhood) : Option Nat :=
  let down := i.value / i.den
  let up := down + 1
  let r := i.value % i.den
  if i.contains down then
    if i.contains up && (i.den < 2 * r || (2 * r == i.den && down % 2 == 1)) then some up
    else some down
  else if i.contains up then some up
  else none

end Neighbourhood

namespace Dyadic64

/-- The interval of rationals that round to the magnitude of a number other than zero. Below a power
of two the neighbour is half as far; the ends belong to the interval when the significand is even. -/
def neighbourhood (x : Dyadic64) : Neighbourhood :=
  let m := x.significand
  let below := if m = twoTo 52 ∧ leastExponent < x.exponent then 1 else 2
  let e := x.exponent - 2
  let up := if e < 0 then 1 else twoTo e.toNat
  let den := if e < 0 then twoTo (-e).toNat else 1
  ⟨(4 * m - below) * up, 4 * m * up, (4 * m + 2) * up, den, m % 2 = 0⟩

/-- The number of decimal digits before the point, or minus the number of zeros right after it. -/
def pointPosition (x : Dyadic64) : Int :=
  let (n, d) := x.ratio
  if d ≤ n then ((Nat.toDigits 10 (n / d)).length : Int)
  else 1 - ((Nat.toDigits 10 (d / n)).length : Int)

/-- Divides trailing zeros out of `digits · 10 ^ exponent`. -/
def trimZeros (digits : Nat) (exponent : Int) : Nat × Int :=
  if digits ≠ 0 ∧ digits % 10 = 0 then trimZeros (digits / 10) (exponent + 1)
  else (digits, exponent)
termination_by digits
decreasing_by omega

/-- Searches the grids of `n`, `n + 1`, … digits for a point in the interval. -/
def searchGrids (i : Neighbourhood) (point : Int) : Nat → Nat → Nat × Int
  | n, 0 => ((i.inTens (point - n)).value / (i.inTens (point - n)).den, point - n)
  | n, fuel + 1 =>
    match (i.inTens (point - n)).pick with
    | some digits => trimZeros digits (point - n)
    | none => searchGrids i point (n + 1) fuel

/-- The digits and the decimal exponent of the shortest decimal that reads back as the magnitude. -/
def shortest (x : Dyadic64) : Nat × Int :=
  if x.significand = 0 then (0, 0) else searchGrids x.neighbourhood x.pointPosition 1 17

end Dyadic64

/-! ## Laying digits out -/

/-- How the digits of a number are laid out as text. -/
structure FloatLayout where
  /-- The least and the greatest point position that are written without an exponent. -/
  positional : Option (Int × Int)
  /-- Whether a whole number keeps the digit zero behind its point. -/
  keepsPointZero : Bool
  /-- Whether a positive exponent has a sign. -/
  signsExponent : Bool

namespace FloatLayout

/-- JSON text: from `0.00001` up to sixteen digits positional, else an exponent with its sign. -/
def json : FloatLayout := ⟨some (-4, 16), true, true⟩

/-- YAML text: as JSON text, without the sign of a positive exponent. -/
def yaml : FloatLayout := ⟨some (-4, 16), true, false⟩

/-- Text inside messages: always positional, and no point after a whole number. -/
def message : FloatLayout := ⟨none, false, false⟩

/-- Digits around a point that stands `point` digits after their beginning. -/
def positionalText (l : FloatLayout) (digits : String) (point : Int) : String :=
  let n : Int := digits.length
  if point ≤ 0 then "0." ++ String.ofList (List.replicate (-point).toNat '0') ++ digits
  else if n ≤ point then
    digits ++ String.ofList (List.replicate (point - n).toNat '0') ++
      (if l.keepsPointZero then ".0" else "")
  else (digits.take point.toNat).toString ++ "." ++ (digits.drop point.toNat).toString

/-- One digit, the others behind a point, and the exponent of the first. -/
def exponentText (l : FloatLayout) (digits : String) (point : Int) : String :=
  let e := point - 1
  let fraction := (digits.drop 1).toString
  (digits.take 1).toString ++ (if fraction.isEmpty then "" else "." ++ fraction) ++ "e" ++
    (if l.signsExponent && 0 ≤ e then "+" else "") ++ toString e

/-- The text of a finite number. -/
def text (l : FloatLayout) (x : Dyadic64) : String :=
  let (digits, exponent) := x.shortest
  let digits' := toString digits
  let point := exponent + digits'.length
  let isPositional := match l.positional with
    | none => true
    | some (least, greatest) => least ≤ point && point ≤ greatest
  (if x.negative then "-" else "") ++
    (if isPositional then l.positionalText digits' point else l.exponentText digits' point)

end FloatLayout

/-- The text of a number inside a message. -/
def Binary64.messageText : Binary64 → String
  | .nan => "NaN"
  | .infinite negative => if negative then "-inf" else "inf"
  | .finite x => FloatLayout.message.text x

end ApiDescription
