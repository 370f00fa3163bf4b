import ApiDescription.Number.Binary64
import Mathlib.Algebra.Order.Field.Power
import Mathlib.Algebra.Order.Field.Rat
import Mathlib.Tactic.Positivity

/-!
# The order of binary floating-point numbers

The comparisons of numbers bring both to the smaller of two exponents. That is the order and the equality of
the rational numbers that they stand for (`Dyadic64.lt_iff`, `Dyadic64.same_iff_value`).
-/

set_option autoImplicit false

namespace ApiDescription

namespace Dyadic64

/-- The rational number that a finite number stands for. -/
def value (x : Dyadic64) : ℚ := x.mantissa * 2 ^ x.exponent

theorem value_eq (x : Dyadic64) {e : Int} (h : e ≤ x.exponent) : x.value = x.atExponent e * 2 ^ e := by
  have hexponent : x.exponent = ((x.exponent - e).toNat : Int) + e := by omega
  have hpower : (2 : ℚ) ^ x.exponent = 2 ^ (x.exponent - e).toNat * 2 ^ e := by
    rw [← zpow_natCast, ← zpow_add₀ two_ne_zero, ← hexponent]
  simp only [value, atExponent, hpower, twoTo, Nat.pow_eq]
  push_cast
  rw [mul_assoc]

/-- The order of the numbers is the order of what they stand for. -/
theorem lt_iff (x y : Dyadic64) : x.lt y = true ↔ x.value < y.value := by
  have hpower : (0 : ℚ) < 2 ^ min x.exponent y.exponent := by positivity
  rw [lt, decide_eq_true_eq, x.value_eq (min_le_left _ y.exponent), y.value_eq (min_le_right x.exponent _),
    mul_lt_mul_iff_left₀ hpower, Int.cast_lt]

theorem same_iff_value (x y : Dyadic64) : x.same y = true ↔ x.value = y.value := by
  have hpower : (2 : ℚ) ^ min x.exponent y.exponent ≠ 0 := by positivity
  rw [same, decide_eq_true_eq, x.value_eq (min_le_left _ y.exponent), y.value_eq (min_le_right x.exponent _),
    mul_left_inj' hpower, Int.cast_inj]

theorem value_pos {x : Dyadic64} (hsign : x.negative = false) (h : 0 < x.significand) : 0 < x.value := by
  have hmantissa : x.mantissa = x.significand := by simp [mantissa, hsign]
  rw [value, hmantissa]
  positivity

end Dyadic64

namespace Binary64

/-- The rational number that a number stands for, if it is finite. -/
def rational? : Binary64 → Option ℚ
  | .finite x => some x.value
  | _ => none

theorem exists_rational_of_isFinite {b : Binary64} (h : b.isFinite = true) : ∃ q, b.rational? = some q := by
  cases b with
  | finite x => exact ⟨_, rfl⟩
  | _ => nomatch h

/-- Both numbers are finite, and the first one is not above the second. -/
def AtMost (a b : Binary64) : Prop := ∃ p q, a.rational? = some p ∧ b.rational? = some q ∧ p ≤ q

theorem rational_pos {b : Binary64} {q : ℚ} (hq : b.rational? = some q) (h : b.isPositive = true) : 0 < q := by
  cases b with
  | finite x =>
    obtain ⟨hsign, hpos⟩ : x.negative = false ∧ 0 < x.significand := by simpa [isPositive] using h
    exact Option.some_inj.1 hq ▸ Dyadic64.value_pos hsign hpos
  | _ => nomatch hq

theorem lt_eq_false_iff {a b : Binary64} {p q : ℚ} (ha : a.rational? = some p) (hb : b.rational? = some q) :
    a.lt b = false ↔ q ≤ p := by
  cases a with
  | finite x =>
    cases b with
    | finite y =>
      cases ha
      cases hb
      rw [lt, ← Bool.not_eq_true, Dyadic64.lt_iff, not_lt]
    | _ => nomatch hb
  | _ => nomatch ha

end Binary64

end ApiDescription
