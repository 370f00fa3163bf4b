import ApiDescription.Proofs.Number.Order
import ApiDescription.Schema.Refine
import Mathlib.Data.Nat.Cast.Field
import Mathlib.Data.Nat.Cast.Order.Ring
import Mathlib.Tactic.NormNum.Pow

/-!
# Exact conversions

A bound becomes the number of a document or a count. The number is exactly the bound
(`Binary64.rational?_eq_toNumber?`); the count is the bound cut at 64 bits (`Binary64.count_of_toCount?`).
-/

set_option autoImplicit false

namespace ApiDescription

/-- The rational number that a number of a document stands for. -/
def Number.value : Number → ℚ
  | .integer n => n
  | .real x => x.value

namespace Dyadic64

theorem magnitude_eq (x : Dyadic64) :
    (x.significand : ℚ) * 2 ^ x.exponent = (x.ratio.1 : ℚ) / x.ratio.2 := by
  unfold ratio
  split
  · next h =>
    obtain ⟨n, hn⟩ : ∃ n : Nat, x.exponent = -(n : Int) := ⟨(-x.exponent).toNat, by omega⟩
    rw [hn]
    simp [twoTo, zpow_neg, div_eq_mul_inv]
  · next h =>
    obtain ⟨n, hn⟩ : ∃ n : Nat, x.exponent = n := ⟨x.exponent.toNat, by omega⟩
    rw [hn]
    simp [twoTo]

theorem value_eq_magnitude (x : Dyadic64) : x.value =
    if x.negative then -((x.significand : ℚ) * 2 ^ x.exponent) else (x.significand : ℚ) * 2 ^ x.exponent := by
  unfold value mantissa
  split <;> simp

/-- A whole number is its whole part with its sign. -/
theorem value_of_isWhole {x : Dyadic64} (h : x.isWhole = true) :
    x.value = if x.negative then -(x.wholePart : ℚ) else (x.wholePart : ℚ) := by
  have hdvd : x.ratio.2 ∣ x.ratio.1 := Nat.dvd_of_mod_eq_zero (by simpa [isWhole] using h)
  have hmagnitude : (x.significand : ℚ) * 2 ^ x.exponent = x.wholePart := by
    rw [magnitude_eq, wholePart, Nat.cast_div_charZero hdvd]
  rw [value_eq_magnitude, hmagnitude]

theorem value_of_significand_eq_zero {x : Dyadic64} (h : x.significand = 0) : x.value = 0 := by
  rw [value_eq_magnitude, h]
  simp

end Dyadic64

namespace Binary64

theorem isFinite_of_rational {b : Binary64} {q : ℚ} (hq : b.rational? = some q) : b.isFinite = true := by
  cases b with
  | finite x => rfl
  | _ => nomatch hq

theorem isPositive_of_rational_pos {b : Binary64} {q : ℚ} (hq : b.rational? = some q) (hpos : 0 < q) :
    b.isPositive = true := by
  cases b with
  | nan | infinite => nomatch hq
  | finite x =>
    have hvalue : 0 < x.value := Option.some_inj.1 hq ▸ hpos
    rw [Dyadic64.value_eq_magnitude] at hvalue
    have hmagnitude : (0 : ℚ) ≤ x.significand * 2 ^ x.exponent := by positivity
    have hnegative : x.negative = false := by
      rw [← Bool.not_eq_true]
      intro h
      rw [if_pos h] at hvalue
      exact absurd hvalue (not_lt.2 (neg_nonpos.2 hmagnitude))
    have hsignificand : x.significand ≠ 0 := by
      intro h
      simp [h] at hvalue
    simp [isPositive, hnegative, Nat.pos_of_ne_zero hsignificand]

/-- The number that a document gives for a bound is the bound, and there is one for every finite bound. -/
theorem rational?_eq_toNumber? (b : Binary64) : b.rational? = b.toNumber?.map Number.value := by
  cases b with
  | nan | infinite => rfl
  | finite x =>
    unfold rational? toNumber?
    dsimp only
    split
    · next h =>
      obtain ⟨hwhole, -⟩ := Bool.and_eq_true_iff.1 h
      rw [Option.map_some, Number.value, Dyadic64.value_of_isWhole hwhole]
      split <;> simp
    · rfl

/-- The count that a bound stands for is the bound, or the greatest count when the bound is above it. -/
theorem count_of_toCount? {b : Binary64} {n : UInt64} (h : b.toCount? = some n) :
    ∃ q, b.rational? = some q ∧ (n.toNat : ℚ) = min q (2 ^ 64 - 1) := by
  cases b with
  | nan | infinite => nomatch h
  | finite x =>
    unfold toCount? at h
    dsimp only at h
    split at h
    · next hx =>
      obtain ⟨hsign, hwhole⟩ := Bool.and_eq_true_iff.1 hx
      have hvalue : x.value = x.wholePart := by
        rw [Dyadic64.value_of_isWhole hwhole]
        split
        · next hnegative =>
          have hzero : x.significand = 0 := by simpa [hnegative] using hsign
          have hwholePart := Dyadic64.value_of_isWhole hwhole
          rw [if_pos hnegative, Dyadic64.value_of_significand_eq_zero hzero] at hwholePart
          rw [← hwholePart, neg_eq_zero.1 hwholePart.symm]
        · rfl
      refine ⟨x.value, rfl, ?_⟩
      cases h
      have hlt : Nat.min x.wholePart (twoTo 64 - 1) < 2 ^ 64 :=
        Nat.lt_of_le_of_lt (Nat.min_le_right _ _) (by decide)
      have hcast : ((twoTo 64 - 1 : Nat) : ℚ) = 2 ^ 64 - 1 := by norm_num [twoTo]
      rw [UInt64.toNat_ofNat', Nat.mod_eq_of_lt hlt, hvalue, ← hcast]
      exact Nat.cast_min _ _
    · nomatch h

end Binary64

end ApiDescription
