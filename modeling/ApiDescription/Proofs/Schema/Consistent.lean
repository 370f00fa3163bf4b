import ApiDescription.Proofs.Number.Order
import ApiDescription.Proofs.Schema.Built

/-!
# Checked schemas are consistent

Limits are consistent when no lower one is above its upper one and the bounds of the values are finite and of
one sort each. A limit that fits keeps them so (`Constraints.Consistent.put`), and accepted refinements set no
other. Hence every node of a built schema that passes the check is consistent (`consistent_of_check`).
-/

set_option autoImplicit false

namespace ApiDescription

/-! ## Consistent limits -/

/-- When both counts are set, the first one is not above the second. -/
def Ordered (low high : Option UInt64) : Prop := ∀ a b, low = some a → high = some b → a ≤ b

/-- Of an inclusive and an exclusive bound only one is set, and it is finite. -/
structure OneBound (inclusive exclusive : Option Binary64) : Prop where
  one : inclusive = none ∨ exclusive = none
  finite : ∀ b, inclusive = some b ∨ exclusive = some b → ∃ q, b.rational? = some q

/-- The limits do not contradict each other. -/
structure Constraints.Consistent (c : Constraints) : Prop where
  length : Ordered c.minLength c.maxLength
  items : Ordered c.minItems c.maxItems
  properties : Ordered c.minProperties c.maxProperties
  lower : OneBound c.minimum c.exclusiveMinimum
  upper : OneBound c.maximum c.exclusiveMaximum
  values : ∀ low high, c.minimum = some low ∨ c.exclusiveMinimum = some low →
    c.maximum = some high ∨ c.exclusiveMaximum = some high → low.AtMost high
  factor : ∀ m, c.multipleOf = some m → ∃ q, m.rational? = some q ∧ 0 < q

namespace OneBound

theorem empty : OneBound none none := ⟨.inl rfl, by simp⟩

theorem inclusive {b : Binary64} (h : b.isFinite = true) : OneBound (some b) none where
  one := .inr rfl
  finite a ha := by
    have hab : b = a := by simpa using ha
    exact Binary64.exists_rational_of_isFinite (hab ▸ h)

theorem symm {inc exc : Option Binary64} (h : OneBound inc exc) : OneBound exc inc :=
  ⟨h.one.symm, fun b hb => h.finite b hb.symm⟩

/-- The one bound that is set is the first one that is found. -/
theorem or_eq {inc exc : Option Binary64} (h : OneBound inc exc) {b : Binary64}
    (hb : inc = some b ∨ exc = some b) : inc.or exc = some b := by
  obtain rfl | rfl := hb
  · rfl
  · obtain rfl | hnone := h.one
    · rfl
    · nomatch hnone

end OneBound

namespace Constraints

variable {c : Constraints}

theorem ordered_of_invertedCounts (h : c.invertedCounts = none) : Ordered c.minLength c.maxLength ∧
    Ordered c.minItems c.maxItems ∧ Ordered c.minProperties c.maxProperties := by
  rw [invertedCounts, List.findSome?_eq_none_iff] at h
  have ordered (pair : String × Option UInt64 × Option UInt64) (hpair : pair ∈ c.countPairs) :
      Ordered pair.2.1 pair.2.2 := by
    intro low high hlow hhigh
    have hnone := h pair hpair
    simp only [hlow, hhigh, ite_eq_right_iff, reduceCtorEq, imp_false, Nat.not_lt] at hnone
    exact UInt64.le_iff_toNat_le.2 hnone
  simpa [countPairs] using ordered

theorem values_of_invertedValues (hlower : OneBound c.minimum c.exclusiveMinimum)
    (hupper : OneBound c.maximum c.exclusiveMaximum) (h : c.invertedValues = none) (low high : Binary64)
    (hlow : c.minimum = some low ∨ c.exclusiveMinimum = some low)
    (hhigh : c.maximum = some high ∨ c.exclusiveMaximum = some high) : low.AtMost high := by
  obtain ⟨p, hp⟩ := hlower.finite low hlow
  obtain ⟨q, hq⟩ := hupper.finite high hhigh
  have hlt : high.lt low = false := by
    simpa [invertedValues, Constraints.lower, Constraints.upper, hlower.or_eq hlow, hupper.or_eq hhigh] using h
  exact ⟨p, q, hp, hq, (Binary64.lt_eq_false_iff hq hp).1 hlt⟩

theorem Consistent.empty : Consistent {} := by
  constructor <;> simp [Ordered, OneBound.empty]

/-- A limit that fits keeps the limits consistent. -/
theorem Consistent.put {l : Limit} (h : c.Consistent) (hl : l.Fits c) : (l.put c).Consistent := by
  cases l with
  | minLength n | maxLength n | minItems n | maxItems n | minProperties n | maxProperties n =>
    obtain ⟨hlength, hitems, hproperties⟩ := ordered_of_invertedCounts hl
    exact ⟨hlength, hitems, hproperties, h.lower, h.upper, h.values, h.factor⟩
  | minimum b =>
    obtain ⟨hfinite, hexclusive, hinverted⟩ := hl
    have hlower : OneBound (some b) c.exclusiveMinimum := hexclusive ▸ .inclusive hfinite
    exact { h with lower := hlower, values := values_of_invertedValues hlower h.upper hinverted }
  | exclusiveMinimum b =>
    obtain ⟨hfinite, hinclusive, hinverted⟩ := hl
    have hlower : OneBound c.minimum (some b) := hinclusive ▸ (OneBound.inclusive hfinite).symm
    exact { h with lower := hlower, values := values_of_invertedValues hlower h.upper hinverted }
  | maximum b =>
    obtain ⟨hfinite, hexclusive, hinverted⟩ := hl
    have hupper : OneBound (some b) c.exclusiveMaximum := hexclusive ▸ .inclusive hfinite
    exact { h with upper := hupper, values := values_of_invertedValues h.lower hupper hinverted }
  | exclusiveMaximum b =>
    obtain ⟨hfinite, hinclusive, hinverted⟩ := hl
    have hupper : OneBound c.maximum (some b) := hinclusive ▸ (OneBound.inclusive hfinite).symm
    exact { h with upper := hupper, values := values_of_invertedValues h.lower hupper hinverted }
  | multipleOf m =>
    obtain ⟨hfinite, hpositive⟩ := hl
    obtain ⟨q, hq⟩ := Binary64.exists_rational_of_isFinite hfinite
    have hfactor : ∀ m', some m = some m' → ∃ q, m'.rational? = some q ∧ 0 < q := by
      rintro _ ⟨⟩
      exact ⟨q, hq, Binary64.rational_pos hq hpositive⟩
    exact { h with factor := hfactor }
  | pattern | format | uniqueItems | additionalProperties => exact { h with }

end Constraints

/-! ## Consistent schemas -/

namespace Schema

/-- The schema says nothing that contradicts itself. -/
structure Consistent [PatternReader] (s : Schema) : Prop where
  constraints : s.constraints.Consistent
  enumeration : s.facets.enumeration ≠ some []
  filled : s.Filled
  /-- No keyword of a composition was ever given an empty list. -/
  composed : ∀ (s₀ : Schema) keyword rs, s ≠ (s₀.refine (.compose keyword [])).refineAll rs

theorem constraints_of_accepts {s t : Schema} {r : Refinement} (hs : s.constraints.Consistent)
    (h : Accepts s r t) : t.constraints.Consistent := by
  rw [h.constraints]
  cases hlimit : r.limit? s.kind with
  | none => exact hs
  | some l => exact hs.put (h.fits l hlimit)

theorem faults_compose_nil [PatternReader] (s : Schema) (keyword : ListKeyword) (rs : List Refinement) :
    ((s.refine (.compose keyword [])).refineAll rs).facets.faults ≠ [] := by
  intro hfaults
  have hcompose : (s.compose keyword []).facets.faults = [] := faultless_of_refineAll hfaults
  exact (accepts_compose_of_faultless hcompose).1 rfl

theorem Built.consistent [PatternReader] {s : Schema} (h : Built s) (hfaults : s.facets.faults = []) :
    s.Consistent := by
  obtain ⟨hconstraints, henumeration, hfilled⟩ :
      s.constraints.Consistent ∧ s.facets.enumeration ≠ some [] ∧ s.Filled := by
    refine Built.induct_accepted (P := fun s =>
      s.constraints.Consistent ∧ s.facets.enumeration ≠ some [] ∧ s.Filled) ?fresh ?accepted h hfaults
    case fresh =>
      intro s parts hfresh _ hfaults
      have hfacets : s.facets = {} := hfresh.facets_eq hfaults
      have hconstraints : s.constraints.Consistent := by
        rw [Schema.constraints, hfacets]
        exact .empty
      exact ⟨hconstraints, by simp [hfacets], hfresh.filled hfaults⟩
    case accepted =>
      rintro s r t - ⟨hconstraints, henumeration, hfilled⟩ haccepts
      exact ⟨constraints_of_accepts hconstraints haccepts, haccepts.enumeration henumeration,
        haccepts.filled hfilled⟩
  refine ⟨hconstraints, henumeration, hfilled, ?_⟩
  rintro s₀ keyword rs rfl
  exact faults_compose_nil s₀ keyword rs hfaults

/-- Every node of a built schema that passes the check is consistent. -/
theorem consistent_of_check [PatternReader] {s : Schema} (hs : Built s) (h : s.check = .ok ()) (place : List SchemaStep)
    (t : Schema) (ht : s.Node place t) : t.Consistent := by
  obtain ⟨hbuilt, hfaults⟩ := hs.of_node h ht
  exact hbuilt.consistent hfaults

attribute [local instance] PatternReader.lenient

/-- The check of an order with tags and a price: the tags, deep inside it, are consistent. -/
theorem consistent_of_check_order :
    let tag := string.refineAll
      [.max (.ofNat 8), .min (.ofNat 1), .pattern "^[a-z]+$", .typedFormat .string .uuid]
    let tags := (Schema.array {} tag).refineAll [.minItems (.ofNat 1), .max (.ofNat 3), .uniqueItems]
    let price := composed .oneOf [(Schema.primitive {} .string).refineAll
      [.retype .number, .min (.ofNat 0), .exclusiveMax (.ofNat 100), .multipleOf (.ofNat 5)]]
    let order := (ofProperties [("price", price)]).refine (.property "tags" tags)
    Built order ∧ order.check = .ok () ∧ order.Node [.property "tags", .items] tag ∧
      tag.constraints.minLength = some 1 ∧ tag.constraints.maxLength = some 8 ∧ tag.Consistent := by
  intro tag tags price order
  have htag : Built tag := (Built.primitive .string).refineAll_plain
    (by simp [Refinement.schemas, Refinement.Offered, typedFormats])
  have htags : Built tags := (Built.fresh (.array tag) (by simpa using htag)).refineAll_plain
    (by simp [Refinement.schemas, Refinement.Offered])
  have hprice : Built price := .fresh (.composition .oneOf _) (by
    simpa using (Built.primitive .string).refineAll_plain (by simp [Refinement.schemas, Refinement.Offered]))
  have horder : Built order := .refine (.fresh (.object _) (by simpa using hprice)) trivial
    (by simpa [Refinement.schemas] using htags)
  have hcheck : order.check = .ok () := by decide +kernel
  have hnode : order.Node [.property "tags", .items] tag :=
    .inside (c := tags) (.tail _ (.head _)) (.inside (c := tag) (.head _) (.root tag))
  exact ⟨horder, hcheck, hnode, by decide +kernel, by decide +kernel,
    consistent_of_check horder hcheck _ _ hnode⟩

end Schema

end ApiDescription
