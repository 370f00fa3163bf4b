import ApiDescription.Proofs.Number.Exact
import ApiDescription.Proofs.Schema.Consistent
import ApiDescription.Proofs.Schema.Placement
import ApiDescription.Proofs.Schema.Written

/-!
# Bounds as given and as written

Of the bounds given under a keyword the last one is set (`bounded_refineAll`), and it is written as the number that it
is (`gives_of_madeBy`). Counts have 64 bits, so a count above them is written as the greatest one, and two of them
are not told apart any more; no other pair of bounds passes the check in the wrong order (`bounds_of_check`).
-/

set_option autoImplicit false

namespace ApiDescription

/-! ## Keywords that take a number -/

namespace LimitKeyword

/-- The keyword takes a count. -/
def isCount : LimitKeyword → Bool
  | .minLength | .maxLength | .minItems | .maxItems | .minProperties | .maxProperties => true
  | _ => false

/-- The keyword takes a number. -/
def isBound : LimitKeyword → Bool
  | .pattern | .format | .uniqueItems | .additionalProperties => false
  | _ => true

/-- The limit that a bound sets under the keyword. -/
def bounded? (k : LimitKeyword) (b : Binary64) : Option Limit :=
  match k with
  | .minLength => b.toCount?.map .minLength
  | .maxLength => b.toCount?.map .maxLength
  | .minItems => b.toCount?.map .minItems
  | .maxItems => b.toCount?.map .maxItems
  | .minProperties => b.toCount?.map .minProperties
  | .maxProperties => b.toCount?.map .maxProperties
  | .minimum => some (.minimum b)
  | .maximum => some (.maximum b)
  | .exclusiveMinimum => some (.exclusiveMinimum b)
  | .exclusiveMaximum => some (.exclusiveMaximum b)
  | .multipleOf => some (.multipleOf b)
  | .pattern | .format | .uniqueItems | .additionalProperties => none

/-- The number that is written for a bound under the keyword: a count is cut at 64 bits. -/
def cut (k : LimitKeyword) (q : ℚ) : ℚ := if k.isCount then min q (2 ^ 64 - 1) else q

/-- The keywords of bounds that must be in order. -/
def pairs : List (LimitKeyword × LimitKeyword) :=
  [(.minLength, .maxLength), (.minItems, .maxItems), (.minProperties, .maxProperties), (.minimum, .maximum),
    (.minimum, .exclusiveMaximum), (.exclusiveMinimum, .maximum), (.exclusiveMinimum, .exclusiveMaximum)]

end LimitKeyword

/-- The keyword that a refinement with a bound sets on schemas of the kind, and the bound. -/
def Refinement.bound? (k : SchemaKind) : Refinement → Option (LimitKeyword × Binary64)
  | .min b =>
    match k with
    | .primitive .string => some (.minLength, b)
    | .primitive .number | .primitive .integer => some (.minimum, b)
    | .array => some (.minItems, b)
    | .object => some (.minProperties, b)
    | _ => none
  | .max b =>
    match k with
    | .primitive .string => some (.maxLength, b)
    | .primitive .number | .primitive .integer => some (.maximum, b)
    | .array => some (.maxItems, b)
    | .object => some (.maxProperties, b)
    | _ => none
  | .exclusiveMin b => some (.exclusiveMinimum, b)
  | .exclusiveMax b => some (.exclusiveMaximum, b)
  | .multipleOf b => some (.multipleOf, b)
  | .minItems b => some (.minItems, b)
  | .maxItems b => some (.maxItems, b)
  | .minProperties b => some (.minProperties, b)
  | .maxProperties b => some (.maxProperties, b)
  | _ => none

/-- The bound that a refinement gives under a keyword. -/
def Refinement.boundUnder? (key : LimitKeyword) (k : SchemaKind) (r : Refinement) : Option Binary64 :=
  ((r.bound? k).filter fun bound => bound.1 = key).map Prod.snd

/-- The written schema gives a bound under a keyword, or nothing where there is none. -/
def Json.Gives (j : Json) (k : LimitKeyword) : Option Binary64 → Prop
  | none => j.get? k.name = none
  | some b => ∃ n q, j.get? k.name = some (.number n) ∧ b.rational? = some q ∧ n.value = k.cut q

namespace Refinement

variable {r : Refinement} {kind : SchemaKind} {k : LimitKeyword} {b : Binary64}

theorem boundUnder?_eq_some_iff : r.boundUnder? k kind = some b ↔ r.bound? kind = some (k, b) := by
  rw [boundUnder?, Option.map_eq_some_iff]
  constructor
  · rintro ⟨⟨key, b⟩, h, rfl⟩
    obtain ⟨hbound, hkey⟩ := Option.filter_eq_some_iff.1 h
    obtain rfl : key = k := of_decide_eq_true hkey
    exact hbound
  · intro h
    exact ⟨(k, b), Option.filter_eq_some_iff.2 ⟨h, decide_eq_true rfl⟩, rfl⟩

theorem limit?_of_bound? (h : r.bound? kind = some (k, b)) : r.limit? kind = k.bounded? b := by
  cases r with
  | min bound | max bound =>
    cases kind with
    | primitive t => cases t <;> cases h <;> rfl
    | _ => cases h <;> rfl
  | exclusiveMin | exclusiveMax | multipleOf | minItems | maxItems | minProperties | maxProperties =>
    cases h
    rfl
  | _ => nomatch h

/-- Limits that take a number are set by bounds alone. -/
theorem keyword_of_bound?_eq_none (h : r.bound? kind = none) {l : Limit} (hl : r.limit? kind = some l) :
    l.keyword.isBound = false := by
  cases r with
  | min bound | max bound =>
    cases kind with
    | primitive t => cases t <;> simp [bound?, limit?] at h hl
    | _ => simp [bound?, limit?] at h hl
  | formatTag tag =>
    obtain ⟨f, -, rfl⟩ := Option.map_eq_some_iff.1 hl
    rfl
  | pattern | format | typedFormat | uniqueItems | additionalProperties =>
    cases hl
    rfl
  | _ => simp [bound?, limit?] at h hl

theorem isPlain_of_bound? (h : r.bound? kind = some (k, b)) : r.isPlain = true := by
  cases r with
  | examples | compose | negate | retype | typedFormat | property => nomatch h
  | _ => rfl

theorem attribute?_of_bound? [PatternReader] (h : r.bound? kind = some (k, b)) :
    r.attribute? kind = (r.soundLimit? kind).map .limit := by
  cases r with
  | min | max | exclusiveMin | exclusiveMax | multipleOf | minItems | maxItems | minProperties | maxProperties => rfl
  | _ => nomatch h

end Refinement

/-! ## Bounds as limits -/

section Limits

variable {k low high : LimitKeyword} {a b : Binary64} {l l' : Limit} {p q : ℚ} {c : Constraints}

theorem LimitKeyword.keyword_of_bounded? (h : k.bounded? b = some l) : l.keyword = k := by
  cases k with
  | minLength | maxLength | minItems | maxItems | minProperties | maxProperties =>
    obtain ⟨n, -, rfl⟩ := Option.map_eq_some_iff.1 h
    rfl
  | minimum | maximum | exclusiveMinimum | exclusiveMaximum | multipleOf =>
    cases h
    rfl
  | _ => nomatch h

/-- Counts alone are cut, and only those above 64 bits. -/
theorem LimitKeyword.cut_eq_self_iff : k.cut q = q ↔ ¬ (k.isCount = true ∧ 2 ^ 64 - 1 < q) := by
  unfold LimitKeyword.cut
  split
  · next h => rw [min_eq_left_iff, h, eq_self, true_and, not_lt]
  · next h => simp [h]

/-- A bound that fits is finite. -/
theorem LimitKeyword.rational?_of_fits (hl : k.bounded? b = some l) (hfits : l.Fits c) :
    ∃ q, b.rational? = some q := by
  cases k with
  | minLength | maxLength | minItems | maxItems | minProperties | maxProperties =>
    obtain ⟨n, hn, -⟩ := Option.map_eq_some_iff.1 hl
    obtain ⟨q, hq, -⟩ := Binary64.count_of_toCount? hn
    exact ⟨q, hq⟩
  | minimum | maximum | exclusiveMinimum | exclusiveMaximum | multipleOf =>
    cases hl
    exact Binary64.exists_rational_of_isFinite hfits.1
  | _ => nomatch hl

/-- The number that is written for a bound that is set. -/
theorem LimitKeyword.json?_of_bounded? (hl : k.bounded? b = some l) (hq : b.rational? = some q) :
    ∃ n, l.json? = some (.number n) ∧ n.value = k.cut q := by
  cases k with
  | minLength | maxLength | minItems | maxItems | minProperties | maxProperties =>
    obtain ⟨n, hn, rfl⟩ := Option.map_eq_some_iff.1 hl
    obtain ⟨q', hq', hcut⟩ := Binary64.count_of_toCount? hn
    cases hq.symm.trans hq'
    exact ⟨.integer n.toNat, rfl, (Int.cast_natCast n.toNat).trans hcut⟩
  | minimum | maximum | exclusiveMinimum | exclusiveMaximum | multipleOf =>
    cases hl
    obtain ⟨n, hn, hvalue⟩ := Option.map_eq_some_iff.1 ((Binary64.rational?_eq_toNumber? b).symm.trans hq)
    exact ⟨n, congrArg (Option.map Json.number) hn, hvalue⟩
  | _ => nomatch hl

/-- Counts that are set in order are so as they are written. -/
theorem Ordered.min_le_min {f g : UInt64 → Limit} (hf : Function.Injective f) (hg : Function.Injective g)
    {x y : Option UInt64} (h : Ordered x y) (hx : x.map f = a.toCount?.map f) (hy : y.map g = b.toCount?.map g)
    (hl : a.toCount?.map f = some l) (hl' : b.toCount?.map g = some l') (hp : a.rational? = some p)
    (hq : b.rational? = some q) : min p (2 ^ 64 - 1) ≤ min q (2 ^ 64 - 1) := by
  obtain ⟨n, hn, -⟩ := Option.map_eq_some_iff.1 hl
  obtain ⟨m, hm, -⟩ := Option.map_eq_some_iff.1 hl'
  have hle : n ≤ m := h n m ((Option.map_injective hf hx).trans hn) ((Option.map_injective hg hy).trans hm)
  obtain ⟨p', hp', hpn⟩ := Binary64.count_of_toCount? hn
  obtain ⟨q', hq', hqm⟩ := Binary64.count_of_toCount? hm
  cases hp.symm.trans hp'
  cases hq.symm.trans hq'
  rw [← hpn, ← hqm, Nat.cast_le]
  exact UInt64.le_iff_toNat_le.1 hle

theorem Binary64.AtMost.le (h : a.AtMost b) (hp : a.rational? = some p) (hq : b.rational? = some q) : p ≤ q := by
  obtain ⟨p', q', hp', hq', hle⟩ := h
  cases hp.symm.trans hp'
  cases hq.symm.trans hq'
  exact hle

/-- Bounds that are set are in order as they are written. -/
theorem Constraints.Consistent.cut_le_cut (hc : c.Consistent) (hpair : (low, high) ∈ LimitKeyword.pairs)
    (hlow : c.limit? low = some l) (hhigh : c.limit? high = some l') (hl : low.bounded? a = some l)
    (hl' : high.bounded? b = some l') (hp : a.rational? = some p) (hq : b.rational? = some q) :
    low.cut p ≤ high.cut q := by
  have hx := hlow.trans hl.symm
  have hy := hhigh.trans hl'.symm
  simp only [LimitKeyword.pairs, List.mem_cons, Prod.mk.injEq, List.not_mem_nil, or_false] at hpair
  obtain ⟨rfl, rfl⟩ | ⟨rfl, rfl⟩ | ⟨rfl, rfl⟩ | ⟨rfl, rfl⟩ | ⟨rfl, rfl⟩ | ⟨rfl, rfl⟩ | ⟨rfl, rfl⟩ := hpair
  · exact hc.length.min_le_min (fun _ _ => Limit.minLength.inj) (fun _ _ => Limit.maxLength.inj) hx hy hl hl' hp hq
  · exact hc.items.min_le_min (fun _ _ => Limit.minItems.inj) (fun _ _ => Limit.maxItems.inj) hx hy hl hl' hp hq
  · exact hc.properties.min_le_min (fun _ _ => Limit.minProperties.inj) (fun _ _ => Limit.maxProperties.inj)
      hx hy hl hl' hp hq
  all_goals
    cases hl
    cases hl'
    obtain ⟨_, ha, heq⟩ := Option.map_eq_some_iff.1 hlow
    cases heq
    obtain ⟨_, hb, heq⟩ := Option.map_eq_some_iff.1 hhigh
    cases heq
    exact (hc.values a b (by simp [ha]) (by simp [hb])).le hp hq

end Limits

/-! ## Runs of bounds -/

namespace Schema

variable {s t : Schema} {r : Refinement} {rs : List Refinement} {k : LimitKeyword} {b : Binary64}

/-- The second schema has the bound under the keyword, or what the first one has there when there is no bound. -/
def Bounded (k : LimitKeyword) (s t : Schema) : Option Binary64 → Prop
  | some b => ∃ l q, k.bounded? b = some l ∧ b.rational? = some q ∧ t.constraints.limit? k = some l
  | none => t.constraints.limit? k = s.constraints.limit? k

/-- A later bound takes the place of an earlier one. -/
theorem Bounded.trans {u : Schema} {o o' : Option Binary64} (h : Bounded k s t o) (h' : Bounded k t u o') :
    Bounded k s u (o'.or o) := by
  cases o' with
  | some b => exact h'
  | none =>
    have hkept : u.constraints.limit? k = t.constraints.limit? k := h'
    cases o with
    | none => exact hkept.trans h
    | some b =>
      obtain ⟨l, q, hl, hq, hset⟩ := h
      exact ⟨l, q, hl, hq, hkept.trans hset⟩

theorem suits_reference (l : Limit) : l.suits .reference = false := by
  cases l <;> rfl

section Runs

variable [PatternReader]

/-- The last bound that refinements give under a keyword. -/
def lastBound? (k : LimitKeyword) : Schema → List Refinement → Option Binary64
  | _, [] => none
  | s, r :: rs => (lastBound? k (s.refine r) rs).or (r.boundUnder? k s.kind)

/-- An accepted refinement with a bound sets the limit that the bound stands for, and nothing else. -/
theorem refine_of_bound? (hb : r.bound? s.kind = some (k, b)) (h : (s.refine r).facets.faults = []) :
    ∃ l q, k.bounded? b = some l ∧ b.rational? = some q ∧ l.suits s.kind = true ∧
      s.refine r = s.mapConstraints l.put := by
  obtain ⟨-, a, ha, hfits, heq⟩ := attribute_of_faultless (Refinement.isPlain_of_bound? hb) h
  rw [Refinement.attribute?_of_bound? hb] at ha
  obtain ⟨l, hl, rfl⟩ := Option.map_eq_some_iff.1 ha
  obtain ⟨hlimit, hsound⟩ := Option.filter_eq_some_iff.1 hl
  have hbounded : k.bounded? b = some l := (Refinement.limit?_of_bound? hb).symm.trans hlimit
  obtain ⟨q, hq⟩ := LimitKeyword.rational?_of_fits hbounded hfits
  exact ⟨l, q, hbounded, hq, (Bool.and_eq_true_iff.1 hsound).1, heq⟩

/-- An accepted refinement without a bound leaves the bounds as they are. -/
theorem limit?_refine_of_no_bound (hb : r.bound? s.kind = none) (hk : k.isBound = true)
    (h : (s.refine r).facets.faults = []) : (s.refine r).constraints.limit? k = s.constraints.limit? k := by
  obtain ⟨-, haccepts⟩ := accepts_of_faultless h
  rw [haccepts.constraints]
  cases hl : r.limit? s.kind with
  | none => rfl
  | some l =>
    have hne : l.keyword ≠ k := by
      rintro rfl
      exact absurd (hk.symm.trans (Refinement.keyword_of_bound?_eq_none hb hl)) (Bool.false_ne_true ·.symm)
    rw [Option.map_some, Option.getD_some, Constraints.limit?_put, if_neg hne]

theorem bounded_refine (hk : k.isBound = true) (h : (s.refine r).facets.faults = []) :
    Bounded k s (s.refine r) (r.boundUnder? k s.kind) := by
  cases hb : r.bound? s.kind with
  | none =>
    rw [Refinement.boundUnder?, hb]
    exact limit?_refine_of_no_bound hb hk h
  | some bound =>
    obtain ⟨key, b⟩ := bound
    obtain ⟨l, q, hl, hq, -, heq⟩ := refine_of_bound? hb h
    have hset : (s.refine r).constraints.limit? k = if key = k then some l else s.constraints.limit? k := by
      rw [heq, constraints_mapConstraints, Constraints.limit?_put, LimitKeyword.keyword_of_bounded? hl]
    by_cases hkey : key = k
    · subst hkey
      rw [Refinement.boundUnder?_eq_some_iff.2 hb]
      exact ⟨l, q, hl, hq, hset.trans (if_pos rfl)⟩
    · have hnone : r.boundUnder? k s.kind = none := by
        rw [Refinement.boundUnder?, hb, Option.filter_some, if_neg (by simpa using hkey)]
        rfl
      rw [hnone]
      exact hset.trans (if_neg hkey)

/-- Of the bounds given under a keyword the last one is set. -/
theorem bounded_refineAll (hk : k.isBound = true) (h : (s.refineAll rs).facets.faults = []) :
    Bounded k s (s.refineAll rs) (s.lastBound? k rs) := by
  induction rs generalizing s with
  | nil => rfl
  | cons r rs ih =>
    have hfirst : (s.refine r).facets.faults = [] := faultless_of_refineAll h
    exact (bounded_refine hk hfirst).trans (ih h)

/-! ## Bounds as they are written -/

/-- However a schema was made, its limits show under their keywords: a reference has none. -/
theorem get?_limit_of_madeBy {s₀ : Schema} (hmade : MadeBy s₀ rs t) (h : t.facets.faults = [])
    (k : LimitKeyword) : t.toJson.get? k.name = (t.constraints.limit? k).bind Limit.json? := by
  by_cases hkind : t.kind = .reference
  · have hplaced : t.Placed := placed_of_kept hmade h (.inr fun b hb => nomatch hkind.symm.trans hb)
    have hnone : t.constraints.limit? k = none := by
      refine Option.eq_none_iff_forall_ne_some.2 fun l hl => ?_
      have hsuits : l.suits t.kind = true := hplaced k l hl
      rw [hkind, suits_reference] at hsuits
      nomatch hsuits
    have hname : "$ref" ≠ k.name := by cases k <;> decide
    rw [get?_toJson_reference hkind hname, hnone, Option.bind_none]
  · exact get?_limit hkind k

/-- The last bound that was given under a keyword is the one that is written. -/
theorem gives_of_madeBy {s₀ : Schema} (hmade : MadeBy s₀ rs t) (h : t.facets.faults = [])
    (hk : k.isBound = true) : t.toJson.Gives k (s₀.lastBound? k rs) := by
  obtain ⟨⟨parts, hfresh⟩, -, rfl⟩ := id hmade
  have hbounded := bounded_refineAll hk h
  cases hlast : s₀.lastBound? k rs with
  | none =>
    have hkept : (s₀.refineAll rs).constraints.limit? k = s₀.constraints.limit? k := by
      rwa [hlast] at hbounded
    have hempty : s₀.constraints = {} := by rw [constraints, hfresh.facets_eq (faultless_of_refineAll h)]
    rw [Json.Gives, get?_limit_of_madeBy hmade h, hkept, hempty, Constraints.limit?_empty, Option.bind_none]
  | some b =>
    rw [hlast] at hbounded
    obtain ⟨l, q, hl, hq, hset⟩ := hbounded
    obtain ⟨n, hn, hvalue⟩ := LimitKeyword.json?_of_bounded? hl hq
    exact ⟨n, q, by rw [get?_limit_of_madeBy hmade h, hset, Option.bind_some, hn], hq, hvalue⟩

/-- Two last bounds that belong together are in order, unless they are counts above all that can be written. -/
theorem ordered_of_lastBound? {low high : LimitKeyword} {a b : Binary64} {p q : ℚ}
    (h : (s.refineAll rs).facets.faults = []) (hc : (s.refineAll rs).constraints.Consistent)
    (hpair : (low, high) ∈ LimitKeyword.pairs) (ha : s.lastBound? low rs = some a)
    (hb : s.lastBound? high rs = some b) (hp : a.rational? = some p) (hq : b.rational? = some q) :
    p ≤ q ∨ low.isCount = true ∧ 2 ^ 64 - 1 ≤ q := by
  obtain ⟨hlow, hhigh, hsame⟩ : low.isBound = true ∧ high.isBound = true ∧ high.isCount = low.isCount := by
    have hpairs : ∀ pair ∈ LimitKeyword.pairs, pair.1.isBound = true ∧ pair.2.isBound = true ∧
        pair.2.isCount = pair.1.isCount := by decide
    exact hpairs _ hpair
  have hfirst := bounded_refineAll hlow h
  have hsecond := bounded_refineAll hhigh h
  rw [ha] at hfirst
  rw [hb] at hsecond
  obtain ⟨l, -, hl, -, hset⟩ := hfirst
  obtain ⟨l', -, hl', -, hset'⟩ := hsecond
  have hle := hc.cut_le_cut hpair hset hset' hl hl' hp hq
  rw [LimitKeyword.cut, LimitKeyword.cut, hsame] at hle
  cases hcount : low.isCount with
  | false => exact .inl (by simpa [hcount] using hle)
  | true =>
    rw [hcount, if_pos rfl, if_pos rfl] at hle
    obtain hpq | hmax := min_le_iff.1 (hle.trans (min_le_left q _))
    · exact .inl hpq
    · exact .inr ⟨rfl, hmax⟩

/-- The schema that the refinements make is written with the last bound that they give under each keyword, and the
bounds are in order but for counts above all that can be written. -/
structure ShowsBounds (s : Schema) (rs : List Refinement) (t : Schema) : Prop where
  gives : ∀ k : LimitKeyword, k.isBound = true → t.toJson.Gives k (s.lastBound? k rs)
  ordered : ∀ low high, (low, high) ∈ LimitKeyword.pairs → ∀ a b p q, s.lastBound? low rs = some a →
    s.lastBound? high rs = some b → a.rational? = some p → b.rational? = some q →
      p ≤ q ∨ low.isCount = true ∧ 2 ^ 64 - 1 ≤ q

/-- However a node of a checked schema was made, it is written with the last bound that was given under each keyword,
cut at 64 bits if it is a count, and no bounds are in the wrong order but counts that are cut. -/
theorem bounds_of_check (hs : Built s) (h : s.check = .ok ()) {place : List SchemaStep} (ht : s.Node place t) :
    s.toJson.schemaAt? place = some t.toJson ∧ (∃ s₀ rs, MadeBy s₀ rs t) ∧
      ∀ s₀ rs, MadeBy s₀ rs t → ShowsBounds s₀ rs t := by
  obtain ⟨hbuilt, hfaults⟩ := hs.of_node h ht
  have hconsistent : t.constraints.Consistent := (hbuilt.consistent hfaults).constraints
  refine ⟨(hs.schemaAt?_toJson h).2 ⟨t, ht, rfl⟩, hbuilt.exists_madeBy, fun s₀ rs hmade => ?_⟩
  constructor
  case gives => exact fun k hk => gives_of_madeBy hmade hfaults hk
  case ordered =>
    intro low high hpair a b p q
    obtain rfl := hmade.made
    exact ordered_of_lastBound? hfaults hconsistent hpair

end Runs

attribute [local instance] PatternReader.lenient

/-- A list of words, for which a least length was given twice. -/
theorem bounds_of_check_words :
    let bounds := [Refinement.min (.ofNat 1), .max (.ofNat 8), .min (.ofNat 2)]
    let word := string.refineAll bounds
    let words := Schema.array {} word
    Built words ∧ words.check = .ok () ∧ words.Node [.items] word ∧ MadeBy string bounds word ∧
      words.toJson.schemaAt? [.items] = some word.toJson ∧
      string.lastBound? .minLength bounds = some (.ofNat 2) ∧ ShowsBounds string bounds word := by
  intro bounds word words
  have hword : Built word := (Built.primitive .string).refineAll_plain
    (by simp [bounds, Refinement.schemas, Refinement.Offered])
  have hwords : Built words := .fresh (.array word) (by simpa using hword)
  have hcheck : words.check = .ok () := by decide +kernel
  have hnode : words.Node [.items] word := .inside (c := word) (.head _) (.root word)
  have hmade : MadeBy string bounds word := ⟨⟨_, .primitive .string⟩, by simp [bounds, Refinement.Offered], rfl⟩
  obtain ⟨hplace, -, hshows⟩ := bounds_of_check hwords hcheck hnode
  exact ⟨hwords, hcheck, hnode, hmade, hplace, by decide +kernel, hshows _ _ hmade⟩

/-- Two lengths above 64 bits are written as the same one, so that their wrong order is not found. -/
theorem not_exact_bounds_of_check : ¬ ∀ s : Schema, Built s → s.check = .ok () → ∀ place t, s.Node place t →
    ∀ s₀ rs, MadeBy s₀ rs t → ∀ (k : LimitKeyword) b, s₀.lastBound? k rs = some b →
      ∃ n q, t.toJson.get? k.name = some (.number n) ∧ b.rational? = some q ∧ n.value = q := by
  intro h
  let low := Binary64.ofNat (2 ^ 65)
  let high := Binary64.ofNat (2 ^ 64)
  let s := string.refineAll [.min low, .max high]
  have hs : Built s := (Built.primitive .string).refineAll_plain
    (by simp [Refinement.schemas, Refinement.Offered])
  have hmade : MadeBy string [.min low, .max high] s :=
    ⟨⟨_, .primitive .string⟩, by simp [Refinement.Offered], rfl⟩
  have hkind : s.kind ≠ .reference := by decide +kernel
  -- both bounds are written as the greatest count
  have written (k : LimitKeyword) {l : Limit} (hl : s.constraints.limit? k = some l)
      (hj : l.json? = some (SchemaObject.countJson 18446744073709551615)) :
      s.toJson.get? k.name = some (SchemaObject.countJson 18446744073709551615) := by
    rw [get?_limit hkind, hl, Option.bind_some, hj]
  have hlow := written .minLength (l := .minLength 18446744073709551615) (by decide +kernel) rfl
  have hhigh := written .maxLength (l := .maxLength 18446744073709551615) (by decide +kernel) rfl
  obtain ⟨n, p, hn, hp, hnp⟩ := h s hs (by decide +kernel) [] s (.root s) _ _ hmade .minLength low (by decide +kernel)
  obtain ⟨m, q, hm, hq, hmq⟩ := h s hs (by decide +kernel) [] s (.root s) _ _ hmade .maxLength high (by decide +kernel)
  cases hlow.symm.trans hn
  cases hhigh.symm.trans hm
  have hlt : high.lt low = false := (Binary64.lt_eq_false_iff hq hp).2 (hnp.symm.trans hmq).le
  exact absurd hlt (by decide +kernel)

end Schema

end ApiDescription
