import ApiDescription.Proofs.Number.Exact
import ApiDescription.Proofs.Schema.Attribute
import ApiDescription.Proofs.Schema.Consistent
import ApiDescription.Schema.Written
import Mathlib.Data.List.Perm.Basic

/-!
# Refinements in any order

Every bound is compared with what was set before it, so one of two that contradict each other is refused whichever
comes second. What is accepted in the end is a set of attributes that do not contradict each other: leaving some
out keeps limits consistent (`Constraints.Consistent.mono`), so a run of plain refinements that gives each keyword
once at most is accepted exactly when all its attributes together are consistent (`passes_iff`), and that has no
order (`refineAll_perm`).
-/

set_option autoImplicit false

namespace ApiDescription

/-! ## Fewer limits -/

theorem Ordered.mono {low high low' high' : Option UInt64} (h : Ordered low' high')
    (hlow : ∀ n, low = some n → low' = some n) (hhigh : ∀ n, high = some n → high' = some n) :
    Ordered low high := fun a b ha hb => h a b (hlow a ha) (hhigh b hb)

theorem OneBound.mono {inc exc inc' exc' : Option Binary64} (h : OneBound inc' exc')
    (hinc : ∀ b, inc = some b → inc' = some b) (hexc : ∀ b, exc = some b → exc' = some b) : OneBound inc exc where
  one := by
    cases inc with
    | none => exact .inl rfl
    | some b =>
      cases exc with
      | none => exact .inr rfl
      | some d => exact absurd h.one (by simp [hinc b rfl, hexc d rfl])
  finite b hb := h.finite b (hb.imp (hinc b) (hexc b))

namespace Constraints

variable {c c' : Constraints}

/-- Fewer limits are consistent when more are. -/
theorem Consistent.mono (h : c'.Consistent) (hle : ∀ k l, c.limit? k = some l → c'.limit? k = some l) :
    c.Consistent := by
  have field {α : Type} {k : LimitKeyword} {f : α → Limit} {o o' : Option α} (hf : ∀ a b, f a = f b → a = b)
      (ho : c.limit? k = o.map f) (ho' : c'.limit? k = o'.map f) (a : α) (ha : o = some a) : o' = some a := by
    have hset : o'.map f = some (f a) := by
      rw [← ho', hle k (f a) (by rw [ho, ha, Option.map_some])]
    obtain ⟨b, hb, hab⟩ := Option.map_eq_some_iff.1 hset
    rw [hb, hf b a hab]
  have minimum := field (k := .minimum) (fun _ _ => Limit.minimum.inj) rfl rfl
  have maximum := field (k := .maximum) (fun _ _ => Limit.maximum.inj) rfl rfl
  have exclusiveMinimum := field (k := .exclusiveMinimum) (fun _ _ => Limit.exclusiveMinimum.inj) rfl rfl
  have exclusiveMaximum := field (k := .exclusiveMaximum) (fun _ _ => Limit.exclusiveMaximum.inj) rfl rfl
  constructor
  case length =>
    exact h.length.mono (field (k := .minLength) (fun _ _ => Limit.minLength.inj) rfl rfl)
      (field (k := .maxLength) (fun _ _ => Limit.maxLength.inj) rfl rfl)
  case items =>
    exact h.items.mono (field (k := .minItems) (fun _ _ => Limit.minItems.inj) rfl rfl)
      (field (k := .maxItems) (fun _ _ => Limit.maxItems.inj) rfl rfl)
  case properties =>
    exact h.properties.mono (field (k := .minProperties) (fun _ _ => Limit.minProperties.inj) rfl rfl)
      (field (k := .maxProperties) (fun _ _ => Limit.maxProperties.inj) rfl rfl)
  case lower => exact h.lower.mono minimum exclusiveMinimum
  case upper => exact h.upper.mono maximum exclusiveMaximum
  case values =>
    exact fun low high hlow hhigh => h.values low high (hlow.imp (minimum low) (exclusiveMinimum low))
      (hhigh.imp (maximum high) (exclusiveMaximum high))
  case factor =>
    exact fun m hm => h.factor m (field (k := .multipleOf) (fun _ _ => Limit.multipleOf.inj) rfl rfl m hm)

theorem invertedCounts_eq_none (hlength : Ordered c.minLength c.maxLength) (hitems : Ordered c.minItems c.maxItems)
    (hproperties : Ordered c.minProperties c.maxProperties) : c.invertedCounts = none := by
  have ordered : ∀ pair ∈ c.countPairs, Ordered pair.2.1 pair.2.2 := by
    simp [countPairs, hlength, hitems, hproperties]
  rw [invertedCounts, List.findSome?_eq_none_iff]
  rintro ⟨name, low, high⟩ hpair
  have hpair : Ordered low high := ordered _ hpair
  cases low with
  | none => rfl
  | some l =>
    cases high with
    | none => rfl
    | some u => exact if_neg (Nat.not_lt.2 (UInt64.le_iff_toNat_le.1 (hpair l u rfl rfl)))

theorem Consistent.invertedValues_eq_none (h : c.Consistent) : c.invertedValues = none := by
  have find {inc exc : Option Binary64} {b : Binary64} (hb : inc.or exc = some b) : inc = some b ∨ exc = some b := by
    cases inc with
    | none => exact .inr hb
    | some _ => exact .inl hb
  unfold invertedValues
  split
  · next low high hlow hhigh =>
    obtain ⟨p, q, hp, hq, hle⟩ := h.values low high (find hlow) (find hhigh)
    exact if_neg (Bool.eq_false_iff.1 ((Binary64.lt_eq_false_iff hq hp).2 hle))
  · rfl

/-- A limit fits when it leaves the limits consistent. -/
theorem Consistent.fits {l : Limit} (h : (l.put c).Consistent) : l.Fits c := by
  have finite {inc exc : Option Binary64} (hone : OneBound inc exc) {b : Binary64} (hb : inc = some b ∨ exc = some b) :
      b.isFinite = true := by
    obtain ⟨q, hq⟩ := hone.finite b hb
    exact Binary64.isFinite_of_rational hq
  cases l with
  | minLength | maxLength | minItems | maxItems | minProperties | maxProperties =>
    exact invertedCounts_eq_none h.length h.items h.properties
  | minimum b =>
    exact ⟨finite h.lower (.inl rfl), h.lower.one.resolve_left (Option.some_ne_none b), h.invertedValues_eq_none⟩
  | maximum b =>
    exact ⟨finite h.upper (.inl rfl), h.upper.one.resolve_left (Option.some_ne_none b), h.invertedValues_eq_none⟩
  | exclusiveMinimum b =>
    exact ⟨finite h.lower (.inr rfl), h.lower.one.resolve_right (Option.some_ne_none b), h.invertedValues_eq_none⟩
  | exclusiveMaximum b =>
    exact ⟨finite h.upper (.inr rfl), h.upper.one.resolve_right (Option.some_ne_none b), h.invertedValues_eq_none⟩
  | multipleOf m =>
    obtain ⟨q, hq, hpositive⟩ := h.factor m rfl
    exact ⟨Binary64.isFinite_of_rational hq, Binary64.isPositive_of_rational_pos hq hpositive⟩
  | pattern | format | uniqueItems | additionalProperties => trivial

end Constraints

/-! ## Runs of attributes -/

namespace Attribute

variable {f : Facets} {a : Attribute} {as as' : List Attribute}

/-- The facets with the attributes set one after the other. -/
def putAll (f : Facets) (as : List Attribute) : Facets := as.foldl (fun f a => a.put f) f

/-- Every attribute fits what the ones before it leave. -/
def Passes (f : Facets) : List Attribute → Prop
  | [] => True
  | a :: as => a.Fits f ∧ Passes (a.put f) as

/-- No mark contradicts another one or the presence. -/
def OneMark (p : Presence) (as : List Attribute) : Prop :=
  ∃ required, p ≠ .marked (!required) ∧ ∀ x, .mark x ∈ as → x = required

/-- No keyword comes twice, and no limit is set already. -/
structure New (f : Facets) (as : List Attribute) : Prop where
  once : (as.filterMap keyword?).Nodup
  unset : ∀ l, .limit l ∈ as → f.constraints.limit? l.keyword = none

theorem New.kept (h : New f (a :: as)) {k : LimitKeyword} {l : Limit} (hl : f.constraints.limit? k = some l) :
    (a.put f).constraints.limit? k = some l := by
  cases a with
  | limit l' =>
    have hne : l'.keyword ≠ k := by
      rintro rfl
      exact absurd ((h.unset l' List.mem_cons_self).symm.trans hl) (Option.some_ne_none l).symm
    rw [put, Constraints.limit?_put, if_neg hne, hl]
  | _ => exact hl

theorem New.step (h : New f (a :: as)) : New (a.put f) as where
  once := h.once.sublist ((List.sublist_cons_self a as).filterMap keyword?)
  unset l hl := by
    have hunset := h.unset l (List.mem_cons_of_mem a hl)
    cases a with
    | limit l' =>
      -- the keyword of the first limit does not come again
      have honce : l'.keyword.name ∉ as.filterMap keyword? := by
        have hcons := h.once
        rw [List.filterMap_cons, keyword?] at hcons
        exact (List.nodup_cons.1 hcons).1
      have hne : l'.keyword ≠ l.keyword := fun heq =>
        honce (List.mem_filterMap.2 ⟨.limit l, hl, by rw [keyword?, heq]⟩)
      rw [put, Constraints.limit?_put, if_neg hne, hunset]
    | _ => exact hunset

theorem New.kept_putAll (h : New f as) {k : LimitKeyword} {l : Limit} (hl : f.constraints.limit? k = some l) :
    (putAll f as).constraints.limit? k = some l := by
  induction as generalizing f with
  | nil => exact hl
  | cons a as ih => exact ih h.step (h.kept hl)

theorem New.perm (h : New f as) (hperm : as.Perm as') : New f as' where
  once := (hperm.filterMap keyword?).nodup_iff.1 h.once
  unset l hl := h.unset l (hperm.mem_iff.2 hl)

/-- New attributes pass one after the other exactly when all of them together contradict nothing. -/
theorem passes_iff (hnew : New f as) (hf : f.constraints.Consistent) :
    Passes f as ↔ OneMark f.presence as ∧ (putAll f as).constraints.Consistent := by
  induction as generalizing f with
  | nil =>
    have hmark : OneMark f.presence [] := by
      cases hp : f.presence with
      | unspecified | required => exact ⟨true, by decide, nofun⟩
      | optional => exact ⟨false, by decide, nofun⟩
    exact iff_of_true trivial ⟨hmark, hf⟩
  | cons a as ih =>
    have hkept (hall : (putAll (a.put f) as).constraints.Consistent) : (a.put f).constraints.Consistent :=
      hall.mono fun k l => hnew.step.kept_putAll
    cases a with
    | limit l =>
      have hmark : OneMark f.presence (.limit l :: as) ↔ OneMark f.presence as := by simp [OneMark]
      rw [hmark]
      constructor
      · rintro ⟨hfits, hpasses⟩
        exact (ih hnew.step (hf.put hfits)).1 hpasses
      · rintro ⟨hone, hall⟩
        exact ⟨(hkept hall).fits, (ih hnew.step (hkept hall)).2 ⟨hone, hall⟩⟩
    | mark b =>
      rw [Passes, ih hnew.step hf]
      refine ⟨?_, ?_⟩
      · rintro ⟨hfits, ⟨required, hrequired, hmarks⟩, hall⟩
        have hb : b = required := by
          cases b <;> cases required <;> first | rfl | exact absurd rfl hrequired
        refine ⟨⟨b, hfits, fun x hx => ?_⟩, hall⟩
        rcases List.mem_cons.1 hx with hx | hx
        · exact mark.inj hx
        · exact (hmarks x hx).trans hb.symm
      · rintro ⟨⟨required, hrequired, hmarks⟩, hall⟩
        obtain rfl : b = required := hmarks b List.mem_cons_self
        refine ⟨hrequired, ⟨b, ?_, fun x hx => hmarks x (List.mem_cons_of_mem _ hx)⟩, hall⟩
        show Presence.marked b ≠ Presence.marked !b
        cases b <;> decide
    | _ =>
      rw [Passes, ih hnew.step hf]
      simp [Fits, OneMark, put, putAll]

/-- New attributes that pass do so in any order, and set the same facets. -/
theorem passes_perm (hperm : as.Perm as') (hnew : New f as) (hf : f.constraints.Consistent) (h : Passes f as) :
    Passes f as' ∧ putAll f as' = putAll f as := by
  obtain ⟨⟨required, hrequired, hmarks⟩, hall⟩ := (passes_iff hnew hf).1 h
  have hapart : as.Pairwise Apart :=
    (List.pairwise_filterMap.1 hnew.once).imp fun h k hk hk' => h k hk k hk' rfl
  have heq : putAll f as = putAll f as' := by
    refine hperm.foldl_eq' (fun a ha b hb g => ?_) f
    by_cases hab : a = b
    · rw [hab]
    · refine (put_comm (hapart.forall ha hb hab) (fun p q hp hq => ?_) g).symm
      rw [hmarks p (hp ▸ ha), hmarks q (hq ▸ hb)]
  refine ⟨(passes_iff (hnew.perm hperm) hf).2 ⟨⟨required, hrequired, fun x hx => ?_⟩, heq ▸ hall⟩, heq.symm⟩
  exact hmarks x (hperm.mem_iff.2 hx)

end Attribute

/-- The keyword that a plain refinement sets on a schema of the kind. -/
def Refinement.keyword? [PatternReader] (k : SchemaKind) (r : Refinement) : Option String :=
  (r.attribute? k).bind Attribute.keyword?

/-! ## Runs of refinements -/

namespace Schema

variable {s : Schema} {rs rs' : List Refinement}

theorem mapFacets_mapFacets (g g' : Facets → Facets) (s : Schema) :
    (s.mapFacets g).mapFacets g' = s.mapFacets fun f => g' (g f) := by
  cases s <;> rfl

theorem mapFacets_congr {g g' : Facets → Facets} (h : g s.facets = g' s.facets) :
    s.mapFacets g = s.mapFacets g' := by
  cases s <;> simp only [facets] at h <;> simp only [mapFacets, h]

section Runs

variable [PatternReader]

/-- Without a fault, every plain refinement gave an attribute that fitted. -/
theorem passes_of_faultless (hplain : ∀ r ∈ rs, r.isPlain = true) (h : (s.refineAll rs).facets.faults = []) :
    (∀ r ∈ rs, (r.attribute? s.kind).isSome = true) ∧
      Attribute.Passes s.facets (rs.filterMap (·.attribute? s.kind)) := by
  induction rs generalizing s with
  | nil => exact ⟨nofun, trivial⟩
  | cons r rs ih =>
    have hfirst : (s.refine r).facets.faults = [] := faultless_of_refineAll h
    obtain ⟨-, a, ha, hfits, heq⟩ := attribute_of_faultless (hplain r List.mem_cons_self) hfirst
    obtain ⟨hall, hpasses⟩ := ih (fun r' hr' => hplain r' (List.mem_cons_of_mem r hr')) h
    rw [heq, kind_mapFacets, facets_mapFacets] at hpasses
    rw [heq, kind_mapFacets] at hall
    rw [List.filterMap_cons, ha]
    refine ⟨fun r' hr' => ?_, hfits, hpasses⟩
    rcases List.mem_cons.1 hr' with rfl | hr'
    · rw [ha]
      rfl
    · exact hall r' hr'

/-- Plain refinements whose attributes pass set these attributes and do nothing else. -/
theorem refineAll_of_passes (hplain : ∀ r ∈ rs, r.isPlain = true)
    (hall : ∀ r ∈ rs, (r.attribute? s.kind).isSome = true)
    (h : Attribute.Passes s.facets (rs.filterMap (·.attribute? s.kind))) :
    s.refineAll rs = s.mapFacets (Attribute.putAll · (rs.filterMap (·.attribute? s.kind))) := by
  induction rs generalizing s with
  | nil => cases s <;> rfl
  | cons r rs ih =>
    obtain ⟨a, ha⟩ := Option.isSome_iff_exists.1 (hall r List.mem_cons_self)
    rw [List.filterMap_cons, ha] at h ⊢
    have heq : s.refine r = s.mapFacets a.put := refine_of_fits (hplain r List.mem_cons_self) ha h.1
    have hrest : (s.mapFacets a.put).refineAll rs = (s.mapFacets a.put).mapFacets
        (Attribute.putAll · (rs.filterMap (·.attribute? s.kind))) := by
      have hkind : (s.mapFacets a.put).kind = s.kind := kind_mapFacets a.put s
      rw [← hkind]
      refine ih (fun r' hr' => hplain r' (List.mem_cons_of_mem r hr')) (fun r' hr' => ?_) ?_
      · rw [hkind]
        exact hall r' (List.mem_cons_of_mem r hr')
      · rw [hkind, facets_mapFacets]
        exact h.2
    show (s.refine r).refineAll rs = _
    rw [heq, hrest, mapFacets_mapFacets]
    rfl

/-- Refinements of a fresh schema that are accepted in one order make the same schema in every order. -/
theorem refineAll_perm {parts : List Schema} (hs : Fresh s parts) (hplain : ∀ r ∈ rs, r.isPlain = true)
    (honce : (rs.filterMap (·.keyword? s.kind)).Nodup) (hperm : rs.Perm rs')
    (h : (s.refineAll rs).facets.faults = []) : s.refineAll rs' = s.refineAll rs := by
  have hfacets : s.facets = {} := hs.facets_eq (faultless_of_refineAll h)
  obtain ⟨hall, hpasses⟩ := passes_of_faultless hplain h
  have hnew : Attribute.New s.facets (rs.filterMap (·.attribute? s.kind)) := by
    constructor
    case once =>
      rw [List.filterMap_filterMap]
      exact honce
    case unset =>
      intro l _
      rw [hfacets]
      exact Constraints.limit?_empty _
  have hconsistent : s.facets.constraints.Consistent := hfacets ▸ Constraints.Consistent.empty
  obtain ⟨hpasses', hsame⟩ := Attribute.passes_perm (hperm.filterMap _) hnew hconsistent hpasses
  rw [refineAll_of_passes hplain hall hpasses,
    refineAll_of_passes (fun r hr => hplain r (hperm.mem_iff.2 hr)) (fun r hr => hall r (hperm.mem_iff.2 hr)) hpasses']
  exact mapFacets_congr hsame

/-- The order of plain refinements that set each keyword once at most does not matter: a fresh schema passes the check
after them in one order exactly when it does in any other, and then it is written in the same way and has the same
presence. -/
theorem check_refineAll_perm {s : Schema} {parts : List Schema} (hs : Fresh s parts) {rs rs' : List Refinement}
    (hplain : ∀ r ∈ rs, r.isPlain = true) (honce : (rs.filterMap (·.keyword? s.kind)).Nodup)
    (hperm : rs.Perm rs') :
    ((s.refineAll rs).check = .ok () ↔ (s.refineAll rs').check = .ok ()) ∧
      ((s.refineAll rs).check = .ok () → (s.refineAll rs').toObject = (s.refineAll rs).toObject ∧
        (s.refineAll rs').facets.presence = (s.refineAll rs).facets.presence) := by
  have faultless {t : Schema} (h : t.check = .ok ()) : t.facets.faults = [] :=
    (check_ok_iff t).1 h [] t (.root t)
  have forth (h : (s.refineAll rs).check = .ok ()) : s.refineAll rs' = s.refineAll rs :=
    refineAll_perm hs hplain honce hperm (faultless h)
  have back (h : (s.refineAll rs').check = .ok ()) : s.refineAll rs = s.refineAll rs' :=
    refineAll_perm hs (fun r hr => hplain r (hperm.mem_iff.2 hr)) ((hperm.filterMap _).nodup_iff.1 honce)
      hperm.symm (faultless h)
  refine ⟨⟨fun h => (forth h).symm ▸ h, fun h => (back h).symm ▸ h⟩, fun h => ?_⟩
  rw [forth h]
  exact ⟨rfl, rfl⟩

end Runs

attribute [local instance] PatternReader.lenient

/-- A number between bounds of both sorts, told forwards and backwards. -/
theorem check_refineAll_perm_number :
    let number := Schema.primitive {} .number
    let rs := [Refinement.max (.ofNat 10), .required, .exclusiveMin (.ofNat 1), .title "Rate", .nullable,
      .multipleOf (.ofNat 2)]
    Fresh number [] ∧ (∀ r ∈ rs, r.isPlain = true) ∧ (rs.filterMap (·.keyword? number.kind)).Nodup ∧
      rs.Perm rs.reverse ∧ (number.refineAll rs).check = .ok () ∧ (number.refineAll rs.reverse).check = .ok () ∧
      (number.refineAll rs.reverse).toObject = (number.refineAll rs).toObject ∧
      (number.refineAll rs.reverse).facets.presence = .required := by
  intro number rs
  have hfresh : Fresh number [] := .primitive .number
  have hplain : ∀ r ∈ rs, r.isPlain = true := by simp [rs, Refinement.isPlain]
  have honce : (rs.filterMap (·.keyword? number.kind)).Nodup := by decide +kernel
  have hperm : rs.Perm rs.reverse := (List.reverse_perm rs).symm
  have hcheck : (number.refineAll rs).check = .ok () := by decide +kernel
  obtain ⟨hverdict, hsame⟩ := check_refineAll_perm hfresh hplain honce hperm
  obtain ⟨hobject, hpresence⟩ := hsame hcheck
  exact ⟨hfresh, hplain, honce, hperm, hcheck, hverdict.1 hcheck, hobject, hpresence.trans (by decide +kernel)⟩

end Schema

end ApiDescription
