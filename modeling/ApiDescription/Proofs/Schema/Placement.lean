import ApiDescription.Proofs.Schema.Built

/-!
# Limits on schemas of the kinds that they are defined for

A limit suits the kind that a schema has right after the refinement that sets it (`limit_origin`). The kind
changes later only when a refinement gives a primitive schema another type, and that is the only way in which
a node of a checked schema comes to carry a limit that is not defined for it (`suits_or_outdated_of_check`).
-/

set_option autoImplicit false

namespace ApiDescription.Schema

/-! ## Histories -/

section Histories

variable [PatternReader]

/-- The schema was made of a fresh one by the refinements. -/
structure MadeBy (s : Schema) (rs : List Refinement) (t : Schema) : Prop where
  fresh : ∃ parts, Fresh s parts
  offered : ∀ r ∈ rs, r.Offered
  made : t = s.refineAll rs

theorem Built.exists_madeBy {t : Schema} (h : Built t) : ∃ s rs, MadeBy s rs t := by
  induction h with
  | @fresh s parts h _ _ => exact ⟨s, [], ⟨parts, h⟩, by simp, rfl⟩
  | @refine t r _ hoffered _ ih _ =>
    obtain ⟨s, rs, hfresh, hrs, rfl⟩ := ih
    refine ⟨s, rs ++ [r], hfresh, fun r' hr' => ?_, (refineAll_concat s rs r).symm⟩
    rcases List.mem_append.1 hr' with hr' | hr'
    · exact hrs r' hr'
    · exact List.mem_singleton.1 hr' ▸ hoffered

/-- The kind of a schema changes only from one primitive type to another. -/
theorem kind_refineAll {s : Schema} {rs : List Refinement} (h : (s.refineAll rs).facets.faults = []) :
    (s.refineAll rs).kind = s.kind ∨
      (∃ r ∈ rs, r.retypes = true) ∧
        ∃ a b, s.kind = .primitive a ∧ (s.refineAll rs).kind = .primitive b := by
  induction rs generalizing s with
  | nil => exact .inl rfl
  | cons r rs ih =>
    obtain ⟨-, haccepts⟩ := accepts_of_faultless (faultless_of_refineAll h)
    obtain hrest | ⟨⟨r', hr', hretypes⟩, a, b, ha, hb⟩ := ih h
    · obtain hkind | ⟨hretypes, a, b, ha, hb⟩ := haccepts.kind
      · exact .inl (hrest.trans hkind)
      · exact .inr ⟨⟨r, List.mem_cons_self, hretypes⟩, a, b, ha, hrest.trans hb⟩
    · refine .inr ⟨⟨r', List.mem_cons_of_mem r hr', hretypes⟩, ?_⟩
      obtain hkind | ⟨-, c, -, hc, -⟩ := haccepts.kind
      · exact ⟨a, b, hkind ▸ ha, hb⟩
      · exact ⟨c, b, hc, hb⟩

/-- Every limit was set by a refinement when the kind suited it. -/
theorem limit_origin {s t : Schema} {rs : List Refinement} (hmade : MadeBy s rs t)
    (h : t.facets.faults = []) {k : LimitKeyword} {l : Limit} (hl : t.constraints.limit? k = some l) :
    ∃ before r after, rs = before ++ r :: after ∧ r.limit? (s.refineAll before).kind = some l ∧
      l.suits (s.refineAll (before ++ [r])).kind = true := by
  obtain ⟨⟨parts, hfresh⟩, hoffered, rfl⟩ := hmade
  induction rs using List.reverseRecOn with
  | nil =>
    rw [refineAll, List.foldl_nil, constraints, hfresh.facets_eq h, Constraints.limit?_empty] at hl
    cases hl
  | append_singleton rs r ih =>
    rw [refineAll_concat] at h hl
    obtain ⟨hbefore, haccepts⟩ := accepts_of_faultless h
    -- the last refinement set the limit, or it was there already
    have old (hold : (s.refineAll rs).constraints.limit? k = some l) :
        ∃ before r' after, rs ++ [r] = before ++ r' :: after ∧
          r'.limit? (s.refineAll before).kind = some l ∧ l.suits (s.refineAll (before ++ [r'])).kind = true := by
      obtain ⟨before, r', after, hrs, hset⟩ :=
        ih (fun r' hr' => hoffered r' (List.mem_append_left _ hr')) hbefore hold
      exact ⟨before, r', after ++ [r], by rw [hrs, List.append_assoc, List.cons_append], hset⟩
    rw [haccepts.constraints] at hl
    cases hset : r.limit? (s.refineAll rs).kind with
    | none =>
      rw [hset] at hl
      exact old hl
    | some l' =>
      rw [hset, Option.map_some, Option.getD_some, Constraints.limit?_put] at hl
      split at hl
      · cases hl
        refine ⟨rs, r, [], rfl, hset, ?_⟩
        rw [refineAll_concat]
        exact haccepts.suits (hoffered r (by simp)) l hset
      · exact old hl

/-! ## Placed limits -/

/-- All limits are defined for schemas of the kind. -/
def Placed (t : Schema) : Prop := ∀ k l, t.constraints.limit? k = some l → l.suits t.kind = true

/-- The limit was set when the schema had a primitive type that it suits, and the type was changed later. -/
def Outdated (s : Schema) (rs : List Refinement) (l : Limit) (t : Schema) : Prop :=
  ∃ before r after, rs = before ++ r :: after ∧ r.limit? (s.refineAll before).kind = some l ∧
    (∃ r' ∈ after, r'.retypes = true) ∧
    ∃ a b, (s.refineAll (before ++ [r])).kind = .primitive a ∧ l.suits (.primitive a) = true ∧
      t.kind = .primitive b

theorem suits_or_outdated {s t : Schema} {rs : List Refinement} (hmade : MadeBy s rs t)
    (h : t.facets.faults = []) {k : LimitKeyword} {l : Limit} (hl : t.constraints.limit? k = some l) :
    l.suits t.kind = true ∨ Outdated s rs l t := by
  obtain ⟨before, r, after, rfl, hset, hsuits⟩ := limit_origin hmade h hl
  have hmade : t = (s.refineAll (before ++ [r])).refineAll after := by
    rw [hmade.made, refineAll, refineAll, refineAll, ← List.foldl_append, List.append_assoc]
    rfl
  subst hmade
  obtain hkind | ⟨hretypes, a, b, ha, hb⟩ := kind_refineAll h
  · exact .inl (hkind ▸ hsuits)
  · exact .inr ⟨before, r, after, rfl, hset, hretypes, a, b, ha, ha ▸ hsuits, hb⟩

/-- Without a primitive type or a change of it, all limits of a schema are defined for its kind. -/
theorem placed_of_kept {s t : Schema} {rs : List Refinement} (hmade : MadeBy s rs t)
    (h : t.facets.faults = []) (hkept : (∀ r ∈ rs, r.retypes = false) ∨ ∀ b, t.kind ≠ .primitive b) :
    t.Placed := by
  intro k l hl
  obtain hsuits | ⟨before, r, after, rfl, -, ⟨r', hr', hretypes⟩, a, b, -, -, hb⟩ :=
    suits_or_outdated hmade h hl
  · exact hsuits
  · obtain hkept | hkept := hkept
    · have hr' := hkept r' (by simp [hr'])
      exact absurd (hr'.symm.trans hretypes) Bool.false_ne_true
    · exact absurd hb (hkept b)

/-- However a node of a checked schema was made, each of its limits is defined for its kind, or was set before
the last change of its primitive type. -/
theorem suits_or_outdated_of_check {s : Schema} (hs : Built s) (h : s.check = .ok ())
    (place : List SchemaStep) (t : Schema) (ht : s.Node place t) :
    (∃ s₀ rs, MadeBy s₀ rs t) ∧ ∀ s₀ rs, MadeBy s₀ rs t → ∀ k l, t.constraints.limit? k = some l →
      l.suits t.kind = true ∨ Outdated s₀ rs l t := by
  obtain ⟨hbuilt, hfaults⟩ := hs.of_node h ht
  exact ⟨hbuilt.exists_madeBy, fun s₀ rs hmade k l hl => suits_or_outdated hmade hfaults hl⟩

end Histories

attribute [local instance] PatternReader.lenient

/-- The limits of an amount inside a list. -/
theorem suits_or_outdated_of_check_amounts :
    let amount := string.refineAll [.typedFormat .integer .int64, .min (.ofNat 1)]
    let amounts := (Schema.array {} amount).refineAll [.maxItems (.ofNat 3)]
    Built amounts ∧ amounts.check = .ok () ∧ amounts.Node [.items] amount ∧
      (∃ s₀ rs, MadeBy s₀ rs amount) ∧
      ∀ s₀ rs, MadeBy s₀ rs amount → ∀ k l, amount.constraints.limit? k = some l →
        l.suits amount.kind = true ∨ Outdated s₀ rs l amount := by
  intro amount amounts
  have hamount : Built amount := (Built.primitive .string).refineAll_plain
    (by simp [Refinement.schemas, Refinement.Offered, typedFormats])
  have hamounts : Built amounts := (Built.fresh (.array amount) (by simpa using hamount)).refineAll_plain
    (by simp [Refinement.schemas, Refinement.Offered])
  have hcheck : amounts.check = .ok () := by decide +kernel
  have hnode : amounts.Node [.items] amount := .inside (c := amount) (.head _) (.root amount)
  exact ⟨hamounts, hcheck, hnode, suits_or_outdated_of_check hamounts hcheck _ _ hnode⟩

/-- The check does not find that a type was changed under a limit: here an integer has a least length. -/
theorem not_placed_of_check : ¬ ∀ s : Schema, Built s → s.check = .ok () →
    ∀ place t, s.Node place t → t.Placed := by
  intro h
  let s := string.refineAll [.min (.ofNat 1), .retype .integer]
  have hs : Built s := (Built.primitive .string).refineAll_plain
    (by simp [Refinement.schemas, Refinement.Offered])
  have hplaced : s.Placed := h s hs (by decide +kernel) [] s (.root s)
  have hlimit : s.constraints.limit? .minLength = some (.minLength 1) := by decide +kernel
  have hsuits : Limit.suits (.minLength 1) s.kind = true := hplaced _ _ hlimit
  exact absurd hsuits (by decide +kernel)

end ApiDescription.Schema
