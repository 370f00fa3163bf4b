import ApiDescription.Proofs.Schema.Refine

/-!
# Built schemas

A schema is built when it is fresh or comes from a built one by a refinement, all schemas it is given being
built themselves. Every node of a built schema that passes the check is built and has no fault
(`Built.of_node`), so it came about by accepted refinements alone (`Built.induct_accepted`).
-/

set_option autoImplicit false

namespace ApiDescription.Schema

/-- A schema just made, with the schemas that it is made of. -/
inductive Fresh : Schema → List Schema → Prop
  | primitive (type : PrimitiveType) : Fresh (.primitive {} type) []
  | array (item : Schema) : Fresh (.array {} item) [item]
  | object (ps : List (String × Schema)) : Fresh (ofProperties ps) (ps.map Prod.snd)
  | composition (keyword : ListKeyword) (ss : List Schema) : Fresh (composed keyword ss) ss
  | negation (c : Schema) : Fresh (negation c) [c]
  | reference (name : String) : Fresh (.reference {} name) []

/-! ## Fresh schemas without faults -/

theorem negation_eq (c : Schema) : negation c = .composition {} [] [] [] (some c) := rfl

theorem Fresh.of_hasChild {s c : Schema} {parts : List Schema} (h : Fresh s parts)
    (hfaults : s.facets.faults = []) (hc : s.HasChild c) : c ∈ parts := by
  cases h with
  | primitive | reference =>
    obtain ⟨step, hc⟩ := hc
    nomatch hc
  | array _ =>
    obtain ⟨step, hc⟩ := hc
    cases List.mem_singleton.1 hc
    exact List.mem_singleton_self _
  | object ps =>
    obtain ⟨p, hp, rfl⟩ := hasChild_object_iff.1 hc
    exact List.mem_map_of_mem (Entries.mem_of_mem_ofList hp)
  | composition keyword _ =>
    obtain ⟨-, haccepts⟩ := accepts_compose_of_faultless hfaults
    obtain ⟨step, hold⟩ | hnew := haccepts.children c hc
    · exact absurd hold (by simp [emptyComposition, children, membersFrom])
    · exact hnew
  | negation d =>
    rw [negation_eq, hasChild_composition_iff] at hc
    simpa [eq_comm] using hc

theorem Fresh.facets_eq {s : Schema} {parts : List Schema} (h : Fresh s parts)
    (hfaults : s.facets.faults = []) : s.facets = {} := by
  cases h with
  | composition keyword _ =>
    obtain ⟨hne, -⟩ := accepts_compose_of_faultless hfaults
    cases parts with
    | nil => exact absurd rfl hne
    | cons c cs => cases keyword <;> rfl
  | _ => rfl

theorem Fresh.filled {s : Schema} {parts : List Schema} (h : Fresh s parts)
    (hfaults : s.facets.faults = []) : s.Filled := by
  cases h with
  | composition keyword _ =>
    obtain ⟨hne, -⟩ := accepts_compose_of_faultless hfaults
    cases parts with
    | nil => exact absurd rfl hne
    | cons c cs => cases keyword <;> simp [composed, emptyComposition, compose, Filled]
  | negation d => simp [negation_eq, Filled]
  | _ => trivial

/-! ## Schemas made of fresh ones -/

variable [PatternReader]

/-- The schemas that can be made: fresh ones, and those that refinements make of them. -/
inductive Built : Schema → Prop
  | fresh {s : Schema} {parts : List Schema} (h : Fresh s parts) (hparts : ∀ c ∈ parts, Built c) : Built s
  | refine {s : Schema} {r : Refinement} (hs : Built s) (hoffered : r.Offered)
      (hr : ∀ c ∈ r.schemas, Built c) : Built (s.refine r)

theorem Built.refineAll {s : Schema} (hs : Built s) {rs : List Refinement}
    (hoffered : ∀ r ∈ rs, r.Offered) (hrs : ∀ r ∈ rs, ∀ c ∈ r.schemas, Built c) : Built (s.refineAll rs) := by
  induction rs generalizing s with
  | nil => exact hs
  | cons r rs ih =>
    have hrefined : Built (s.refine r) :=
      .refine hs (hoffered r List.mem_cons_self) (hrs r List.mem_cons_self)
    exact ih hrefined (fun r' hr' => hoffered r' (List.mem_cons_of_mem r hr')) fun r' hr' =>
      hrs r' (List.mem_cons_of_mem r hr')

theorem Built.primitive (type : PrimitiveType) : Built (.primitive {} type) :=
  .fresh (.primitive type) (by simp)

/-- Refinements that are given no schemas. -/
theorem Built.refineAll_plain {s : Schema} (hs : Built s) {rs : List Refinement}
    (hrs : ∀ r ∈ rs, r.Offered ∧ r.schemas = []) : Built (s.refineAll rs) :=
  hs.refineAll (fun r hr => (hrs r hr).1) fun r hr => by simp [(hrs r hr).2]

/-! ## Schemas made without a fault -/

/-- What holds of fresh schemas and is kept by accepted refinements holds of built schemas without faults. -/
theorem Built.induct_accepted {P : Schema → Prop}
    (fresh : ∀ s parts, Fresh s parts → (∀ c ∈ parts, Built c) → s.facets.faults = [] → P s)
    (accepted : ∀ s r t, (∀ c ∈ r.schemas, Built c) → P s → Accepts s r t → P t) {s : Schema}
    (h : Built s) (hfaults : s.facets.faults = []) : P s := by
  induction h with
  | fresh h hparts => exact fresh _ _ h hparts hfaults
  | refine hs _ hr ih =>
    obtain ⟨hbefore, haccepts⟩ := accepts_of_faultless hfaults
    exact accepted _ _ _ hr (ih hbefore) haccepts

theorem Built.of_hasChild {s c : Schema} (h : Built s) (hfaults : s.facets.faults = [])
    (hc : s.HasChild c) : Built c := by
  refine induct_accepted (P := fun s => ∀ c, s.HasChild c → Built c) ?fresh ?accepted h hfaults c hc
  case fresh => exact fun s parts h hparts hfaults c hc => hparts c (h.of_hasChild hfaults hc)
  case accepted =>
    intro s r t hr hs haccepts c hc
    exact (haccepts.children c hc).elim (hs c) (hr c)

/-- The nodes of a built schema that passes the check are built, and have no fault. -/
theorem Built.of_node {s t : Schema} {place : List SchemaStep} (hs : Built s) (h : s.check = .ok ())
    (ht : s.Node place t) : Built t ∧ t.facets.faults = [] := by
  rw [check_ok_iff] at h
  induction ht with
  | root s => exact ⟨hs, h [] s (.root s)⟩
  | inside hc ht ih =>
    -- the schema around the child has no fault either, or the child need not be a built one
    have hchild := hs.of_hasChild (h [] _ (.root _)) ⟨_, hc⟩
    exact ih hchild fun place t ht => h _ t (.inside hc ht)

end ApiDescription.Schema
