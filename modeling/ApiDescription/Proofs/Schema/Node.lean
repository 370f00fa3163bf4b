import ApiDescription.Schema.Check

/-!
# Nodes of schema trees

`Schema.children` are the schemas right inside a schema, each with the step to it, and `Schema.Node` are all
schemas of a tree with their places. The searches of a tree look at the root and then into the children one
after the other, and write the step in front of what they find there (`firstError?_eq`,
`exampleConflict?_eq`). So they find nothing exactly when no node has what they look for (`check_ok_iff`,
`exampleConflict?_eq_none_iff`).
-/

set_option autoImplicit false

namespace ApiDescription

/-! ## Steps -/

/-- A step from a schema to one inside it. -/
inductive SchemaStep where
  | items
  | property (name : String)
  | member (keyword : String) (index : Nat)
  deriving DecidableEq, Repr

/-- The written step. -/
def SchemaStep.text : SchemaStep → String
  | .items => "items"
  | .property name => "properties." ++ name
  | .member keyword index => keyword ++ "[" ++ toString index ++ "]"

@[simp] theorem SchemaStep.text_items : items.text = "items" := rfl

@[simp] theorem SchemaStep.text_negated : (member "not" 0).text = "not[0]" := by decide

namespace Schema

/-! ## Children -/

/-- The members of a composition keyword with the steps to them, the first of which has the given index. -/
def membersFrom (keyword : String) (index : Nat) : List Schema → List (SchemaStep × Schema)
  | [] => []
  | s :: ss => (.member keyword index, s) :: membersFrom keyword (index + 1) ss

/-- The schemas right inside a schema with the steps to them, in the order in which they are looked at. -/
def children : Schema → List (SchemaStep × Schema)
  | .primitive _ _ | .reference _ _ => []
  | .array _ item => [(.items, item)]
  | .object _ ps => ps.map fun p => (.property p.1, p.2)
  | .composition _ one all any n =>
    membersFrom "oneOf" 0 one ++ membersFrom "allOf" 0 all ++ membersFrom "anyOf" 0 any ++
      n.toList.map fun s => (.member "not" 0, s)

/-- A schema stands right inside another one. -/
def HasChild (s c : Schema) : Prop := ∃ step, (step, c) ∈ s.children

theorem exists_mem_membersFrom_iff {keyword : String} {index : Nat} {ss : List Schema} {c : Schema} :
    (∃ step, (step, c) ∈ membersFrom keyword index ss) ↔ c ∈ ss := by
  induction ss generalizing index with
  | nil => simp [membersFrom]
  | cons s ss ih =>
    simp only [membersFrom, List.mem_cons, Prod.mk.injEq, exists_or, ih]
    refine or_congr_left ⟨?_, ?_⟩
    · rintro ⟨-, -, rfl⟩
      rfl
    · rintro rfl
      exact ⟨_, rfl, rfl⟩

theorem hasChild_object_iff {f : Facets} {ps : List (String × Schema)} {c : Schema} :
    (Schema.object f ps).HasChild c ↔ ∃ p ∈ ps, p.2 = c := by
  simp only [HasChild, children, List.mem_map, Prod.mk.injEq]
  constructor
  · rintro ⟨-, p, hp, -, rfl⟩
    exact ⟨p, hp, rfl⟩
  · rintro ⟨p, hp, rfl⟩
    exact ⟨_, p, hp, rfl, rfl⟩

theorem hasChild_composition_iff {f : Facets} {one all any : List Schema} {n : Option Schema}
    {c : Schema} : (Schema.composition f one all any n).HasChild c ↔
      ((c ∈ one ∨ c ∈ all) ∨ c ∈ any) ∨ n = some c := by
  have hn : (∃ step, (step, c) ∈ n.toList.map fun s => (SchemaStep.member "not" 0, s)) ↔ n = some c := by
    cases n with
    | none => simp
    | some s => simp [eq_comm]
  simp only [HasChild, children, List.mem_append, exists_or, exists_mem_membersFrom_iff, hn]

@[simp] theorem children_mapFacets (g : Facets → Facets) (s : Schema) :
    (s.mapFacets g).children = s.children := by
  cases s <;> rfl

/-- What holds of a schema when it holds of its children holds of all schemas. -/
@[elab_as_elim]
theorem induct {motive : Schema → Prop}
    (step : ∀ s : Schema, (∀ c ∈ s.children, motive c.2) → motive s) (s : Schema) : motive s := by
  refine @Schema.rec motive (fun ps => ∀ p ∈ ps, motive p.2) (fun ss => ∀ s ∈ ss, motive s)
    (fun n => ∀ s, n = some s → motive s) (fun p => motive p.2) ?primitive ?array ?object ?composition
    ?reference (by simp) ?properties (by simp) ?members (by simp) ?negated (fun _ _ h => h) s
  case primitive => exact fun f t => step _ fun _ hc => nomatch hc
  case reference => exact fun f name => step _ fun _ hc => nomatch hc
  case array =>
    intro f item hitem
    refine step _ fun c hc => ?_
    rw [List.mem_singleton.1 hc]
    exact hitem
  case object =>
    intro f ps hps
    refine step _ fun c hc => ?_
    obtain ⟨p, hp, hpc⟩ := hasChild_object_iff.1 ⟨c.1, hc⟩
    exact hpc ▸ hps p hp
  case composition =>
    intro f one all any n hone hall hany hn
    refine step _ fun c hc => ?_
    obtain ((h | h) | h) | h := hasChild_composition_iff.1 ⟨c.1, hc⟩
    · exact hone _ h
    · exact hall _ h
    · exact hany _ h
    · exact hn _ h
  case properties =>
    intro p ps hp hps q hq
    rcases List.mem_cons.1 hq with rfl | hq
    · exact hp
    · exact hps q hq
  case members =>
    intro s ss hs hss t ht
    rcases List.mem_cons.1 ht with rfl | ht
    · exact hs
    · exact hss t ht
  case negated =>
    rintro s hs t ht
    cases ht
    exact hs

/-! ## Nodes -/

/-- The schemas of a tree with the places where they stand. -/
inductive Node : Schema → List SchemaStep → Schema → Prop
  | root (s : Schema) : Node s [] s
  | inside {s c t : Schema} {step : SchemaStep} {place : List SchemaStep}
      (hc : (step, c) ∈ s.children) (h : Node c place t) : Node s (step :: place) t

/-- What holds at every node holds at the root and at every node of a child. -/
theorem forall_node_iff {s : Schema} {P : Schema → Prop} :
    (∀ place t, s.Node place t → P t) ↔
      P s ∧ ∀ c ∈ s.children, ∀ place t, c.2.Node place t → P t := by
  constructor
  · exact fun h => ⟨h [] s (.root s), fun c hc place t ht => h _ t (.inside (show (c.1, c.2) ∈ _ from hc) ht)⟩
  · rintro ⟨hs, hc⟩ place t ht
    cases ht with
    | root => exact hs
    | inside hstep ht => exact hc _ hstep _ t ht

/-! ## The search for faults -/

theorem firstErrorOfMembers?_eq (keyword : String) (index : Nat) (ss : List Schema) :
    firstErrorOfMembers? keyword index ss =
      (membersFrom keyword index ss).findSome? fun c => (firstError? c.2).map (·.under c.1.text) := by
  induction ss generalizing index with
  | nil => rfl
  | cons s ss ih =>
    rw [firstErrorOfMembers?, membersFrom, List.findSome?_cons, ih]
    cases firstError? s <;> rfl

theorem firstErrorOfProperties?_eq (ps : List (String × Schema)) :
    firstErrorOfProperties? ps = (ps.map fun p => (SchemaStep.property p.1, p.2)).findSome?
      fun c => (firstError? c.2).map (·.under c.1.text) := by
  induction ps with
  | nil => rfl
  | cons p ps ih =>
    rw [firstErrorOfProperties?, List.map_cons, List.findSome?_cons, ih]
    cases firstError? p.2 <;> rfl

/-- The first fault of a tree is the first of its root, or else that of the first child with one. -/
theorem firstError?_eq (s : Schema) :
    s.firstError? = (s.facets.faults.head?.map .own).or
      (s.children.findSome? fun c => (firstError? c.2).map (·.under c.1.text)) := by
  cases s with
  | primitive f t => simp [firstError?, facets, children]
  | reference f name => simp [firstError?, facets, children]
  | array f item => simp [firstError?, facets, children]
  | object f ps => rw [firstError?, firstErrorOfProperties?_eq, facets, children]
  | composition f one all any n =>
    have hn : firstErrorOfNegated? n = (n.toList.map fun s => (SchemaStep.member "not" 0, s)).findSome?
        fun c => (firstError? c.2).map (·.under c.1.text) := by
      cases n <;> simp [firstErrorOfNegated?]
    simp only [firstError?, firstErrorOfMembers?_eq, hn, facets, children, List.findSome?_append,
      Option.or_assoc]

theorem firstError?_eq_none_iff (s : Schema) :
    s.firstError? = none ↔ ∀ place t, s.Node place t → t.facets.faults = [] := by
  induction s using induct with
  | step s ih =>
    rw [forall_node_iff (P := fun t => t.facets.faults = []), firstError?_eq, Option.or_eq_none_iff,
      Option.map_eq_none_iff, List.head?_eq_none_iff, List.findSome?_eq_none_iff]
    refine and_congr_right fun _ => forall₂_congr fun c hc => ?_
    rw [Option.map_eq_none_iff, ih c hc]

/-- A tree passes the check exactly when no node has a fault. -/
theorem check_ok_iff (s : Schema) :
    s.check = .ok () ↔ ∀ place t, s.Node place t → t.facets.faults = [] := by
  rw [← firstError?_eq_none_iff, check]
  cases s.firstError? <;> simp

/-! ## The search for examples of both kinds -/

theorem conflictOfMembers?_eq (keyword : String) (index : Nat) (ss : List Schema) :
    conflictOfMembers? keyword index ss =
      (membersFrom keyword index ss).findSome? fun c => (exampleConflict? c.2).map (innerLocation c.1.text) := by
  induction ss generalizing index with
  | nil => rfl
  | cons s ss ih =>
    rw [conflictOfMembers?, membersFrom, List.findSome?_cons, ih]
    cases exampleConflict? s <;> rfl

theorem conflictOfProperties?_eq (ps : List (String × Schema)) :
    conflictOfProperties? ps = (ps.map fun p => (SchemaStep.property p.1, p.2)).findSome?
      fun c => (exampleConflict? c.2).map (innerLocation c.1.text) := by
  induction ps with
  | nil => rfl
  | cons p ps ih =>
    rw [conflictOfProperties?, List.map_cons, List.findSome?_cons, ih]
    cases exampleConflict? p.2 <;> rfl

/-- The location of the first schema with both is that of the root, or else lies in the first child that has one. -/
theorem exampleConflict?_eq (s : Schema) :
    s.exampleConflict? = if hasBothExamples s.facets then some "" else
      s.children.findSome? fun c => (exampleConflict? c.2).map (innerLocation c.1.text) := by
  cases s with
  | primitive f t => rfl
  | reference f name => rfl
  | array f item => simp [exampleConflict?, facets, children]
  | object f ps => rw [exampleConflict?, conflictOfProperties?_eq, facets, children]
  | composition f one all any n =>
    have hn : conflictOfNegated? n = (n.toList.map fun s => (SchemaStep.member "not" 0, s)).findSome?
        fun c => (exampleConflict? c.2).map (innerLocation c.1.text) := by
      cases n <;> simp [conflictOfNegated?]
    simp only [exampleConflict?, conflictOfMembers?_eq, hn, facets, children, List.findSome?_append]

theorem hasBothExamples_eq_false_iff (f : Facets) :
    hasBothExamples f = false ↔ ¬ (f.sample ≠ none ∧ f.examples ≠ []) := by
  cases hs : f.sample <;> cases he : f.examples <;> simp [hasBothExamples, hs, he]

theorem exampleConflict?_eq_none_iff (s : Schema) :
    s.exampleConflict? = none ↔ ∀ place t, s.Node place t → hasBothExamples t.facets = false := by
  induction s using induct with
  | step s ih =>
    rw [forall_node_iff (P := fun t => hasBothExamples t.facets = false), exampleConflict?_eq]
    cases hboth : hasBothExamples s.facets with
    | true => simp
    | false =>
      simp only [Bool.false_eq_true, if_false, true_and, List.findSome?_eq_none_iff,
        Option.map_eq_none_iff]
      exact forall₂_congr ih

end Schema

end ApiDescription
