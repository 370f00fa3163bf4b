import ApiDescription.Proofs.Combine.Redirect
import ApiDescription.Proofs.Combine.Step

/-!
# Which schemas are renamed

`decideAll` goes over the schemas of a source until no further one is renamed. `decideAll_invariant` is
the induction over all its rounds: what every decision hands on, the outcome has. From it comes that
deciding changes what is reported and nothing else (`sameContent_of_schemaRenames`), and that a new name
is always `<service>.<name>` of a schema of the source (`renamesOf_schemaRenames`). The last round finds
every schema that keeps its name free, or the same as an earlier one (`kept_of_schemaRenames`).
-/

set_option autoImplicit false

namespace ApiDescription.MergeState

variable {strategy : ConflictStrategy} {config : CombineConfig} {service : String}
  {s t : MergeState} {renames r : Renames} {schemas : List (String × Json)}

/-! ## Rounds -/

/-- What holds at the start and is handed on by every decision holds of the outcome. -/
theorem decideAll_invariant {P : MergeState → Renames → Prop}
    (h : decideAll strategy service s renames schemas = .ok (t, r)) (start : P s renames)
    (hand : ∀ p name value q, P p.state p.renames → Decides strategy service p name value q →
      name ∈ Entries.keys schemas → P q.state q.renames)
    (finish : ∀ s r n, P s r → P { s with mergedSchemas := n } r) : P t r := by
  -- a further round only sees schemas that were kept, so names stay among those of the source
  induction hn : schemas.length using Nat.strongRecOn generalizing s renames schemas with
  | ind n ih =>
    rw [decideAll] at h
    cases hp : schemas.foldlM (decide strategy service) { state := s, renames := renames } with
    | error c =>
      rw [hp] at h
      cases h
    | ok p =>
      have hround : P p.state p.renames ∧ p.kept ⊆ schemas :=
        foldlM_invariant (P := fun p => P p.state p.renames ∧ p.kept ⊆ schemas) hp
          ⟨start, List.nil_subset _⟩ fun a ha u v hu hv => by
            have hd := decides_of_decide hv
            refine ⟨hand u a.1 a.2 v hu.1 hd (Entries.mem_keys_of_mem ha), ?_⟩
            cases hd with
            | renamed => exact hu.2
            | absent =>
              exact List.append_subset.2 ⟨hu.2, List.cons_subset.2 ⟨ha, List.nil_subset _⟩⟩
            | shared =>
              exact List.append_subset.2 ⟨hu.2, List.cons_subset.2 ⟨ha, List.nil_subset _⟩⟩
      rw [hp] at h
      simp only at h
      split at h
      · next hlt =>
        refine ih p.kept.length (hn ▸ hlt) h hround.1 ?_ rfl
        intro p' name value q hP hd hm
        exact hand p' name value q hP hd (List.map_subset _ hround.2 hm)
      · cases h
        exact finish _ _ _ hround.1

/-- What holds at the start, and is handed on when a renamed schema is recorded, holds when all schemas are
decided. -/
theorem schemaRenames_invariant {P : MergeState → Prop} {document : Json}
    (h : s.schemaRenames config service document = .ok (t, r)) (start : P s)
    (record : ∀ u name previous, P u → P (u.record ⟨.schema name, service, previous⟩))
    (finish : ∀ u n, P u → P { u with mergedSchemas := n }) : P t := by
  unfold schemaRenames at h
  simp only at h
  split at h
  · refine decideAll_invariant (P := fun t _ => P t) h start ?_ fun u _ n hu => finish u n hu
    intro p name value q hp hd _
    cases hd with
    | absent => exact hp
    | shared => exact hp
    | renamed => exact record _ _ _ hp
  · cases h
    exact start

/-! ## What deciding leaves alone -/

/-- The states hold the same; only what they report may differ. -/
structure SameContent (s t : MergeState) : Prop where
  paths : t.paths = s.paths
  components : t.components = s.components
  owners : t.owners = s.owners
  tags : t.tags = s.tags

theorem SameContent.refl (s : MergeState) : SameContent s s := ⟨rfl, rfl, rfl, rfl⟩

theorem SameContent.trans {s t u : MergeState} (h : SameContent s t) (h' : SameContent t u) :
    SameContent s u :=
  ⟨h'.paths.trans h.paths, h'.components.trans h.components, h'.owners.trans h.owners,
    h'.tags.trans h.tags⟩

theorem SameContent.component? {s t : MergeState} (h : SameContent s t) (kind key : String) :
    t.component? kind key = s.component? kind key := by
  unfold MergeState.component?
  rw [h.components]

theorem sameContent_of_decides {p q : RenamePass} {name : String} {value : Json}
    (h : Decides strategy service p name value q) : SameContent p.state q.state := by
  cases h <;> exact ⟨rfl, rfl, rfl, rfl⟩

theorem sameContent_of_schemaRenames {document : Json}
    (h : s.schemaRenames config service document = .ok (t, r)) : SameContent s t :=
  schemaRenames_invariant (P := fun t => SameContent s t) h (.refl s)
    (fun _ _ _ hu => hu.trans ⟨rfl, rfl, rfl, rfl⟩) fun _ _ hu => hu.trans ⟨rfl, rfl, rfl, rfl⟩

/-! ## New names -/

theorem dot_mem_namespaced (service name : String) : '.' ∈ (namespaced service name).toList := by
  simp [namespaced, String.toList_append]

/-- Schemas of a service are renamed to `<service>.<name>`, and nothing else is. -/
structure RenamesOf (service : String) (schemas : List (String × Json)) (r : Renames) : Prop where
  declared : ∀ name ∈ Entries.keys r, name ∈ Entries.keys schemas
  named : ∀ name new, Entries.get? r name = some new → new = namespaced service name

theorem RenamesOf.put {name : String} (h : RenamesOf service schemas r)
    (hm : name ∈ Entries.keys schemas) :
    RenamesOf service schemas (Entries.put r name (namespaced service name)) where
  declared := by
    intro n hn
    rw [Entries.keys_put] at hn
    split at hn
    · exact h.declared n hn
    · rcases List.mem_append.1 hn with hn | hn
      · exact h.declared n hn
      · rw [List.mem_singleton.1 hn]
        exact hm
  named := by
    intro n new hn
    by_cases hnn : n = name
    · subst hnn
      rw [Entries.get?_put_self] at hn
      exact (Option.some.inj hn).symm
    · rw [Entries.get?_put_ne _ _ hnn] at hn
      exact h.named n new hn

theorem renamesOf_map (service : String) (schemas : List (String × Json)) :
    RenamesOf service schemas (schemas.map fun m => (m.1, namespaced service m.1)) where
  declared := by simp [Entries.keys, Function.comp_def]
  named := by
    intro name new h
    rw [Entries.get?_map fun name _ => namespaced service name] at h
    obtain ⟨_, _, rfl⟩ := Option.map_eq_some_iff.1 h
    rfl

theorem renamesOf_schemaRenames {document : Json}
    (h : s.schemaRenames config service document = .ok (t, r)) :
    RenamesOf service (Source.membersAt document ["components", schemaKind]) r := by
  unfold schemaRenames at h
  simp only at h
  split at h
  · refine decideAll_invariant
      (P := fun _ r => RenamesOf service (Source.membersAt document ["components", schemaKind]) r)
      h ⟨by simp [Entries.keys], by simp⟩ ?_ fun _ _ _ hr => hr
    intro p name value q hp hd hm
    cases hd with
    | absent => exact hp
    | shared => exact hp
    | renamed => exact hp.put hm
  · cases h
    exact renamesOf_map _ _

theorem get?_schemaRenames_of_not_merge {document : Json} (hm : config.mergeSchemas = false)
    (h : s.schemaRenames config service document = .ok (t, r)) {name : String}
    (hn : name ∈ Entries.keys (Source.membersAt document ["components", schemaKind])) :
    Entries.get? r name = some (namespaced service name) := by
  unfold schemaRenames at h
  rw [if_neg (by simp [hm])] at h
  cases h
  rw [Entries.get?_map fun name _ => namespaced service name]
  obtain ⟨value, hv⟩ := Option.isSome_iff_exists.1 ((Entries.get?_isSome_iff _ _).2 hn)
  rw [hv]
  rfl

/-! ## Schemas that keep their names -/

/-- A schema can keep its name: no earlier source has the name, or has the same schema under it. -/
def Keeps (s : MergeState) (r : Renames) (schema : String × Json) : Prop :=
  ∀ existing, s.component? schemaKind schema.1 = some existing →
    existing.same (r.redirect schema.2) = true

/-- A round renames no name again, and every schema of it is kept or renamed; if all are kept, nothing
is renamed and all could be. -/
structure Round (s : MergeState) (renames : Renames) (done : List (String × Json))
    (p : RenamePass) : Prop where
  content : SameContent s p.state
  covered : ∀ m ∈ done, m ∈ p.kept ∨ m.1 ∈ Entries.keys p.renames
  length_le : p.kept.length ≤ done.length
  still : p.kept.length = done.length → p.renames = renames ∧ ∀ m ∈ done, Keeps s renames m

theorem Round.step {done : List (String × Json)} {p q : RenamePass} {name : String} {value : Json}
    (h : Round s renames done p) (hd : Decides strategy service p name value q) :
    Round s renames (done ++ [(name, value)]) q := by
  have hcontent := h.content.trans (sameContent_of_decides hd)
  have hcomponent := h.content.component? schemaKind name
  have hlast : ∀ {m}, m ∈ done ++ [(name, value)] → m ∈ done ∨ m = (name, value) := by
    intro m hm
    simpa using hm
  -- only `renamed` keeps one schema less than it goes over, which makes `still` vacuous
  cases hd with
  | absent hnone =>
    refine ⟨hcontent, ?_, ?_, ?_⟩
    · intro m hm
      rcases hlast hm with hm | rfl
      · exact (h.covered m hm).imp_left (List.mem_append_left _)
      · exact Or.inl (by simp)
    · simpa using h.length_le
    · intro hl
      obtain ⟨hr, hk⟩ := h.still (by simpa using hl)
      refine ⟨hr, ?_⟩
      intro m hm
      rcases hlast hm with hm | rfl
      · exact hk m hm
      · intro existing he
        rw [← hcomponent, hnone] at he
        cases he
  | shared existing hsome hsame =>
    refine ⟨hcontent, ?_, ?_, ?_⟩
    · intro m hm
      rcases hlast hm with hm | rfl
      · exact (h.covered m hm).imp_left (List.mem_append_left _)
      · exact Or.inl (by simp)
    · simpa using h.length_le
    · intro hl
      obtain ⟨hr, hk⟩ := h.still (by simpa using hl)
      refine ⟨hr, ?_⟩
      intro m hm
      rcases hlast hm with hm | rfl
      · exact hk m hm
      · intro other he
        rw [← hcomponent, hsome] at he
        cases he
        rw [← hr]
        exact hsame
  | renamed existing hsome hsame hs =>
    refine ⟨hcontent, ?_, ?_, ?_⟩
    · intro m hm
      rcases hlast hm with hm | rfl
      · refine (h.covered m hm).imp_right fun hk => ?_
        rw [Entries.keys_put]
        split
        · exact hk
        · exact List.mem_append_left _ hk
      · refine Or.inr ?_
        rw [Entries.keys_put]
        split
        · assumption
        · simp
    · have := h.length_le
      simp
      omega
    · intro hl
      have := h.length_le
      simp at hl
      omega

theorem round_of_foldlM {p : RenamePass}
    (h : schemas.foldlM (decide strategy service) { state := s, renames := renames } = .ok p) :
    Round s renames schemas p :=
  foldlM_induct (motive := fun done p => Round s renames done p)
    ⟨.refl s, by simp, by simp, by simp⟩
    (fun _ _ _ _ _ hu hv => hu.step (decides_of_decide hv)) h

theorem keys_subset_of_decideAll
    (h : decideAll strategy service s renames schemas = .ok (t, r)) :
    Entries.keys renames ⊆ Entries.keys r := by
  refine decideAll_invariant (P := fun _ r => Entries.keys renames ⊆ Entries.keys r) h
    (List.Subset.refl _) ?_ fun _ _ _ hr => hr
  intro p name value q hp hd _
  cases hd with
  | absent => exact hp
  | shared => exact hp
  | renamed =>
    rw [Entries.keys_put]
    split
    · exact hp
    · exact List.subset_append_of_subset_left _ hp

theorem keeps_of_decideAll (h : decideAll strategy service s renames schemas = .ok (t, r)) :
    ∀ m ∈ schemas, m.1 ∉ Entries.keys r → Keeps s r m := by
  induction hn : schemas.length using Nat.strongRecOn generalizing s renames schemas with
  | ind n ih =>
    rw [decideAll] at h
    cases hp : schemas.foldlM (decide strategy service) { state := s, renames := renames } with
    | error c =>
      rw [hp] at h
      cases h
    | ok p =>
      have hround := round_of_foldlM hp
      rw [hp] at h
      simp only at h
      split at h
      · next hlt =>
        intro m hm hr
        -- what this round renamed stays renamed, so `m` goes on to the next one
        have hk : m ∈ p.kept := by
          rcases hround.covered m hm with hk | hk
          · exact hk
          · exact absurd (keys_subset_of_decideAll h hk) hr
        intro existing he
        rw [← hround.content.component?] at he
        exact ih p.kept.length (hn ▸ hlt) h rfl m hk hr existing he
      · next hge =>
        -- the last round kept all, so it decided with the renames that it leaves
        have hlen := hround.length_le
        obtain ⟨hsame, hkeeps⟩ := hround.still (by omega)
        cases h
        intro m hm _
        rw [hsame]
        exact hkeeps m hm

/-- A schema that is not renamed is new, or the same as an earlier one. -/
theorem kept_of_schemaRenames {document : Json}
    (h : s.schemaRenames config service document = .ok (t, r)) {m : String × Json}
    (hm : m ∈ Source.membersAt document ["components", schemaKind])
    (hr : m.1 ∉ Entries.keys r) : Keeps s r m := by
  unfold schemaRenames at h
  simp only at h
  split at h
  · exact keeps_of_decideAll h m hm hr
  · cases h
    refine absurd (Entries.mem_keys_of_mem hm) ?_
    simpa [Entries.keys, Function.comp_def] using hr

end ApiDescription.MergeState
