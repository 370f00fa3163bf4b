import ApiDescription.Combine.Combiner
import ApiDescription.Proofs.Entries.Table
import ApiDescription.Proofs.Fold

/-!
# The steps of merging

One relation for each operation on a `MergeState` that a conflict can stop says all that the operation
can do: `Decides` for the decision on one schema, `Inserts` for one component and `Places` for one
operation. `add_ok_iff` puts the parts of a whole source together. Nothing stops when
the strategy is not `error` (`exists_addAll_ok`).
-/

set_option autoImplicit false

namespace ApiDescription.MergeState

variable {strategy : ConflictStrategy} {service : String} {s t : MergeState}

/-! ## Conflicts -/

/-- The state with a conflict recorded as a warning and counted. -/
def record (c : Conflict) (s : MergeState) : MergeState :=
  { s with warnings := s.warnings ++ [c], conflicts := s.conflicts + 1 }

theorem settle_ok_iff {c : Conflict} :
    s.settle strategy c = .ok t ↔ strategy ≠ .error ∧ t = s.record c := by
  unfold settle
  by_cases h : strategy = .error
  · simp [h]
  · simp [h, record, eq_comm]

/-! ## Decisions on schemas -/

/-- What the decision on one schema more can be. -/
inductive Decides (strategy : ConflictStrategy) (service : String) (p : RenamePass) (name : String)
    (value : Json) : RenamePass → Prop
  /-- No earlier source has the name. -/
  | absent (h : p.state.component? schemaKind name = none) :
      Decides strategy service p name value { p with kept := p.kept ++ [(name, value)] }
  /-- An earlier source has the same schema under the name. -/
  | shared (existing : Json) (h : p.state.component? schemaKind name = some existing)
      (hsame : existing.same (p.renames.redirect value) = true) :
      Decides strategy service p name value
        { p with kept := p.kept ++ [(name, value)], shared := p.shared + 1 }
  /-- An earlier source has another schema under the name. -/
  | renamed (existing : Json) (h : p.state.component? schemaKind name = some existing)
      (hsame : existing.same (p.renames.redirect value) = false) (hs : strategy ≠ .error) :
      Decides strategy service p name value
        { p with
          state := p.state.record ⟨.schema name, service, p.state.owner schemaKind name⟩
          renames := Entries.put p.renames name (namespaced service name) }

theorem decides_of_decide {p q : RenamePass} {name : String} {value : Json}
    (h : decide strategy service p (name, value) = .ok q) :
    Decides strategy service p name value q := by
  simp only [decide] at h
  cases hc : p.state.component? schemaKind name with
  | none =>
    rw [hc] at h
    cases h
    exact .absent hc
  | some existing =>
    rw [hc] at h
    simp only at h
    cases hsame : existing.same (p.renames.redirect value) with
    | true =>
      rw [hsame, if_pos rfl] at h
      cases h
      exact .shared existing hc hsame
    | false =>
      rw [hsame, if_neg (by simp)] at h
      obtain ⟨u, hu, hq⟩ := bind_ok_iff.1 h
      obtain ⟨hs, rfl⟩ := settle_ok_iff.1 hu
      cases hq
      exact .renamed existing hc hsame hs

/-! ## Components -/

/-- The state with a component written, whatever stood there. -/
def writeComponent (service kind key : String) (value : Json) (s : MergeState) : MergeState :=
  { s with
    components := Entries.putAt s.components kind key value
    owners := ((kind, key), service) :: s.owners }

/-- What putting a component in can do. -/
inductive Inserts (strategy : ConflictStrategy) (service kind key : String) (value : Json)
    (s : MergeState) : MergeState → Prop
  /-- The key is new. -/
  | absent (h : s.component? kind key = none) :
      Inserts strategy service kind key value s (s.writeComponent service kind key value)
  /-- The component is there already. -/
  | shared (existing : Json) (h : s.component? kind key = some existing)
      (hsame : existing.same value = true) : Inserts strategy service kind key value s s
  /-- Another component gives way. -/
  | replaced (existing : Json) (h : s.component? kind key = some existing)
      (hsame : existing.same value = false) (hs : strategy ≠ .error) :
      Inserts strategy service kind key value s
        ((s.record ⟨.component kind key, service, s.owner kind key⟩).writeComponent service kind key
          value)

theorem inserts_of_insertComponent {kind key : String} {value : Json}
    (h : s.insertComponent strategy service kind key value = .ok t) :
    Inserts strategy service kind key value s t := by
  unfold insertComponent at h
  cases hc : s.component? kind key with
  | none =>
    rw [hc] at h
    cases h
    exact .absent hc
  | some existing =>
    rw [hc] at h
    simp only at h
    cases hsame : existing.same value with
    | true =>
      rw [hsame, if_pos rfl] at h
      cases h
      exact .shared existing hc hsame
    | false =>
      rw [hsame, if_neg (by simp)] at h
      cases hu : s.settle strategy ⟨.component kind key, service, s.owner kind key⟩ with
      | error c =>
        rw [hu] at h
        cases h
      | ok u =>
        rw [hu] at h
        obtain ⟨hs, rfl⟩ := settle_ok_iff.1 hu
        cases h
        exact .replaced existing hc hsame hs

/-! ## Operations -/

theorem get?_pathItem (s : MergeState) (path name : String) :
    Entries.get? (s.pathItem path) name = Entries.at? s.paths path name :=
  Entries.get?_getD_nil _ _ _

/-- What putting an operation in can do. -/
inductive Places (strategy : ConflictStrategy) (service path method : String) (value : Json)
    (s : MergeState) : MergeState → Prop
  /-- The path has no such operation. -/
  | absent (h : Entries.at? s.paths path method = none) :
      Places strategy service path method value s (s.putMember path method value)
  /-- The operation that was there gives way. -/
  | replaced (existing : Json) (h : Entries.at? s.paths path method = some existing)
      (hs : strategy ≠ .error) :
      Places strategy service path method value s
        ((s.record ⟨.operation method path, service,
          (Service.ofTags? (tagsOf existing)).getD unknownOwner⟩).putMember path method value)

theorem places_of_insertOperation {path method : String} {value : Json}
    (h : s.insertOperation strategy service path (method, value) = .ok t) :
    Places strategy service path method value s t := by
  unfold insertOperation at h
  simp only [get?_pathItem] at h
  cases hc : Entries.at? s.paths path method with
  | none =>
    rw [hc] at h
    cases h
    exact .absent hc
  | some existing =>
    rw [hc] at h
    obtain ⟨u, hu, hq⟩ := bind_ok_iff.1 h
    obtain ⟨hs, rfl⟩ := settle_ok_iff.1 hu
    cases hq
    exact .replaced existing hc hs

/-! ## Sources -/

/-- A source goes in by its four parts, one after the other. -/
theorem add_ok_iff {config : CombineConfig} {source : Source} :
    add config s source = .ok t ↔ ∃ decided renames inserted placed,
      s.schemaRenames config source.service source.document = .ok (decided, renames) ∧
      decided.mergeComponents config.conflictStrategy source.service renames
        (renames.redirect source.document) = .ok inserted ∧
      inserted.mergePaths config source (renames.redirect source.document) = .ok placed ∧
      t = placed.mergeTags source (renames.redirect source.document) := by
  unfold add
  constructor
  · intro h
    obtain ⟨⟨decided, renames⟩, hdecided, h⟩ := bind_ok_iff.1 h
    obtain ⟨inserted, hinserted, h⟩ := bind_ok_iff.1 h
    obtain ⟨placed, hplaced, h⟩ := bind_ok_iff.1 h
    cases h
    exact ⟨decided, renames, inserted, placed, hdecided, hinserted, hplaced, rfl⟩
  · rintro ⟨decided, renames, inserted, placed, hdecided, hinserted, hplaced, rfl⟩
    refine bind_ok_iff.2 ⟨(decided, renames), hdecided, ?_⟩
    refine bind_ok_iff.2 ⟨inserted, hinserted, ?_⟩
    exact bind_ok_iff.2 ⟨placed, hplaced, rfl⟩

/-! ## What whole parts hand on -/

/-- What holds at the start, and is handed on when a component is written and when one gives way, holds
when all components of a document are in. -/
theorem mergeComponents_invariant {P : MergeState → Prop} {renames : Renames} {document : Json}
    (h : s.mergeComponents strategy service renames document = .ok t) (start : P s)
    (write : ∀ u kind key value, P u → P (u.writeComponent service kind key value))
    (record : ∀ u kind key previous, P u → P (u.record ⟨.component kind key, service, previous⟩)) :
    P t := by
  refine foldlM_invariant h start ?_
  intro c _ u v hu hv
  cases inserts_of_insertComponent hv with
  | absent => exact write _ _ _ _ hu
  | shared => exact hu
  | replaced => exact write _ _ _ _ (record _ _ _ _ hu)

/-- What holds at the start, and is handed on when a member of a path is written and when an operation
gives way, holds when all paths of a document are in. -/
theorem mergePaths_invariant {P : MergeState → Prop} {config : CombineConfig} {source : Source}
    {document : Json} (h : s.mergePaths config source document = .ok t) (start : P s)
    (put : ∀ u path name value, P u → P (u.putMember path name value))
    (record : ∀ u method path service previous, P u →
      P (u.record ⟨.operation method path, service, previous⟩)) : P t := by
  have hfields : ∀ (path : String) (ms : List (String × Json)) (u : MergeState), P u →
      P (ms.foldl (fun s m => s.putMember path m.1 m.2) u) := by
    intro path ms
    induction ms with
    | nil => exact fun _ hu => hu
    | cons m ms ih => exact fun u hu => ih _ (put u path m.1 m.2 hu)
  refine foldlM_invariant h start ?_
  rintro ⟨path, item⟩ _ u v hu hv
  unfold mergeItem at hv
  simp only at hv
  split at hv
  · cases hv
    exact hu
  · refine foldlM_invariant hv (hfields _ _ u hu) ?_
    intro o _ u v hu hv
    cases places_of_insertOperation hv with
    | absent => exact put _ _ _ _ hu
    | replaced => exact put _ _ _ _ (record _ _ _ _ _ hu)

/-! ## Runs that nothing stops -/

theorem exists_settle_ok (hs : strategy ≠ .error) (c : Conflict) (s : MergeState) :
    ∃ t, s.settle strategy c = .ok t := ⟨_, settle_ok_iff.2 ⟨hs, rfl⟩⟩

theorem exists_decide_ok (hs : strategy ≠ .error) (service : String) (p : RenamePass)
    (schema : String × Json) : ∃ q, decide strategy service p schema = .ok q := by
  obtain ⟨name, value⟩ := schema
  simp only [decide]
  cases p.state.component? schemaKind name with
  | none => exact ⟨_, rfl⟩
  | some existing =>
    simp only
    split
    · exact ⟨_, rfl⟩
    · obtain ⟨u, hu⟩ := exists_settle_ok hs ⟨.schema name, service, p.state.owner schemaKind name⟩
        p.state
      exact ⟨_, bind_ok_iff.2 ⟨u, hu, rfl⟩⟩

theorem exists_decideAll_ok (hs : strategy ≠ .error) (service : String) (s : MergeState)
    (renames : Renames) (schemas : List (String × Json)) :
    ∃ q, decideAll strategy service s renames schemas = .ok q := by
  obtain ⟨p, hp⟩ := exists_foldlM_ok schemas (fun a _ q => exists_decide_ok hs service q a)
    { state := s, renames := renames }
  rw [decideAll, hp]
  simp only
  split
  · exact exists_decideAll_ok hs service p.state p.renames p.kept
  · exact ⟨_, rfl⟩
  termination_by schemas.length

theorem exists_schemaRenames_ok {config : CombineConfig} (hs : config.conflictStrategy ≠ .error)
    (service : String) (document : Json) (s : MergeState) :
    ∃ q, s.schemaRenames config service document = .ok q := by
  unfold schemaRenames
  split
  · exact exists_decideAll_ok hs service s [] _
  · exact ⟨_, rfl⟩

theorem exists_insertComponent_ok (hs : strategy ≠ .error) (service kind key : String) (value : Json)
    (s : MergeState) : ∃ t, s.insertComponent strategy service kind key value = .ok t := by
  unfold insertComponent
  split
  · exact ⟨_, rfl⟩
  · split
    · exact ⟨_, rfl⟩
    · obtain ⟨u, hu⟩ := exists_settle_ok hs ⟨.component kind key, service, s.owner kind key⟩ s
      rw [hu]
      exact ⟨_, rfl⟩

theorem exists_insertOperation_ok (hs : strategy ≠ .error) (service path : String)
    (operation : String × Json) (s : MergeState) :
    ∃ t, s.insertOperation strategy service path operation = .ok t := by
  obtain ⟨method, value⟩ := operation
  unfold insertOperation
  simp only
  split
  · next existing _ =>
    obtain ⟨u, hu⟩ := exists_settle_ok hs ⟨.operation method path, service,
      (Service.ofTags? (tagsOf existing)).getD unknownOwner⟩ s
    exact ⟨_, bind_ok_iff.2 ⟨u, hu, rfl⟩⟩
  · exact ⟨_, rfl⟩

theorem exists_mergeItem_ok {config : CombineConfig} (hs : config.conflictStrategy ≠ .error)
    (source : Source) (security : Option Json) (s : MergeState) (entry : String × Json) :
    ∃ t, s.mergeItem config source security entry = .ok t := by
  obtain ⟨path, item⟩ := entry
  unfold mergeItem
  simp only
  split
  · exact ⟨_, rfl⟩
  · exact exists_foldlM_ok _ (fun a _ u => exists_insertOperation_ok hs _ _ a u) _

theorem exists_add_ok {config : CombineConfig} (hs : config.conflictStrategy ≠ .error)
    (s : MergeState) (source : Source) : ∃ t, add config s source = .ok t := by
  obtain ⟨⟨decided, renames⟩, hdecided⟩ :=
    exists_schemaRenames_ok hs source.service source.document s
  obtain ⟨inserted, hinserted⟩ := exists_foldlM_ok
    (componentsOf (renames.redirect source.document))
    (fun a _ u => exists_insertComponent_ok hs source.service a.1 (componentKey renames a.1 a.2.1)
      a.2.2 u) decided
  obtain ⟨placed, hplaced⟩ := exists_foldlM_ok
    (Source.membersAt (renames.redirect source.document) ["paths"])
    (fun a _ u => exists_mergeItem_ok hs source
      (documentSecurity? (renames.redirect source.document)) u a) inserted
  exact ⟨_, add_ok_iff.2 ⟨decided, renames, inserted, placed, hdecided, hinserted, hplaced, rfl⟩⟩

theorem exists_addAll_ok {config : CombineConfig} (hs : config.conflictStrategy ≠ .error)
    (sources : List Source) : ∃ s, addAll config sources = .ok s :=
  exists_foldlM_ok sources (fun a _ u => exists_add_ok hs u a) {}

end ApiDescription.MergeState
