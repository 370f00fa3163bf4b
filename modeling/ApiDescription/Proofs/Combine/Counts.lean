import ApiDescription.Proofs.Combine.Compatible
import ApiDescription.Proofs.Combine.Document

/-!
# What a combiner counts

Every operation that the filter lets through either stands in the combined document or was overridden there
by a later one: a write that puts an operation in adds one to those that stand, or one to the warnings
(`operations_placeWrite`), and nothing else moves either number (`operations_addAll`). Conflicts are counted
when their warnings are recorded, so the two agree after every call on a combiner, also after one that fails
(`combiner_stays_balanced`).
-/

set_option autoImplicit false

namespace ApiDescription

/-- The subject is an operation. -/
def ConflictSubject.isOperation : ConflictSubject → Bool
  | .operation _ _ => true
  | _ => false

namespace MergeState

variable {config : CombineConfig} {strategy : ConflictStrategy} {service : String}
  {sources : List Source} {s t : MergeState}

/-! ## Warnings and conflicts -/

/-- As many conflicts are counted as there are warnings. -/
def Tallied (s : MergeState) : Prop := s.conflicts = s.warnings.length

theorem Tallied.record (h : Tallied s) (c : Conflict) : Tallied (s.record c) := by
  unfold Tallied MergeState.record at *
  rw [List.length_append, List.length_singleton, h]

theorem tallied_add {source : Source} (hs : Tallied s) (h : add config s source = .ok t) :
    Tallied t := by
  obtain ⟨decided, renames, inserted, placed, hd, hi, hp, rfl⟩ := add_ok_iff.1 h
  have hdecided : Tallied decided :=
    schemaRenames_invariant hd hs (fun _ _ _ hu => hu.record _) fun _ _ hu => hu
  have hinserted : Tallied inserted :=
    mergeComponents_invariant hi hdecided (fun _ _ _ _ hu => hu) fun _ _ _ _ hu => hu.record _
  have hplaced : Tallied placed :=
    mergePaths_invariant hp hinserted (fun _ _ _ _ hu => hu) fun _ _ _ _ _ hu => hu.record _
  exact hplaced

theorem tallied_addAll (h : addAll config sources = .ok s) : Tallied s :=
  foldlM_invariant h rfl fun _ _ _ _ hu hv => tallied_add hu hv

/-! ## Operations that stand and operations that gave way -/

/-- How many operations stand in the path items. -/
def operationsIn (paths : List (String × List (String × Json))) : Nat :=
  (paths.map fun e => e.2.countP fun m => DocumentFault.isMethod m.1).sum

/-- How many operations gave way to a later one. -/
def overridden (s : MergeState) : Nat := s.warnings.countP (·.subject.isOperation)

theorem operationsIn_putAt (paths : List (String × List (String × Json))) (path name : String)
    (value : Json) :
    operationsIn (Entries.putAt paths path name value) = operationsIn paths +
      if DocumentFault.isMethod name = true ∧ Entries.at? paths path name = none then 1 else 0 := by
  have hitems := Entries.sum_map_put
    (fun _ (item : List (String × Json)) => item.countP fun m => DocumentFault.isMethod m.1) paths path
    (Entries.put ((Entries.get? paths path).getD []) name value)
  have hitem := Entries.countP_put DocumentFault.isMethod ((Entries.get? paths path).getD []) name value
  rw [Entries.get?_getD_nil] at hitem
  unfold operationsIn Entries.putAt
  cases hrow : Entries.get? paths path with
  | none =>
    rw [hrow] at hitems hitem
    simp only [Option.map_none, Option.getD_none, List.countP_nil] at hitems hitem ⊢
    omega
  | some row =>
    rw [hrow] at hitems hitem
    simp only [Option.map_some, Option.getD_some] at hitems hitem ⊢
    omega

theorem overridden_record (c : Conflict) (s : MergeState) :
    overridden (s.record c) = overridden s + if c.subject.isOperation = true then 1 else 0 := by
  simp [overridden, record, List.countP_append, List.countP_singleton]

/-- An operation that is put in stands besides those that stood, or in place of one that is recorded; anything
else changes neither number. -/
theorem operations_placeWrite {w : (String × String) × Json}
    (h : placeWrite strategy service s w = .ok t) :
    operationsIn t.paths + overridden t = operationsIn s.paths + overridden s +
      if DocumentFault.isMethod w.1.2 = true then 1 else 0 := by
  unfold placeWrite at h
  cases hmethod : DocumentFault.isMethod w.1.2 with
  | false =>
    rw [hmethod] at h
    cases h
    have hpaths := operationsIn_putAt s.paths w.1.1 w.1.2 w.2
    rw [hmethod] at hpaths
    show operationsIn (Entries.putAt s.paths w.1.1 w.1.2 w.2) + overridden s = _
    simpa using hpaths
  | true =>
    rw [hmethod, if_pos rfl] at h
    have hpaths := operationsIn_putAt s.paths w.1.1 w.1.2 w.2
    rw [hmethod] at hpaths
    have hplaces := places_of_insertOperation h
    rw [paths_of_places hplaces, hpaths]
    cases hplaces with
    | absent hnone =>
      simp only [hnone, and_self, if_true]
      show operationsIn s.paths + 1 + overridden s = _
      omega
    | replaced existing hsome =>
      have hrecord := overridden_record ⟨.operation w.1.2 w.1.1, service,
        (Service.ofTags? (tagsOf existing)).getD unknownOwner⟩ s
      simp only [hsome, reduceCtorEq, and_false, if_false, if_true, ConflictSubject.isOperation]
        at hrecord ⊢
      show operationsIn s.paths + 0 + overridden (s.record _) = _
      omega

theorem operations_foldlM_placeWrite {writes : List ((String × String) × Json)}
    (h : writes.foldlM (placeWrite strategy service) s = .ok t) :
    operationsIn t.paths + overridden t = operationsIn s.paths + overridden s +
      writes.countP fun w => DocumentFault.isMethod w.1.2 := by
  induction writes generalizing s with
  | nil =>
    cases h
    rfl
  | cons w writes ih =>
    obtain ⟨u, hu, hr⟩ := foldlM_cons_ok.1 h
    rw [ih hr, operations_placeWrite hu, List.countP_cons]
    omega

theorem overridden_of_schemaRenames {document : Json} {r : Renames}
    (h : s.schemaRenames config service document = .ok (t, r)) : overridden t = overridden s :=
  schemaRenames_invariant (P := fun t => overridden t = overridden s) h rfl
    (fun u _ _ hu => (overridden_record _ u).trans hu) fun _ _ hu => hu

theorem overridden_of_mergeComponents {r : Renames} {document : Json}
    (h : s.mergeComponents strategy service r document = .ok t) : overridden t = overridden s :=
  mergeComponents_invariant (P := fun t => overridden t = overridden s) h rfl
    (fun _ _ _ _ hu => hu) fun u _ _ _ hu => (overridden_record _ u).trans hu

/-! ## Operations that the filter lets through -/

/-- The operations of a source that the filter lets through, with their methods. -/
def allowedOperations (config : CombineConfig) (source : Source) : List (String × Json) :=
  (Source.membersAt source.document ["paths"]).flatMap fun e =>
    (DocumentFault.operationsOf e.2).filter fun o => config.tagFilter.allows (tagsOf o.2)

theorem length_keptOperations (source : Source) :
    (keptOperations config source).length = (allowedOperations config source).length := by
  simp only [keptOperations, keptOf, allowedOperations, List.length_flatMap, List.length_map]

/-- Redirecting lets neither more nor fewer operations through. -/
theorem length_allowedOperations_settled (earlier : List Source) (source : Source) :
    (allowedOperations config (settled config earlier source)).length =
      (allowedOperations config source).length := by
  have hpaths : Source.membersAt (settled config earlier source).document ["paths"] =
      (Source.membersAt source.document ["paths"]).map fun m =>
        (m.1, (renamesBehind config earlier source).redirectMember m.1 m.2) :=
    Renames.membersAt_redirect _ _ (by decide)
  unfold allowedOperations
  rw [hpaths, List.flatMap_map, List.length_flatMap, List.length_flatMap]
  congr 1
  refine List.map_congr_left fun e _ => ?_
  obtain ⟨f, htags, -, hops⟩ := Renames.operationsOf_redirectMember
    (renamesBehind config earlier source) e.1 e.2
  rw [hops, List.filter_map, List.length_map]
  simp only [Function.comp_def, htags]

theorem operations_add {earlier : List Source} {source : Source} (hs : addAll config earlier = .ok s)
    (h : add config s source = .ok t) :
    operationsIn t.paths + overridden t = operationsIn s.paths + overridden s +
      (allowedOperations config source).length := by
  obtain ⟨decided, inserted, placed, hd, hi, hp, rfl⟩ := add_behind hs h
  have hpaths : inserted.paths = s.paths :=
    (paths_of_mergeComponents hi).trans (sameContent_of_schemaRenames hd).paths
  have hoverridden : overridden inserted = overridden s :=
    (overridden_of_mergeComponents hi).trans (overridden_of_schemaRenames hd)
  have hplaced : (sourceWrites config (settled config earlier source)).foldlM
      (placeWrite config.conflictStrategy source.service) inserted = .ok placed :=
    (mergePaths_eq_foldlM (settled config earlier source) inserted).symm.trans hp
  have hcount := operations_foldlM_placeWrite hplaced
  rw [List.countP_eq_length_filter, filter_sourceWrites, length_keptOperations,
    length_allowedOperations_settled, hpaths, hoverridden] at hcount
  exact hcount

/-- Every operation that the filter lets through stands in the end, or gave way. -/
theorem operations_addAll (h : addAll config sources = .ok s) :
    operationsIn s.paths + overridden s =
      (sources.map fun source => (allowedOperations config source).length).sum := by
  refine addAll_induct (motive := fun sources s => operationsIn s.paths + overridden s =
    (sources.map fun source => (allowedOperations config source).length).sum) rfl ?_ h
  intro done source s t hs ih ht
  rw [operations_add hs ht, ih, List.map_append, List.sum_append, List.map_singleton,
    List.sum_singleton]

end MergeState

/-! ## Calls on a combiner -/

namespace Combiner

/-- A call on a combiner. -/
inductive Call where
  | addSource (source : Source)
  | combine
  deriving Repr

/-- The combiner after a call, whether or not the call fails. -/
def after (c : Combiner) : Call → Combiner
  | .addSource source => c.addSource source
  | .combine => c.combine.1

/-- The combiner after calls, one behind the other. -/
def afterAll (c : Combiner) (calls : List Call) : Combiner := calls.foldl after c

/-- As many conflicts are counted as there are warnings, and none of either where a conflict stops the run. -/
structure Balanced (c : Combiner) : Prop where
  conflicts : c.stats.conflicts = c.warnings.length
  silent : c.config.conflictStrategy = .error → c.warnings = []

theorem Balanced.after {c : Combiner} (h : Balanced c) (call : Call) : Balanced (c.after call) := by
  cases call with
  | addSource source => exact ⟨h.conflicts, h.silent⟩
  | combine =>
    show Balanced c.combine.1
    by_cases hne : c.sources = []
    · rw [combine, if_pos (by simp [hne])]
      exact h
    cases hrun : MergeState.addAll c.config c.sources with
    | ok s =>
      rw [combine_eq hne hrun]
      exact ⟨MergeState.tallied_addAll hrun, fun hs => MergeState.warnings_of_addAll_error hs hrun⟩
    | error stop =>
      -- only the strategy that stops at conflicts fails, and under it none is recorded, in this run or before
      have hs : c.config.conflictStrategy = .error := by
        by_contra hs
        obtain ⟨s, hok⟩ := MergeState.exists_addAll_ok hs c.sources
        rw [hok] at hrun
        cases hrun
      have hstopped : stop.state.warnings = [] := MergeState.warnings_of_addAll_stopped hs hrun
      rw [combine_eq_error hne hrun]
      refine ⟨?_, fun _ => hstopped⟩
      show c.stats.conflicts = stop.state.warnings.length
      rw [h.conflicts, h.silent hs, hstopped]

theorem Balanced.afterAll {c : Combiner} (h : Balanced c) (calls : List Call) :
    Balanced (c.afterAll calls) := by
  induction calls generalizing c with
  | nil => exact h
  | cons call calls ih => exact ih (h.after call)

/-- The counts of a combiner are those of the document that it gave. -/
structure Counts (c : Combiner) (document : Json) : Prop where
  paths : c.stats.paths = (Entries.keys (Source.membersAt document ["paths"])).length
  operations : c.stats.operations = ((Source.membersAt document ["paths"]).map fun e =>
    (DocumentFault.operationsOf e.2).length).sum
  /-- Every operation that the filter lets through is counted, or has a warning. -/
  allowed : (c.sources.map fun source =>
      (MergeState.allowedOperations c.config source).length).sum =
    c.stats.operations + c.warnings.countP (·.subject.isOperation)

theorem counts_combine {c : Combiner} {document : Json} (h : c.combine.2 = .ok document) :
    Counts c.combine.1 document := by
  have hne : c.sources ≠ [] := by
    intro he
    simp [combine, he] at h
  obtain ⟨s, hrun, rfl⟩ := exists_addAll_of_combine h
  have hpaths : Source.membersAt (s.toDocument c.config) ["paths"] =
      s.paths.map fun e => (e.1, .object e.2) := MergeState.membersAt_paths_toDocument s
  rw [combine_eq hne hrun]
  refine ⟨?_, ?_, ?_⟩
  · rw [MergeState.keys_paths_toDocument]
    simp [CombineStats.ofRun, Entries.keys]
  · rw [hpaths, List.map_map]
    exact List.length_flatMap
  · have hoperations : (CombineStats.ofRun c.sources s).operations = MergeState.operationsIn s.paths := by
      simp only [CombineStats.ofRun, MergeState.operationsIn, List.countP_eq_length_filter,
        List.length_flatMap]
    show _ = (CombineStats.ofRun c.sources s).operations + _
    rw [hoperations]
    exact (MergeState.operations_addAll hrun).symm

end Combiner

/-- After every sequence of calls on a combiner, failing ones included, as many conflicts are counted as there are
warnings; and when a run gives a document, the counts are those of the document, and the operations that the filter
lets through are those that are counted and those that a warning says were overridden. -/
theorem combiner_stays_balanced {config : CombineConfig} {c : Combiner}
    (h : Combiner.ofConfig config = .ok c) (calls : List Combiner.Call) :
    (c.afterAll calls).stats.conflicts = (c.afterAll calls).warnings.length ∧
      ∀ document, (c.afterAll calls).combine.2 = .ok document →
        Combiner.Counts (c.afterAll calls).combine.1 document := by
  obtain ⟨-, -, hc⟩ := bind_ok_iff.1 h
  cases hc
  have hstart : Combiner.Balanced { config := config } := ⟨rfl, fun _ => rfl⟩
  exact ⟨(hstart.afterAll calls).conflicts, fun _ hd => Combiner.counts_combine hd⟩

/-- The combiner with a strategy, and nothing added yet. -/
def Combiner.ofStrategy (strategy : ConflictStrategy) : Combiner :=
  { config := { conflictStrategy := strategy } }

/-- Three runs: one for want of sources, one over a service, and one over two that list the same operation. -/
def listedTwice : List Combiner.Call :=
  let document : Json := .object [("paths", .object [("/users", .object [("get", .object [])])])]
  [.combine, .addSource { service := "a", document := document }, .combine,
    .addSource { service := "b", document := document }, .combine]

/-- The strategy `override` counts the operation that gives way. The strategy `error` makes the last run fail, and
then the counts are those of the run before. -/
theorem combiner_stays_balanced_listedTwice :
    Combiner.ofConfig {} = .ok (Combiner.ofStrategy .override) ∧
      ((Combiner.ofStrategy .override).afterAll listedTwice).stats.conflicts = 1 ∧
      ((Combiner.ofStrategy .override).afterAll listedTwice).warnings =
        [⟨.operation "get" "/users", "b", "a"⟩] ∧
      (∃ document, ((Combiner.ofStrategy .override).afterAll listedTwice).combine.2 = .ok document ∧
        Combiner.Counts ((Combiner.ofStrategy .override).afterAll listedTwice).combine.1 document) ∧
      Combiner.ofConfig { conflictStrategy := .error } = .ok (Combiner.ofStrategy .error) ∧
      (∃ document, ((Combiner.ofStrategy .error).afterAll (listedTwice.take 2)).combine.2 = .ok document ∧
        Combiner.Counts ((Combiner.ofStrategy .error).afterAll (listedTwice.take 2)).combine.1 document) ∧
      ((Combiner.ofStrategy .error).afterAll (listedTwice.take 4)).combine.2.map (fun _ => ()) =
        .error (.conflict ⟨.operation "get" "/users", "b", "a"⟩) ∧
      ((Combiner.ofStrategy .error).afterAll listedTwice).stats.inputFiles = 1 ∧
      ((Combiner.ofStrategy .error).afterAll listedTwice).stats.conflicts =
        ((Combiner.ofStrategy .error).afterAll listedTwice).warnings.length := by
  have hoverride : Combiner.ofConfig {} = .ok (Combiner.ofStrategy .override) := rfl
  have herror : Combiner.ofConfig { conflictStrategy := .error } = .ok (Combiner.ofStrategy .error) := rfl
  obtain ⟨hconflicts, hcounts⟩ := combiner_stays_balanced hoverride listedTwice
  have hwarnings : ((Combiner.ofStrategy .override).afterAll listedTwice).warnings =
      [⟨.operation "get" "/users", "b", "a"⟩] := by decide +kernel
  obtain ⟨document, hdocument⟩ := exists_ok_of_isOk
    (x := ((Combiner.ofStrategy .override).afterAll listedTwice).combine.2) (by decide +kernel)
  obtain ⟨-, hfirst⟩ := combiner_stays_balanced herror (listedTwice.take 2)
  obtain ⟨alone, halone⟩ := exists_ok_of_isOk
    (x := ((Combiner.ofStrategy .error).afterAll (listedTwice.take 2)).combine.2) (by decide +kernel)
  obtain ⟨hstopped, -⟩ := combiner_stays_balanced herror listedTwice
  refine ⟨hoverride, by rw [hconflicts, hwarnings]; rfl, hwarnings, ⟨document, hdocument, hcounts _ hdocument⟩,
    herror, ⟨alone, halone, hfirst _ halone⟩, by decide +kernel, by decide +kernel, hstopped⟩

end ApiDescription
