import ApiDescription.Proofs.Combine.Components
import ApiDescription.Proofs.Combine.FirstConflict
import ApiDescription.Proofs.Combine.Paths

/-!
# Sources without conflicts

A run with the strategy `error` puts in what each source has on its own, whatever goes in before it. So
it comes to an end exactly when the sources are `Compatible`: components of one kind and key are the same,
and no two operations go under one path and method (`exists_addAll_error_ok_iff`). What such a run
leaves behind is told by the sources one by one, without their order.
-/

set_option autoImplicit false

namespace ApiDescription

/-! ## Redirecting without renames -/

namespace Renames

theorem retarget_nil (target : String) : retarget [] target = target := by
  unfold retarget
  cases Service.stripStart? referenceStart target <;> rfl

theorem redirect_nil (j : Json) : redirect [] j = j := by
  have hmember : ∀ m : String × Json, redirect [] m.2 = m.2 → redirectMember [] m.1 m.2 = m.2 := by
    intro m hm
    unfold redirectMember
    split
    · cases m.2 <;> simp [retargetValue, retarget_nil]
    · exact hm
  induction j using Json.induct with
  | array xs ih => rw [redirect_array, List.map_congr_left ih, List.map_id']
  | object ms ih =>
    rw [redirect_object, List.map_congr_left fun m hm => by rw [hmember m (ih m hm)], List.map_id']
  | _ => rfl

end Renames

namespace MergeState

variable {config : CombineConfig} {strategy : ConflictStrategy} {service : String}
  {s t : MergeState}

/-! ## A source on its own -/

/-- The renames of a source that no schema of another one stands in the way of. -/
def ownRenames (config : CombineConfig) (source : Source) : Renames :=
  if config.mergeSchemas then []
  else (schemasOf source.document).map fun m => (m.1, namespaced source.service m.1)

/-- The source with its references following these renames. -/
def ownSettled (config : CombineConfig) (source : Source) : Source :=
  { source with document := (ownRenames config source).redirect source.document }

/-- The components of a source with their kinds and keys. -/
def ownComponents (config : CombineConfig) (source : Source) : List ((String × String) × Json) :=
  componentWrites (ownRenames config source) (ownSettled config source).document

/-- The kept operations of a source with their paths and methods. -/
def ownOperations (config : CombineConfig) (source : Source) : List ((String × String) × Json) :=
  keptOperations config (ownSettled config source)

/-- No source has anything in another way than another one, or than itself. -/
structure Compatible (config : CombineConfig) (sources : List Source) : Prop where
  /-- Components of one kind and key are the same. -/
  components : ∀ w ∈ sources.flatMap (ownComponents config),
    ∀ w' ∈ sources.flatMap (ownComponents config), w.1 = w'.1 → w.2.same w'.2 = true
  /-- No two operations go under one path and method. -/
  operations : ((sources.flatMap (ownOperations config)).map Prod.fst).Nodup

theorem distinct_of_mem_ownComponents {source : Source} (hd : source.document.distinct = true)
    {w : (String × String) × Json} (hw : w ∈ ownComponents config source) : w.2.distinct = true :=
  distinct_of_mem_componentWrites (Renames.distinct_redirect _ hd) hw

/-! ## Schemas that keep their names -/

/-- A round over schemas that can all keep their names keeps them. -/
theorem exists_round_of_keeps {schemas : List (String × Json)} (p : RenamePass)
    (hk : ∀ m ∈ schemas, Keeps p.state p.renames m) :
    ∃ q, schemas.foldlM (decide strategy service) p = .ok q ∧ q.renames = p.renames ∧
      q.kept = p.kept ++ schemas := by
  induction schemas generalizing p with
  | nil => exact ⟨p, rfl, rfl, (List.append_nil _).symm⟩
  | cons m schemas ih =>
    obtain ⟨name, value⟩ := m
    have hstep : ∃ shared, decide strategy service p (name, value) =
        .ok { p with kept := p.kept ++ [(name, value)], shared := shared } := by
      simp only [decide]
      cases hc : p.state.component? schemaKind name with
      | none => exact ⟨p.shared, rfl⟩
      | some existing =>
        have hsame := hk (name, value) List.mem_cons_self existing hc
        exact ⟨p.shared + 1, by simp only [hsame, if_true]⟩
    obtain ⟨shared, hstep⟩ := hstep
    obtain ⟨q, hq, hr, hkept⟩ :=
      ih { p with kept := p.kept ++ [(name, value)], shared := shared }
        fun m hm => hk m (List.mem_cons_of_mem _ hm)
    exact ⟨q, foldlM_cons_ok.2 ⟨_, hstep, hq⟩, hr, by rw [hkept]; simp⟩

/-- When every schema can keep its name, deciding ends after one round and renames none. -/
theorem exists_decideAll_of_keeps {renames : Renames} {schemas : List (String × Json)}
    (hk : ∀ m ∈ schemas, Keeps s renames m) :
    ∃ t, decideAll strategy service s renames schemas = .ok (t, renames) := by
  obtain ⟨q, hq, hr, hkept⟩ := @exists_round_of_keeps strategy service schemas
    { state := s, renames := renames } hk
  have hge : ¬ q.kept.length < schemas.length := by simp [hkept]
  refine ⟨{ q.state with mergedSchemas := q.state.mergedSchemas + q.shared }, ?_⟩
  rw [decideAll_eq_bind, bind_ok_iff]
  refine ⟨q, hq, ?_⟩
  rw [afterRound, if_neg hge, hr]

theorem renames_of_decideAll_error {renames r : Renames} {schemas : List (String × Json)}
    (h : decideAll .error service s renames schemas = .ok (t, r)) : r = renames := by
  refine decideAll_invariant (P := fun _ r => r = renames) h rfl ?_ fun _ _ _ hr => hr
  intro p name value q hp hd _
  cases hd with
  | absent => exact hp
  | shared => exact hp
  | renamed existing hsome hsame hs => exact absurd rfl hs

theorem renames_of_schemaRenames_error (hs : config.conflictStrategy = .error) {source : Source}
    {r : Renames} (h : s.schemaRenames config source.service source.document = .ok (t, r)) :
    r = ownRenames config source := by
  unfold schemaRenames at h
  unfold ownRenames
  cases hm : config.mergeSchemas with
  | true =>
    rw [hs, hm, if_pos rfl] at h
    exact renames_of_decideAll_error h
  | false =>
    rw [hm] at h
    cases h
    rfl

theorem exists_schemaRenames_of_keeps {source : Source}
    (hk : config.mergeSchemas = true → ∀ m ∈ schemasOf source.document, Keeps s [] m) :
    ∃ t, s.schemaRenames config source.service source.document = .ok (t, ownRenames config source) := by
  unfold schemaRenames ownRenames
  cases hm : config.mergeSchemas with
  | true => exact exists_decideAll_of_keeps (hk hm)
  | false => exact ⟨s, rfl⟩

/-! ## Operations that find their places free -/

theorem placeWrite_error_ok_iff {w : (String × String) × Json} :
    placeWrite .error service s w = .ok t ↔
      (DocumentFault.isMethod w.1.2 = true → Entries.at? s.paths w.1.1 w.1.2 = none) ∧
        t = s.putMember w.1.1 w.1.2 w.2 := by
  unfold placeWrite
  cases hm : DocumentFault.isMethod w.1.2 with
  | false => simp [eq_comm]
  | true =>
    simp only [if_true, forall_const]
    constructor
    · intro h
      cases places_of_insertOperation h with
      | absent hnone => exact ⟨hnone, rfl⟩
      | replaced existing hsome hs => exact absurd rfl hs
    · rintro ⟨hnone, rfl⟩
      simp only [insertOperation, get?_pathItem, hnone]
      rfl

/-- The keys of the operations among the members that go in. -/
def operationKeys (writes : List ((String × String) × Json)) : List (String × String) :=
  (writes.filter fun w => DocumentFault.isMethod w.1.2).map Prod.fst

theorem operationKeys_sourceWrites (source : Source) :
    operationKeys (sourceWrites config source) = (keptOperations config source).map Prod.fst := by
  rw [operationKeys, filter_sourceWrites]

theorem isMethod_of_mem_operationKeys {writes : List ((String × String) × Json)} {k : String × String}
    (h : k ∈ operationKeys writes) : DocumentFault.isMethod k.2 = true := by
  obtain ⟨w, hw, rfl⟩ := List.mem_map.1 h
  exact (List.mem_filter.1 hw).2

/-- Writes come to an end when their operations have keys of their own, which are free. -/
theorem exists_foldlM_placeWrite_ok_iff (writes : List ((String × String) × Json)) (s : MergeState) :
    (∃ t, writes.foldlM (placeWrite .error service) s = .ok t) ↔
      (operationKeys writes).Nodup ∧
        ∀ k ∈ operationKeys writes, Entries.at? s.paths k.1 k.2 = none := by
  induction writes generalizing s with
  | nil => simp [operationKeys, pure, Except.pure]
  | cons w writes ih =>
    have hcons : (∃ t, (w :: writes).foldlM (placeWrite .error service) s = .ok t) ↔
        (DocumentFault.isMethod w.1.2 = true → Entries.at? s.paths w.1.1 w.1.2 = none) ∧
          ∃ t, writes.foldlM (placeWrite .error service) (s.putMember w.1.1 w.1.2 w.2) = .ok t := by
      simp only [foldlM_cons_ok, placeWrite_error_ok_iff]
      constructor
      · rintro ⟨t, u, ⟨hfree, rfl⟩, ht⟩
        exact ⟨hfree, t, ht⟩
      · rintro ⟨hfree, t, ht⟩
        exact ⟨t, _, ⟨hfree, rfl⟩, ht⟩
    have hput : ∀ k : String × String,
        Entries.at? (s.putMember w.1.1 w.1.2 w.2).paths k.1 k.2 = none ↔
          k ≠ w.1 ∧ Entries.at? s.paths k.1 k.2 = none :=
      fun k => Entries.at?_putAt_eq_none_iff s.paths w.1 k w.2
    rw [hcons, ih]
    simp only [hput]
    cases hm : DocumentFault.isMethod w.1.2 with
    | true =>
      have hkeys : operationKeys (w :: writes) = w.1 :: operationKeys writes := by
        simp [operationKeys, hm]
      rw [hkeys, List.nodup_cons, List.forall_mem_cons]
      constructor
      · rintro ⟨hfree, hnodup, hrest⟩
        exact ⟨⟨fun hw => (hrest _ hw).1 rfl, hnodup⟩, hfree rfl, fun k hk => (hrest k hk).2⟩
      · rintro ⟨⟨hw, hnodup⟩, hfree, hrest⟩
        exact ⟨fun _ => hfree, hnodup, fun k hk => ⟨fun he => hw (he ▸ hk), hrest k hk⟩⟩
    | false =>
      have hkeys : operationKeys (w :: writes) = operationKeys writes := by
        simp [operationKeys, hm]
      have hne : ∀ k ∈ operationKeys writes, k ≠ w.1 := by
        rintro k hk rfl
        rw [isMethod_of_mem_operationKeys hk] at hm
        cases hm
      rw [hkeys]
      constructor
      · rintro ⟨-, hnodup, hrest⟩
        exact ⟨hnodup, fun k hk => (hrest k hk).2⟩
      · rintro ⟨hnodup, hrest⟩
        exact ⟨by simp, hnodup, fun k hk => ⟨hne k hk, hrest k hk⟩⟩

/-! ## Runs that stop at conflicts -/

section Runs

variable {sources : List Source} (hs : config.conflictStrategy = .error)

include hs

/-- A run that stops at conflicts and comes to an end has nothing to report. -/
theorem warnings_of_addAll_error (h : addAll config sources = .ok s) : s.warnings = [] :=
  ((firstOf_addAll_override hs sources).ok_iff.1 h).2

/-- A run that stops at a conflict has nothing recorded before it. -/
theorem warnings_of_addAll_stopped {stop : MergeStop} (h : addAll config sources = .error stop) :
    stop.state.warnings = [] := by
  have hfirst := firstOf_addAll_override hs sources
  rw [h] at hfirst
  exact hfirst.warnings_eq

omit hs in
/-- What a run that stops at conflicts leaves behind, a run with any strategy does. -/
theorem addAll_of_addAll_error (h : addAll (config.withStrategy .error) sources = .ok s) :
    addAll config sources = .ok s := by
  by_cases hs : config.conflictStrategy = .error
  · have hconfig : config.withStrategy .error = config := by
      rw [← hs]
      rfl
    rwa [hconfig] at h
  · exact ((firstOf_addAll hs sources).ok_iff.1 h).1

theorem renamesBehind_error {earlier : List Source} {source : Source}
    (hb : addAll config earlier = .ok s) (ha : add config s source = .ok t) :
    renamesBehind config earlier source = ownRenames config source := by
  obtain ⟨decided, -, -, hd, -⟩ := add_behind hb ha
  exact renames_of_schemaRenames_error hs hd

/-- A source goes in as it would alone, whatever went in before it. -/
theorem settled_error {earlier : List Source} {source : Source}
    (hb : addAll config earlier = .ok s) (ha : add config s source = .ok t) :
    settled config earlier source = ownSettled config source := by
  rw [settled, renamesBehind_error hs hb ha, ownSettled]

theorem writesBehind_error {earlier : List Source} {source : Source}
    (hb : addAll config earlier = .ok s) (ha : add config s source = .ok t) :
    writesBehind config earlier source = ownComponents config source := by
  rw [writesBehind, renamesBehind_error hs hb ha, settled_error hs hb ha, ownComponents]

theorem settledSources_error (h : addAll config sources = .ok s) :
    settledSources config sources = sources.map (ownSettled config) := by
  refine addAll_induct (motive := fun sources _ =>
    settledSources config sources = sources.map (ownSettled config)) rfl ?_ h
  intro done source s t hb ih ha
  rw [settledSources_concat, ih, settled_error hs hb ha, List.map_append, List.map_cons, List.map_nil]

/-- A component that stands there is one of a source on its own. -/
theorem mem_ownComponents_of_component? (h : addAll config sources = .ok s) {kind key : String}
    {stored : Json} (hstored : s.component? kind key = some stored) :
    ((kind, key), stored) ∈ sources.flatMap (ownComponents config) := by
  obtain ⟨earlier, source, later, rfl, hw⟩ := origin_of_addAll h hstored
  obtain ⟨before, after, hb, ha, -⟩ := addAll_split h
  rw [writesBehind_error hs hb ha] at hw
  exact List.mem_flatMap.2 ⟨source, by simp, hw⟩

/-- All components of the sources stand there. -/
theorem holds_of_mem_ownComponents (hd : ∀ source ∈ sources, source.document.distinct = true)
    (h : addAll config sources = .ok s) {w : (String × String) × Json}
    (hw : w ∈ sources.flatMap (ownComponents config)) : s.Holds w.1.1 w.1.2 w.2 := by
  obtain ⟨source, hsource, hown⟩ := List.mem_flatMap.1 hw
  obtain ⟨earlier, later, rfl⟩ := List.append_of_mem hsource
  obtain ⟨before, after, hb, ha, -⟩ := addAll_split h
  rw [← writesBehind_error hs hb ha] at hown
  refine holds_of_addAll h (hd source hsource) hown ?_
  rintro ⟨c, hc, -⟩
  rw [warnings_of_addAll_error hs h] at hc
  cases hc

theorem at?_paths_error (h : addAll config sources = .ok s) {path method : String}
    (hm : DocumentFault.isMethod method = true) :
    Entries.at? s.paths path method =
      (sources.flatMap (ownOperations config)).reverse.lookup (path, method) := by
  have hlast := (lastWriterWins_toDocument h).operation path method hm
  rw [lookup?_paths_toDocument, settledSources_error hs h, List.flatMap_map] at hlast
  exact hlast

theorem at?_paths_eq_none_iff (h : addAll config sources = .ok s) {k : String × String}
    (hm : DocumentFault.isMethod k.2 = true) :
    Entries.at? s.paths k.1 k.2 = none ↔
      k ∉ (sources.flatMap (ownOperations config)).map Prod.fst := by
  rw [at?_paths_error hs h hm, Entries.lookup_reverse_eq_none_iff]

/-! ### What comes to an end is compatible -/

theorem nodup_operations_of_addAll (h : addAll config sources = .ok s) :
    ((sources.flatMap (ownOperations config)).map Prod.fst).Nodup := by
  refine addAll_induct (motive := fun sources _ =>
    ((sources.flatMap (ownOperations config)).map Prod.fst).Nodup) List.nodup_nil ?_ h
  intro done source s t hb ih ha
  obtain ⟨decided, inserted, placed, hd, hi, hp, -⟩ := add_behind hb ha
  rw [settled_error hs hb ha] at hp
  have hpaths : inserted.paths = s.paths :=
    (paths_of_mergeComponents hi).trans (sameContent_of_schemaRenames hd).paths
  have hrun : (sourceWrites config (ownSettled config source)).foldlM
      (placeWrite .error source.service) inserted = .ok placed := by
    rw [← hs]
    exact (mergePaths_eq_foldlM (ownSettled config source) inserted).symm.trans hp
  obtain ⟨hnodup, hfree⟩ := (exists_foldlM_placeWrite_ok_iff _ _).1 ⟨placed, hrun⟩
  rw [operationKeys_sourceWrites] at hnodup hfree
  rw [List.flatMap_append, List.flatMap_singleton, List.map_append]
  refine List.nodup_append.2 ⟨ih, hnodup, ?_⟩
  -- the keys of the source were free, so no source before it has them
  rintro k hold _ hnew rfl
  have hm : DocumentFault.isMethod k.2 = true := by
    rw [ownOperations, ← operationKeys_sourceWrites] at hnew
    exact isMethod_of_mem_operationKeys hnew
  have hnone := hfree k hnew
  rw [hpaths] at hnone
  exact (at?_paths_eq_none_iff hs hb hm).1 hnone hold

theorem compatible_of_addAll (hd : ∀ source ∈ sources, source.document.distinct = true)
    (h : addAll config sources = .ok s) : Compatible config sources where
  components := by
    intro w hw w' hw' hkey
    obtain ⟨stored, hstored, hsame⟩ := holds_of_mem_ownComponents hs hd h hw
    obtain ⟨stored', hstored', hsame'⟩ := holds_of_mem_ownComponents hs hd h hw'
    rw [hkey, hstored'] at hstored
    cases hstored
    obtain ⟨source, hsource, hw⟩ := List.mem_flatMap.1 hw
    have hwd := distinct_of_mem_ownComponents (hd source hsource) hw
    exact Json.same_trans (Json.same_symm (distinct_of_component? hd h hstored') hwd hsame) hsame'
  operations := nodup_operations_of_addAll hs h

/-! ### What is compatible comes to an end -/

omit hs in
theorem ownRenames_of_merge (hm : config.mergeSchemas = true) (source : Source) :
    ownRenames config source = [] := by
  rw [ownRenames, if_pos hm]

omit hs in
theorem ownSettled_of_merge (hm : config.mergeSchemas = true) (source : Source) :
    ownSettled config source = source := by
  rw [ownSettled, ownRenames_of_merge hm, Renames.redirect_nil]

omit hs in
theorem mem_ownComponents_schema (hm : config.mergeSchemas = true) {source : Source}
    (hd : source.document.distinct = true) {m : String × Json} (h : m ∈ schemasOf source.document) :
    ((schemaKind, m.1), m.2) ∈ ownComponents config source := by
  rw [ownComponents, ownSettled_of_merge hm, ownRenames_of_merge hm, mem_componentWrites_kind hd]
  exact ⟨m, h, rfl, rfl⟩

omit hs in
theorem exists_insertComponent_of_same {kind key : String} {value : Json}
    (h : ∀ existing, s.component? kind key = some existing → existing.same value = true) :
    ∃ t, s.insertComponent strategy service kind key value = .ok t := by
  unfold insertComponent
  cases hc : s.component? kind key with
  | none => exact ⟨_, rfl⟩
  | some existing => exact ⟨s, by simp only [h existing hc, if_true]⟩

omit hs in
theorem Compatible.earlier {earlier later : List Source}
    (h : Compatible config (earlier ++ later)) : Compatible config earlier where
  components w hw w' hw' := by
    have hsub : earlier.flatMap (ownComponents config) ⊆
        (earlier ++ later).flatMap (ownComponents config) := by
      rw [List.flatMap_append]
      exact List.subset_append_left _ _
    exact h.components w (hsub hw) w' (hsub hw')
  operations := by
    have hnodup := h.operations
    rw [List.flatMap_append, List.map_append] at hnodup
    exact (List.nodup_append.1 hnodup).1

section Behind

variable {done : List Source} {source : Source} (hb : addAll config done = .ok s)
  (hc : Compatible config (done ++ [source]))

include hb hc

/-- What stands there is the same as any component that the next source has for its place. -/
theorem same_of_compatible {kind key : String} {stored value : Json}
    (hstored : s.component? kind key = some stored)
    (hw : ((kind, key), value) ∈ ownComponents config source) : stored.same value = true := by
  have hold : ((kind, key), stored) ∈ (done ++ [source]).flatMap (ownComponents config) := by
    rw [List.flatMap_append]
    exact List.mem_append_left _ (mem_ownComponents_of_component? hs hb hstored)
  have hnew : ((kind, key), value) ∈ (done ++ [source]).flatMap (ownComponents config) :=
    List.mem_flatMap.2 ⟨source, by simp, hw⟩
  exact hc.components _ hold _ hnew rfl

theorem exists_mergeComponents_of_compatible {decided : MergeState}
    (hcontent : SameContent s decided) :
    ∃ t, decided.mergeComponents config.conflictStrategy source.service (ownRenames config source)
      (ownSettled config source).document = .ok t := by
  rw [mergeComponents_eq_foldlM]
  refine exists_foldlM_ok_behind ?_
  intro before w rest u hwrites hu
  have hmem : ∀ v ∈ before ++ w :: rest, v ∈ ownComponents config source := by
    rw [← hwrites]
    exact fun v hv => hv
  refine exists_insertComponent_of_same fun existing he => ?_
  -- what stands in the way was there before the source, or the source itself put it in
  rcases (writeRun_of_foldlM hu).origin _ _ existing he with hold | hnew
  · rw [hcontent.component?] at hold
    exact same_of_compatible hs hb hc hold (hmem w (by simp))
  · have hin : ∀ v ∈ ownComponents config source,
        v ∈ (done ++ [source]).flatMap (ownComponents config) := fun v hv =>
      List.mem_flatMap.2 ⟨source, by simp, hv⟩
    exact hc.components _ (hin _ (hmem _ (List.mem_append_left _ hnew))) w
      (hin _ (hmem w (by simp))) rfl

theorem exists_mergePaths_of_compatible {inserted : MergeState} (hpaths : inserted.paths = s.paths) :
    ∃ t, inserted.mergePaths config source (ownSettled config source).document = .ok t := by
  have hnodup := hc.operations
  rw [List.flatMap_append, List.flatMap_singleton, List.map_append, List.nodup_append] at hnodup
  obtain ⟨-, hown, hapart⟩ := hnodup
  have hrun : ∃ t, (sourceWrites config (ownSettled config source)).foldlM
      (placeWrite config.conflictStrategy source.service) inserted = .ok t := by
    rw [hs, exists_foldlM_placeWrite_ok_iff, operationKeys_sourceWrites]
    refine ⟨hown, ?_⟩
    intro k hk
    have hm : DocumentFault.isMethod k.2 = true := by
      rw [← operationKeys_sourceWrites] at hk
      exact isMethod_of_mem_operationKeys hk
    rw [hpaths, at?_paths_eq_none_iff hs hb hm]
    exact fun hold => hapart k hold k hk rfl
  obtain ⟨t, ht⟩ := hrun
  exact ⟨t, (mergePaths_eq_foldlM (ownSettled config source) inserted).trans ht⟩

theorem exists_add_of_compatible (hd : source.document.distinct = true) :
    ∃ t, add config s source = .ok t := by
  have hkeeps : config.mergeSchemas = true → ∀ m ∈ schemasOf source.document, Keeps s [] m := by
    intro hm m hmem existing he
    rw [Renames.redirect_nil]
    exact same_of_compatible hs hb hc he (mem_ownComponents_schema hm hd hmem)
  obtain ⟨decided, hdecided⟩ := exists_schemaRenames_of_keeps hkeeps
  have hcontent : SameContent s decided := sameContent_of_schemaRenames hdecided
  obtain ⟨inserted, hinserted⟩ := exists_mergeComponents_of_compatible hs hb hc hcontent
  obtain ⟨placed, hplaced⟩ := exists_mergePaths_of_compatible hs hb hc
    ((paths_of_mergeComponents hinserted).trans hcontent.paths)
  exact ⟨_, add_ok_iff.2 ⟨decided, _, inserted, placed, hdecided, hinserted, hplaced, rfl⟩⟩

end Behind

/-- A run that stops at conflicts comes to an end exactly when the sources are compatible. -/
theorem exists_addAll_error_ok_iff (hd : ∀ source ∈ sources, source.document.distinct = true) :
    (∃ s, addAll config sources = .ok s) ↔ Compatible config sources := by
  constructor
  · rintro ⟨s, h⟩
    exact compatible_of_addAll hs hd h
  · intro hc
    refine exists_foldlM_ok_behind ?_
    rintro done source rest s rfl hb
    have hsplit : done ++ source :: rest = (done ++ [source]) ++ rest := by simp
    rw [hsplit] at hc
    exact exists_add_of_compatible hs hb hc.earlier (hd source (by simp))

end Runs

end MergeState

end ApiDescription
