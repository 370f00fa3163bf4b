import ApiDescription.Proofs.Combine.Redirect
import ApiDescription.Proofs.Combine.Step

/-!
# Sources as they go in

The names of schemas that change are decided on when a source is put behind those before it, and its
whole document is redirected before anything of it is taken. `settledSources` are the sources with
their documents so redirected: what a combined document holds comes from them.
-/

set_option autoImplicit false

namespace ApiDescription

namespace MergeState

/-- The renames that are decided on for a source behind others. -/
def renamesBehind (config : CombineConfig) (earlier : List Source) (source : Source) : Renames :=
  match addAll config earlier with
  | .error _ => []
  | .ok s =>
    match s.schemaRenames config source.service source.document with
    | .error _ => []
    | .ok (_, renames) => renames

/-- The source as it goes in behind others: its references follow its renames. -/
def settled (config : CombineConfig) (earlier : List Source) (source : Source) : Source :=
  { source with document := (renamesBehind config earlier source).redirect source.document }

/-- The sources as they go in, each behind those before it. -/
def settledSources (config : CombineConfig) (sources : List Source) : List Source :=
  sources.mapIdx fun i source => settled config (sources.take i) source

variable {config : CombineConfig}

theorem settledSources_concat (done : List Source) (source : Source) :
    settledSources config (done ++ [source]) =
      settledSources config done ++ [settled config done source] := by
  unfold settledSources
  rw [List.mapIdx_concat, List.take_left]
  congr 1
  rw [List.mapIdx_eq_mapIdx_iff]
  intro i hi
  rw [List.take_append_of_le_length (Nat.le_of_lt hi)]

theorem mem_settledSources {sources : List Source} {s : Source} :
    s ∈ settledSources config sources ↔
      ∃ earlier source later, sources = earlier ++ source :: later ∧
        s = settled config earlier source := by
  unfold settledSources
  rw [List.mem_mapIdx]
  constructor
  · rintro ⟨i, hi, rfl⟩
    refine ⟨sources.take i, sources[i], sources.drop (i + 1), ?_, rfl⟩
    rw [← List.drop_eq_getElem_cons hi, List.take_append_drop]
  · rintro ⟨earlier, source, later, rfl, rfl⟩
    have hi : earlier.length < (earlier ++ source :: later).length := by simp
    refine ⟨earlier.length, hi, ?_⟩
    rw [List.getElem_append_right (Nat.le_refl _), List.take_left]
    simp

/-- The parts of a source that goes in behind others, by its renames and its settled document. -/
theorem add_behind {earlier : List Source} {source : Source} {s t : MergeState}
    (hs : addAll config earlier = .ok s) (h : add config s source = .ok t) :
    ∃ decided inserted placed,
      s.schemaRenames config source.service source.document =
        .ok (decided, renamesBehind config earlier source) ∧
      decided.mergeComponents config.conflictStrategy source.service
        (renamesBehind config earlier source) (settled config earlier source).document =
          .ok inserted ∧
      inserted.mergePaths config source (settled config earlier source).document = .ok placed ∧
      t = placed.mergeTags source (settled config earlier source).document := by
  obtain ⟨decided, renames, inserted, placed, hd, hi, hp, ht⟩ := add_ok_iff.1 h
  have hr : renamesBehind config earlier source = renames := by
    simp only [renamesBehind, hs, hd]
  rw [← hr] at hd hi hp ht
  exact ⟨decided, inserted, placed, hd, hi, hp, ht⟩

/-- What holds of nothing, and is handed on by every source, holds of every run. -/
theorem addAll_induct {motive : List Source → MergeState → Prop} (nil : motive [] {})
    (concat : ∀ done source s t, addAll config done = .ok s → motive done s →
      add config s source = .ok t → motive (done ++ [source]) t)
    {sources : List Source} {s : MergeState} (h : addAll config sources = .ok s) :
    motive sources s :=
  foldlM_induct nil concat h

theorem addAll_split {earlier later : List Source} {source : Source} {s : MergeState}
    (h : addAll config (earlier ++ source :: later) = .ok s) :
    ∃ before after, addAll config earlier = .ok before ∧ add config before source = .ok after ∧
      later.foldlM (add config) after = .ok s := by
  obtain ⟨before, hb, h⟩ := foldlM_append_ok.1 h
  obtain ⟨after, ha, hl⟩ := foldlM_cons_ok.1 h
  exact ⟨before, after, hb, ha, hl⟩

end MergeState

/-- A run over sources gives its document, and reports what it recorded. -/
theorem Combiner.combine_eq {c : Combiner} (hne : c.sources ≠ []) {s : MergeState}
    (h : MergeState.addAll c.config c.sources = .ok s) :
    c.combine =
      ({ c with warnings := s.warnings, stats := CombineStats.ofRun c.sources s },
        .ok (s.toDocument c.config)) := by
  have he : c.sources.isEmpty = false := by
    cases hc : c.sources with
    | nil => exact absurd hc hne
    | cons => rfl
  simp only [combine, he, h]
  rfl

/-- A conflict that stops the run is what it fails with, and what was recorded by then stays on record. -/
theorem Combiner.combine_eq_error {c : Combiner} (hne : c.sources ≠ []) {stop : MergeStop}
    (h : MergeState.addAll c.config c.sources = .error stop) :
    c.combine = ({ c with warnings := stop.state.warnings }, .error (.conflict stop.conflict)) := by
  have he : c.sources.isEmpty = false := by
    cases hc : c.sources with
    | nil => exact absurd hc hne
    | cons => rfl
  simp only [combine, he, h]
  rfl

/-- A run that gives a document left a state behind that stands for it. -/
theorem Combiner.exists_addAll_of_combine {c : Combiner} {document : Json}
    (h : c.combine.2 = .ok document) :
    ∃ s, MergeState.addAll c.config c.sources = .ok s ∧ s.toDocument c.config = document := by
  by_cases hne : c.sources = []
  · simp [combine, hne] at h
  · cases hrun : MergeState.addAll c.config c.sources with
    | error stop =>
      rw [combine_eq_error hne hrun] at h
      cases h
    | ok s =>
      rw [combine_eq hne hrun] at h
      cases h
      exact ⟨s, rfl, rfl⟩

end ApiDescription
