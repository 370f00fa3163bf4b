import ApiDescription.Proofs.Combine.Compatible
import ApiDescription.Proofs.Combine.Document

/-!
# The order of the sources

Whether sources are compatible does not hang on their order, and compatible sources leave the same behind
in every order. So when a run has nothing to report, no run over the same sources in another order has,
and both combine the same components and the same operations (`combine_any_order`).
-/

set_option autoImplicit false

namespace ApiDescription

/-- The combiner with other sources. -/
def Combiner.withSources (sources : List Source) (c : Combiner) : Combiner :=
  { c with sources := sources }

namespace MergeState

variable {config : CombineConfig} {sources sources' : List Source} {s s' : MergeState}

theorem Compatible.perm (h : Compatible config sources) (hp : sources.Perm sources') :
    Compatible config sources' where
  components := by
    have hsub : sources'.flatMap (ownComponents config) ⊆ sources.flatMap (ownComponents config) :=
      (hp.symm.flatMap_right (ownComponents config)).subset
    intro w hw w' hw'
    exact h.components w (hsub hw) w' (hsub hw')
  operations :=
    ((hp.flatMap_right (ownOperations config)).map Prod.fst).nodup_iff.1 h.operations

/-! ## What is left behind -/

section Runs

variable (hs : config.conflictStrategy = .error) (hp : sources.Perm sources')
  (h : addAll config sources = .ok s) (h' : addAll config sources' = .ok s')

include hs hp h h'

theorem sameFound_component?_perm (hd : ∀ source ∈ sources, source.document.distinct = true)
    (kind key : String) : Json.SameFound (s.component? kind key) (s'.component? kind key) := by
  have hd' : ∀ source ∈ sources', source.document.distinct = true :=
    fun source hsource => hd source (hp.mem_iff.2 hsource)
  have hall : sources.flatMap (ownComponents config) ⊆ sources'.flatMap (ownComponents config) :=
    (hp.flatMap_right (ownComponents config)).subset
  have hall' : sources'.flatMap (ownComponents config) ⊆ sources.flatMap (ownComponents config) :=
    (hp.symm.flatMap_right (ownComponents config)).subset
  cases hc : s.component? kind key with
  | some stored =>
    have hw := mem_ownComponents_of_component? hs h hc
    obtain ⟨stored', hstored', hsame⟩ := holds_of_mem_ownComponents hs hd' h' (hall hw)
    rw [hstored']
    exact .some (Json.same_symm (distinct_of_component? hd' h' hstored')
      (distinct_of_component? hd h hc) hsame)
  | none =>
    cases hc' : s'.component? kind key with
    | none => exact .none
    | some stored' =>
      have hw := mem_ownComponents_of_component? hs h' hc'
      obtain ⟨stored, hstored, -⟩ := holds_of_mem_ownComponents hs hd h (hall' hw)
      rw [hc] at hstored
      cases hstored

theorem at?_paths_perm {path method : String} (hm : DocumentFault.isMethod method = true) :
    Entries.at? s'.paths path method = Entries.at? s.paths path method := by
  rw [at?_paths_error hs h hm, at?_paths_error hs h' hm]
  exact (Entries.lookup_reverse_perm (nodup_operations_of_addAll hs h)
    (hp.flatMap_right (ownOperations config)) (path, method)).symm

end Runs

/-! ## The combined documents -/

/-- Two documents have the same components and the same operations. -/
structure SameContentIn (document document' : Json) : Prop where
  components : Json.SameFound (document.get? "components") (document'.get? "components")
  operation : ∀ path method, DocumentFault.isMethod method = true →
    Source.lookup? document' ["paths", path, method] = Source.lookup? document ["paths", path, method]

theorem sameFound_componentsMember (h : addAll config sources = .ok s)
    (h' : addAll config sources' = .ok s')
    (hc : ∀ kind key, Json.SameFound (s.component? kind key) (s'.component? kind key)) :
    Json.SameFound ((s.toDocument config).get? "components")
      ((s'.toDocument config).get? "components") := by
  have hsame : (Json.ofTable s.components).same (Json.ofTable s'.components) = true :=
    Json.same_table (tidy_components_of_addAll h) (tidy_components_of_addAll h')
      (filled_components_of_addAll h) (filled_components_of_addAll h') hc
  rw [get?_components_toDocument, get?_components_toDocument]
  exact Json.sameFound_of_forall₂ (forall₂_componentsMember hsame) "components"

end MergeState

/-- When combining with the strategy `override` has nothing to report, combining the same sources in any other
order has nothing to report either, and gives a document with the same components and operations. Documents
that were loaded are distinct (`Combiner.distinct_loadFiles`). -/
theorem combine_any_order (c : Combiner) {sources : List Source} (hp : sources.Perm c.sources)
    (hs : c.config.conflictStrategy = .override)
    (hd : ∀ source ∈ c.sources, source.document.distinct = true)
    (hw : c.combine.1.warnings = []) :
    (c.withSources sources).combine.1.warnings = [] ∧
      (c.sources ≠ [] → ∃ document document', c.combine.2 = .ok document ∧
        (c.withSources sources).combine.2 = .ok document' ∧
        MergeState.SameContentIn document document') := by
  by_cases hne : c.sources = []
  · have hsources : sources = c.sources := by
      rw [hne] at hp ⊢
      exact hp.eq_nil
    rw [hsources]
    exact ⟨hw, fun h => absurd hne h⟩
  · have hne' : sources ≠ [] := by
      rintro rfl
      exact hne hp.symm.eq_nil
    have hoverride : c.config.conflictStrategy ≠ .error := by simp [hs]
    obtain ⟨s, h⟩ := MergeState.exists_addAll_ok hoverride c.sources
    rw [Combiner.combine_eq hne h] at hw
    -- a run with nothing to report goes as one that stops at conflicts
    have hquiet : MergeState.addAll (c.config.withStrategy .error) c.sources = .ok s :=
      (MergeState.firstOf_addAll hoverride c.sources).ok_iff.2 ⟨h, hw⟩
    have hcompatible := (MergeState.compatible_of_addAll rfl hd hquiet).perm hp.symm
    have hd' : ∀ source ∈ sources, source.document.distinct = true :=
      fun source hsource => hd source (hp.mem_iff.1 hsource)
    obtain ⟨s', hquiet'⟩ := (MergeState.exists_addAll_error_ok_iff rfl hd').2 hcompatible
    obtain ⟨h', hw'⟩ := (MergeState.firstOf_addAll hoverride sources).ok_iff.1 hquiet'
    rw [Combiner.combine_eq (c := c.withSources sources) hne' h', Combiner.combine_eq hne h]
    refine ⟨hw', fun _ => ⟨_, _, rfl, rfl, ?_, ?_⟩⟩
    · exact MergeState.sameFound_componentsMember h h' fun kind key =>
        MergeState.sameFound_component?_perm rfl hp.symm hquiet hquiet' hd kind key
    · intro path method hm
      rw [MergeState.lookup?_paths_toDocument, MergeState.lookup?_paths_toDocument]
      exact MergeState.at?_paths_perm rfl hp.symm hquiet hquiet' hm

/-- Two services with the same schema of money, written in two orders, and one operation each under one path. -/
def sharedMoney : Combiner where
  config := {}
  sources :=
    let member (name : String) : String × Json := (name, .object [("type", .string "integer")])
    let document (properties : List (String × Json)) (method : String) : Json := .object
      [("paths", .object [("/prices", .object [(method, .object [("summary", .string method)])])]),
        ("components", .object [("schemas", .object [("Money",
          .object [("properties", .object properties)])])])]
    [{ service := "a", document := document [member "amount", member "scale"] "get" },
      { service := "b", document := document [member "scale", member "amount"] "post" }]

theorem combine_any_order_sharedMoney :
    sharedMoney.sources.reverse.Perm sharedMoney.sources ∧
      sharedMoney.config.conflictStrategy = .override ∧
      (∀ source ∈ sharedMoney.sources, source.document.distinct = true) ∧
      sharedMoney.combine.1.warnings = [] ∧
      (sharedMoney.withSources sharedMoney.sources.reverse).combine.1.warnings = [] ∧
      ∃ document document', sharedMoney.combine.2 = .ok document ∧
        (sharedMoney.withSources sharedMoney.sources.reverse).combine.2 = .ok document' ∧
        MergeState.SameContentIn document document' := by
  have hp : sharedMoney.sources.reverse.Perm sharedMoney.sources := List.reverse_perm _
  have hd : ∀ source ∈ sharedMoney.sources, source.document.distinct = true := by decide
  have hw : sharedMoney.combine.1.warnings = [] := by decide +kernel
  obtain ⟨hw', hsame⟩ := combine_any_order sharedMoney hp rfl hd hw
  exact ⟨hp, rfl, hd, hw, hw', hsame (by simp [sharedMoney])⟩

end ApiDescription
