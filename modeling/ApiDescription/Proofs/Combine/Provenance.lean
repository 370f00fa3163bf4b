import ApiDescription.Proofs.Combine.Document
import ApiDescription.Proofs.Combine.References

/-!
# Where the references of a combined document come from

Combining makes no references. Whatever a run holds was taken from a source as it went in, so each
reference of the combined document stands in one of the sources with their references redirected
(`fromSource_of_mem_targets`).
-/

set_option autoImplicit false

namespace ApiDescription

open Renames (referenceName)

/-! ## Objects that grow -/

namespace Json

theorem targets_put (ms : List (String × Json)) (name : String) (v : Json) :
    (Json.object (Entries.put ms name v)).targets ⊆
      memberTargets (name, v) ++ (Json.object ms).targets := by
  rw [targets_object, targets_object]
  intro t ht
  obtain ⟨m, hm, ht⟩ := List.mem_flatMap.1 ht
  rcases Entries.mem_put hm with rfl | hm
  · exact List.mem_append_left _ ht
  · exact List.mem_append_right _ (List.mem_flatMap.2 ⟨m, hm, ht⟩)

theorem targets_putNew (ms : List (String × Json)) (name : String) (v : Json) :
    (Json.object (Entries.putNew ms name v)).targets ⊆
      memberTargets (name, v) ++ (Json.object ms).targets := by
  rw [targets_object, targets_object]
  unfold Entries.putNew
  split
  · exact List.subset_append_right _ _
  · rw [List.flatMap_append, List.flatMap_singleton]
    intro t ht
    rcases List.mem_append.1 ht with ht | ht
    · exact List.mem_append_right _ ht
    · exact List.mem_append_left _ ht

theorem targets_strings (texts : List String) : (Json.array (texts.map .string)).targets = [] := by
  rw [targets_array, List.flatMap_map, List.flatMap_eq_nil_iff]
  intro text _
  rfl

end Json

namespace MergeState

variable {config : CombineConfig} {s t : MergeState}

/-- A source as it goes in has a reference of the text. -/
def FromSource (config : CombineConfig) (sources : List Source) (target : String) : Prop :=
  ∃ earlier source later, sources = earlier ++ source :: later ∧
    target ∈ (settled config earlier source).document.targets

theorem fromSource_of_mem {sources : List Source} {source : Source} {target : String}
    (h : source ∈ settledSources config sources) (ht : target ∈ source.document.targets) :
    FromSource config sources target := by
  obtain ⟨earlier, source, later, hsources, rfl⟩ := mem_settledSources.1 h
  exact ⟨earlier, source, later, hsources, ht⟩

/-! ## Paths -/

theorem targets_of_documentSecurity? {document security : Json}
    (h : documentSecurity? document = some security) : security.targets ⊆ document.targets := by
  have hl : Source.lookup? document ["security"] = some security := by
    rw [Source.lookup?_cons]
    unfold documentSecurity? at h
    split at h
    · next hget =>
      rw [hget]
      exact h
    · cases h
  exact Json.targets_subset_of_lookup? hl

/-- An operation that is prepared refers to what it did before, and to what the requirements of its
document do. -/
theorem targets_prepare {source : Source} {document operation : Json} {target : String}
    (h : target ∈ (prepare source (documentSecurity? document) operation).targets) :
    target ∈ operation.targets ∨ target ∈ document.targets := by
  cases operation with
  | object ms =>
    have htags : ∀ {t}, t ∈ (Json.object (Entries.put ms "tags"
        (.array ((combinedTags source (.object ms)).map .string)))).targets →
          t ∈ (Json.object ms).targets := by
      intro t ht
      have hsub := Json.targets_put _ _ _ ht
      rw [Json.memberTargets_of_ne (by simp [referenceName]), Json.targets_strings,
        List.nil_append] at hsub
      exact hsub
    unfold prepare at h
    simp only at h
    cases hs : documentSecurity? document with
    | none =>
      rw [hs] at h
      exact Or.inl (htags h)
    | some security =>
      rw [hs] at h
      have hsub := Json.targets_putNew _ _ _ h
      rw [Json.memberTargets_of_ne (by simp [referenceName])] at hsub
      rcases List.mem_append.1 hsub with hsub | hsub
      · exact Or.inr (targets_of_documentSecurity? hs hsub)
      · exact Or.inl (htags hsub)
  | _ => exact Or.inl h

theorem memberTargets_subset_of_mem_members? {j : Json} {m : String × Json} (h : m ∈ j.members?.getD []) :
    Json.memberTargets m ⊆ j.targets := by
  cases j with
  | object ms => exact Json.memberTargets_subset h
  | _ => cases h

theorem targets_of_mem_sourceWrites {source : Source} {w : (String × String) × Json}
    (h : w ∈ sourceWrites config source) :
    Json.memberTargets (w.1.2, w.2) ⊆ source.document.targets := by
  have hmember : ∀ e ∈ Source.membersAt source.document ["paths"], ∀ m ∈ e.2.members?.getD [],
      Json.memberTargets m ⊆ source.document.targets := fun e he m hm =>
    List.Subset.trans (memberTargets_subset_of_mem_members? hm)
      (List.Subset.trans (Json.targets_subset_memberTargets e)
        (Json.memberTargets_subset_of_mem_membersAt he))
  rcases mem_sourceWrites.1 h with h | h
  · obtain ⟨e, he, -, m, hm, rfl⟩ := mem_keptFields.1 h
    exact hmember e he m (List.mem_filter.1 hm).1
  · obtain ⟨e, he, o, ho, -, rfl⟩ := mem_keptOperations.1 h
    obtain ⟨ho, hmethod⟩ := List.mem_filter.1 ho
    have hname : (o.1, prepare source (documentSecurity? source.document) o.2).1 ≠ referenceName := by
      intro hreference
      rw [hreference] at hmethod
      exact absurd hmethod (by decide)
    have hoperation : o.2.targets ⊆ source.document.targets :=
      List.Subset.trans (Json.targets_subset_memberTargets o) (hmember e he o ho)
    intro target ht
    rw [Json.memberTargets_of_ne hname] at ht
    exact (targets_prepare ht).elim (fun ht => hoperation ht) id

theorem mem_targets_table {table : List (String × List (String × Json))} {target : String}
    (h : target ∈ (Json.ofTable table).targets) :
    ∃ e ∈ table, ∃ m ∈ e.2, target ∈ Json.memberTargets m := by
  rw [Json.ofTable, Json.targets_object] at h
  obtain ⟨e', he', ht⟩ := List.mem_flatMap.1 h
  obtain ⟨e, he, rfl⟩ := List.mem_map.1 he'
  have hobject : target ∈ (Json.object e.2).targets := by
    unfold Json.memberTargets at ht
    split at ht
    · exact ht
    · exact ht
  rw [Json.targets_object] at hobject
  obtain ⟨m, hm, ht⟩ := List.mem_flatMap.1 hobject
  exact ⟨e, he, m, hm, ht⟩

theorem fromSource_of_paths {sources : List Source} (h : addAll config sources = .ok s)
    {e : String × List (String × Json)} (he : e ∈ s.paths) {m : String × Json} (hm : m ∈ e.2)
    {target : String} (ht : target ∈ Json.memberTargets m) : FromSource config sources target := by
  have hat := (tidy_paths_of_addAll h).at?_eq_some he hm
  obtain ⟨source, hsource, hw⟩ := exists_write_of_at?_paths h hat
  exact fromSource_of_mem hsource (targets_of_mem_sourceWrites hw ht)

/-! ## Components -/

theorem eq_referenceName_of_componentKey {service : String} {schemas : List (String × Json)}
    {r : Renames} (h : RenamesOf service schemas r) {kind key : String}
    (hk : componentKey r kind key = referenceName) : key = referenceName := by
  by_cases hkind : kind = schemaKind
  · subst hkind
    by_cases hr : key ∈ Entries.keys r
    · rw [h.componentKey hr] at hk
      have hdot := dot_mem_namespaced service key
      rw [hk] at hdot
      exact absurd hdot (by decide)
    · exact (componentKey_of_not_mem hr).symm.trans hk
  · rw [componentKey, if_neg hkind] at hk
    exact hk

theorem targets_of_mem_writesBehind {earlier : List Source} {source : Source}
    {w : (String × String) × Json} (h : w ∈ writesBehind config earlier source) :
    Json.memberTargets (w.1.2, w.2) ⊆ (settled config earlier source).document.targets := by
  obtain ⟨kind, entries, key, value, he, hv, rfl⟩ := mem_componentWrites.1 h
  have hkey : Json.memberTargets (componentKey (renamesBehind config earlier source) kind key, value) ⊆
      Json.memberTargets (key, value) := by
    by_cases hk : componentKey (renamesBehind config earlier source) kind key = referenceName
    · have hname : key = referenceName :=
        eq_referenceName_of_componentKey (renamesOf_renamesBehind config earlier source) hk
      rw [hk, hname]
      exact List.Subset.refl _
    · rw [Json.memberTargets_of_ne hk]
      exact Json.targets_subset_memberTargets (key, value)
  have hentries : entries.targets ⊆ (settled config earlier source).document.targets :=
    List.Subset.trans (Json.targets_subset_memberTargets (kind, entries))
      (Json.memberTargets_subset_of_mem_membersAt he)
  exact List.Subset.trans hkey (List.Subset.trans (memberTargets_subset_of_mem_members? hv) hentries)

theorem fromSource_of_components {sources : List Source} (h : addAll config sources = .ok s)
    {e : String × List (String × Json)} (he : e ∈ s.components) {m : String × Json} (hm : m ∈ e.2)
    {target : String} (ht : target ∈ Json.memberTargets m) : FromSource config sources target := by
  have hstored : s.component? e.1 m.1 = some m.2 := (tidy_components_of_addAll h).at?_eq_some he hm
  obtain ⟨earlier, source, later, hsources, hw⟩ := origin_of_addAll h hstored
  exact ⟨earlier, source, later, hsources, targets_of_mem_writesBehind hw ht⟩

/-! ## Tags -/

theorem targets_metadataTag (source : Source) : (metadataTag source).targets = [] := by
  unfold metadataTag
  rw [Json.targets_object]
  cases source.description <;> cases source.version <;> cases source.healthCheck <;> rfl

theorem fromSource_of_tags {sources : List Source} (h : addAll config sources = .ok s) {tag : Json}
    (htag : tag ∈ s.tags) {target : String} (ht : target ∈ tag.targets) :
    FromSource config sources target := by
  revert htag
  refine addAll_induct (motive := fun sources s => tag ∈ s.tags → FromSource config sources target)
    ?_ ?_ h
  · intro htag
    cases htag
  · intro done source s t hs ih hadd htag
    obtain ⟨decided, inserted, placed, hd, hi, hp, rfl⟩ := add_behind hs hadd
    rcases mem_tags_mergeTags htag with hold | hdeclared | rfl
    · rw [tags_of_mergePaths hp, tags_of_mergeComponents hi,
        (sameContent_of_schemaRenames hd).tags] at hold
      obtain ⟨earlier, other, later, rfl, hother⟩ := ih hold
      exact ⟨earlier, other, later ++ [source], by simp, hother⟩
    · exact ⟨done, source, [], rfl, Json.targets_subset_of_mem_itemsAt hdeclared ht⟩
    · rw [targets_metadataTag] at ht
      cases ht

/-! ## The combined document -/

theorem targets_info (config : CombineConfig) :
    (Json.object ([("title", Json.string config.title), ("version", Json.string config.version)] ++
      Json.member? "description" .string config.description)).targets = [] := by
  rw [Json.targets_object]
  cases config.description <;> rfl

theorem fromSource_of_componentsMember {sources : List Source} (h : addAll config sources = .ok s)
    {m : String × Json} (hm : m ∈ componentsMember s.components) {target : String}
    (ht : target ∈ Json.memberTargets m) : FromSource config sources target := by
  rw [eq_of_mem_componentsMember hm, Json.memberTargets_of_ne (by simp [referenceName])] at ht
  obtain ⟨e, he, c, hc, ht⟩ := mem_targets_table ht
  exact fromSource_of_components h he hc ht

theorem fromSource_of_tagsMember {sources : List Source} (h : addAll config sources = .ok s)
    {m : String × Json} (hm : m ∈ Json.listMember "tags" id s.tags) {target : String}
    (ht : target ∈ Json.memberTargets m) : FromSource config sources target := by
  rw [eq_of_mem_tagsMember hm, Json.memberTargets_of_ne (by simp [referenceName]), Json.targets_array] at ht
  obtain ⟨tag, htag, ht⟩ := List.mem_flatMap.1 ht
  exact fromSource_of_tags h htag ht

/-- Every reference of the combined document stands in a source as it went in. -/
theorem fromSource_of_mem_targets {sources : List Source} (h : addAll config sources = .ok s)
    {target : String} (ht : target ∈ (s.toDocument config).targets) :
    FromSource config sources target := by
  rw [toDocument_eq, Json.targets_object] at ht
  obtain ⟨m, hm, ht⟩ := List.mem_flatMap.1 ht
  rcases List.mem_append.1 hm with hm | hm
  · rcases List.mem_append.1 hm with hm | hm
    · simp only [List.mem_cons, List.not_mem_nil, or_false] at hm
      rcases hm with rfl | rfl | rfl
      · cases ht
      · rw [Json.memberTargets_of_ne (by simp [referenceName]), targets_info] at ht
        cases ht
      · rw [Json.memberTargets_of_ne (by simp [referenceName])] at ht
        obtain ⟨e, he, o, ho, ht⟩ := mem_targets_table ht
        exact fromSource_of_paths h he ho ht
    · exact fromSource_of_componentsMember h hm ht
  · exact fromSource_of_tagsMember h hm ht

end MergeState

end ApiDescription
