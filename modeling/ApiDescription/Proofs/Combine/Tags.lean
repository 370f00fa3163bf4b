import ApiDescription.Proofs.Combine.SchemaRenames
import ApiDescription.Proofs.Combine.Settled

/-!
# The tags of a run

Tags do not hang on paths or components: a run puts those of each source behind those of the sources before
it (`tags_of_addAll`). All of them have names, no two the same one (`namedOnce_of_addAll`), and declaring
tags of which this is so gives them back (`foldl_declareTag_of_namedOnce`).
-/

set_option autoImplicit false

namespace ApiDescription.MergeState

variable {config : CombineConfig} {s t : MergeState}

/-! ## What merging does to tags -/

theorem mem_foldl_declareTag {declared tags : List Json} {tag : Json}
    (h : tag ∈ declared.foldl declareTag tags) : tag ∈ tags ∨ tag ∈ declared := by
  induction declared generalizing tags with
  | nil => exact Or.inl h
  | cons d declared ih =>
    rcases ih h with h | h
    · have hd : tag ∈ tags ++ [d] := by
        unfold declareTag at h
        split at h
        · split at h
          · exact List.mem_append_left _ h
          · exact h
        · exact List.mem_append_left _ h
      rcases List.mem_append.1 hd with hd | hd
      · exact Or.inl hd
      · rw [List.mem_singleton.1 hd]
        exact Or.inr List.mem_cons_self
    · exact Or.inr (List.mem_cons_of_mem _ h)

/-- A tag was there before, or the document declares it, or it says what is known about the service. -/
theorem mem_tags_mergeTags {source : Source} {document tag : Json}
    (h : tag ∈ (s.mergeTags source document).tags) :
    tag ∈ s.tags ∨ tag ∈ Source.itemsAt document "tags" ∨ tag = metadataTag source := by
  unfold mergeTags at h
  simp only at h
  split at h
  · rcases List.mem_append.1 h with h | h
    · exact (mem_foldl_declareTag (List.mem_filter.1 h).1).imp_right Or.inl
    · exact Or.inr (Or.inr (List.mem_singleton.1 h))
  · exact (mem_foldl_declareTag h).imp_right Or.inl

theorem tags_of_mergeComponents {strategy : ConflictStrategy} {service : String} {r : Renames}
    {document : Json} (h : s.mergeComponents strategy service r document = .ok t) :
    t.tags = s.tags :=
  mergeComponents_invariant (P := fun t => t.tags = s.tags) h rfl (fun _ _ _ _ hu => hu)
    fun _ _ _ _ hu => hu

theorem tags_of_mergePaths {source : Source} {document : Json}
    (h : s.mergePaths config source document = .ok t) : t.tags = s.tags :=
  mergePaths_invariant (P := fun t => t.tags = s.tags) h rfl (fun _ _ _ _ hu => hu)
    fun _ _ _ _ _ hu => hu

/-- The tags of a source behind others. -/
def tagsBehind (source : Source) (tags : List Json) : List Json :=
  let declared := (Source.itemsAt source.document "tags").foldl declareTag tags
  if source.hasMetadata then
    (declared.filter fun tag => tagName? tag != some (Service.tag source.service)) ++
      [metadataTag source]
  else declared

/-- A run puts the tags of its sources one behind the other. -/
theorem tags_of_addAll {sources : List Source} (h : addAll config sources = .ok s) :
    s.tags = (settledSources config sources).foldl (fun tags source => tagsBehind source tags) [] := by
  refine addAll_induct (motive := fun sources s => s.tags =
    (settledSources config sources).foldl (fun tags source => tagsBehind source tags) []) rfl ?_ h
  intro done source s t hs ih ht
  obtain ⟨decided, inserted, placed, hd, hi, hp, rfl⟩ := add_behind hs ht
  have hplaced : placed.tags = s.tags := by
    rw [tags_of_mergePaths hp, tags_of_mergeComponents hi, (sameContent_of_schemaRenames hd).tags]
  rw [settledSources_concat, List.foldl_concat, ← ih, ← hplaced]
  rfl

/-! ## Tags with names of their own -/

/-- Every tag has a name, and no two have the same. -/
structure NamedOnce (tags : List Json) : Prop where
  named : ∀ tag ∈ tags, (tagName? tag).isSome = true
  once : (tags.map tagName?).Nodup

theorem namedOnce_nil : NamedOnce [] := ⟨by simp, List.nodup_nil⟩

theorem NamedOnce.concat {tags : List Json} (h : NamedOnce tags) {tag : Json} {name : String}
    (hname : tagName? tag = some name) (hnew : ∀ other ∈ tags, tagName? other ≠ some name) :
    NamedOnce (tags ++ [tag]) where
  named := by
    intro other ho
    rcases List.mem_append.1 ho with ho | ho
    · exact h.named other ho
    · rw [List.mem_singleton.1 ho, hname]
      rfl
  once := by
    rw [List.map_append, List.map_cons, List.map_nil, hname]
    refine List.nodup_append.2 ⟨h.once, by simp, ?_⟩
    intro a ha b hb hab
    obtain ⟨other, ho, rfl⟩ := List.mem_map.1 ha
    exact hnew other ho (hab.trans (List.mem_singleton.1 hb))

theorem NamedOnce.filter {tags : List Json} (h : NamedOnce tags) (p : Json → Bool) :
    NamedOnce (tags.filter p) where
  named tag htag := h.named tag (List.mem_filter.1 htag).1
  once := h.once.sublist (List.filter_sublist.map tagName?)

theorem declareTag_cases (tags : List Json) (tag : Json) :
    declareTag tags tag = tags ∨ ∃ name, tagName? tag = some name ∧
      (∀ other ∈ tags, tagName? other ≠ some name) ∧ declareTag tags tag = tags ++ [tag] := by
  unfold declareTag
  cases hname : tagName? tag with
  | none => exact Or.inl rfl
  | some name =>
    simp only
    split
    · exact Or.inl rfl
    · next hany =>
      refine Or.inr ⟨name, rfl, ?_, rfl⟩
      simpa using hany

theorem NamedOnce.declareTag {tags : List Json} (h : NamedOnce tags) (tag : Json) :
    NamedOnce (declareTag tags tag) := by
  rcases declareTag_cases tags tag with hsame | ⟨name, hname, hnew, hmore⟩
  · rw [hsame]
    exact h
  · rw [hmore]
    exact h.concat hname hnew

theorem NamedOnce.foldl_declareTag {tags : List Json} (h : NamedOnce tags) (declared : List Json) :
    NamedOnce (declared.foldl MergeState.declareTag tags) := by
  induction declared generalizing tags with
  | nil => exact h
  | cons tag declared ih => exact ih (h.declareTag tag)

theorem tagName?_metadataTag (source : Source) :
    tagName? (metadataTag source) = some (Service.tag source.service) := rfl

theorem namedOnce_tagsBehind (source : Source) {tags : List Json} (h : NamedOnce tags) :
    NamedOnce (tagsBehind source tags) := by
  have hdeclared := h.foldl_declareTag (Source.itemsAt source.document "tags")
  unfold tagsBehind
  simp only
  split
  · refine (hdeclared.filter _).concat (tagName?_metadataTag source) ?_
    intro other ho
    simpa using (List.mem_filter.1 ho).2
  · exact hdeclared

theorem namedOnce_of_addAll {sources : List Source} (h : addAll config sources = .ok s) :
    NamedOnce s.tags := by
  rw [tags_of_addAll h]
  generalize settledSources config sources = settled
  have hfold : ∀ (sources : List Source) (tags : List Json), NamedOnce tags →
      NamedOnce (sources.foldl (fun tags source => tagsBehind source tags) tags) := by
    intro sources
    induction sources with
    | nil => exact fun _ h => h
    | cons source sources ih => exact fun tags h => ih _ (namedOnce_tagsBehind source h)
  exact hfold settled [] namedOnce_nil

/-! ## Declaring tags again -/

theorem foldl_declareTag_of_namedOnce {before tags : List Json} (h : NamedOnce (before ++ tags)) :
    tags.foldl declareTag before = before ++ tags := by
  induction tags generalizing before with
  | nil => exact (List.append_nil before).symm
  | cons tag tags ih =>
    have hsplit : before ++ tag :: tags = (before ++ [tag]) ++ tags := by simp
    have honce := h.once
    rw [List.map_append, List.nodup_append] at honce
    have hstep : declareTag before tag = before ++ [tag] := by
      obtain ⟨name, hname⟩ := Option.isSome_iff_exists.1 (h.named tag (by simp))
      have hnew : before.any (tagName? · == some name) = false := by
        rw [List.any_eq_false]
        intro other ho
        simpa [hname] using honce.2.2 _ (List.mem_map.2 ⟨other, ho, rfl⟩) (tagName? tag) (by simp)
      rw [declareTag, hname]
      simp only [hnew, if_neg Bool.false_ne_true]
    rw [hsplit] at h ⊢
    rw [List.foldl_cons, hstep]
    exact ih h

/-- The tags that one source leaves behind are what it leaves behind when it declares them. -/
theorem tagsBehind_again {source : Source} {document : Json}
    (h : Source.itemsAt document "tags" = tagsBehind source []) :
    tagsBehind { source with document := document } [] = tagsBehind source [] := by
  have hdeclared : (Source.itemsAt document "tags").foldl declareTag [] = tagsBehind source [] := by
    have hnamed : NamedOnce ([] ++ tagsBehind source []) := namedOnce_tagsBehind source namedOnce_nil
    rw [h]
    exact foldl_declareTag_of_namedOnce hnamed
  have hmetadata : Source.hasMetadata { source with document := document } = source.hasMetadata := rfl
  have htag : metadataTag { source with document := document } = metadataTag source := rfl
  rw [tagsBehind, hdeclared, hmetadata, htag]
  cases hm : source.hasMetadata with
  | false => rfl
  | true =>
    -- the tag of the service goes and comes back, and no other one has its name
    simp [tagsBehind, hm, tagName?_metadataTag, List.filter_append]

end ApiDescription.MergeState
