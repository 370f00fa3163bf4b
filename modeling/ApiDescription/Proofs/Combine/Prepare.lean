import ApiDescription.Proofs.Combine.Source

/-!
# Operations as they go in

An operation is prepared for the combined document: it gets the tags of its source and the requirements of its
document, and nothing else of it changes (`get?_prepare_ne`). An operation that was prepared once has what it
would get, so it stays as it is (`prepare_prepare`).
-/

set_option autoImplicit false

namespace ApiDescription.MergeState

variable {source : Source}

/-! ## Members of a prepared operation -/

theorem get?_prepare_ne (source : Source) (security : Option Json) (operation : Json) {name : String}
    (htags : name ≠ "tags") (hsecurity : name ≠ "security") :
    (prepare source security operation).get? name = operation.get? name := by
  cases operation with
  | object members =>
    have hget : Entries.get? (Entries.put members "tags"
        (.array ((combinedTags source (.object members)).map .string))) name =
          Entries.get? members name := Entries.get?_put_ne members _ htags
    cases security with
    | none => exact hget
    | some requirements => exact (Entries.get?_putNew_ne _ _ hsecurity).trans hget
  | _ => rfl

theorem distinct_of_documentSecurity? {document security : Json} (hd : document.distinct = true)
    (h : documentSecurity? document = some security) : security.distinct = true := by
  unfold documentSecurity? at h
  split at h
  · next hget =>
    cases h
    exact Json.distinct_of_get? hd hget
  · cases h

theorem distinct_prepare (source : Source) {document operation : Json} (hd : document.distinct = true)
    (ho : operation.distinct = true) :
    (prepare source (documentSecurity? document) operation).distinct = true := by
  cases operation with
  | object ms =>
    have htags : (Json.object (Entries.put ms "tags"
        (.array ((combinedTags source (.object ms)).map .string)))).distinct = true :=
      Json.distinct_put ho "tags" (Json.distinct_strings _)
    unfold prepare
    simp only
    cases hs : documentSecurity? document with
    | none => exact htags
    | some security => exact Json.distinct_putNew htags _ (distinct_of_documentSecurity? hd hs)
  | _ => exact ho

/-! ## Tags -/

/-- The tags with one more at the end, unless it is there. -/
def addTag (tags : List String) (tag : String) : List String :=
  if tags.contains tag then tags else tags ++ [tag]

theorem combinedTags_eq (source : Source) (operation : Json) :
    combinedTags source operation =
      if (source.tags.foldl addTag (tagsOf operation)).contains (Service.tag source.service) then
        source.tags.foldl addTag (tagsOf operation)
      else Service.tag source.service :: source.tags.foldl addTag (tagsOf operation) := rfl

theorem foldl_addTag_of_subset {tags added : List String} (h : added ⊆ tags) :
    added.foldl addTag tags = tags := by
  induction added with
  | nil => rfl
  | cons tag added ih =>
    have hin : tags.contains tag = true := List.contains_iff_mem.2 (h List.mem_cons_self)
    rw [List.foldl_cons, addTag, if_pos hin]
    exact ih fun t ht => h (List.mem_cons_of_mem _ ht)

theorem subset_foldl_addTag (tags added : List String) :
    tags ⊆ added.foldl addTag tags ∧ added ⊆ added.foldl addTag tags := by
  induction added generalizing tags with
  | nil => exact ⟨List.Subset.refl _, by simp⟩
  | cons tag added ih =>
    rw [List.foldl_cons, addTag]
    split
    · next hin =>
      obtain ⟨htags, hadded⟩ := ih tags
      exact ⟨htags, List.cons_subset.2 ⟨htags (List.contains_iff_mem.1 hin), hadded⟩⟩
    · obtain ⟨htags, hadded⟩ := ih (tags ++ [tag])
      exact ⟨fun t ht => htags (List.mem_append_left _ ht),
        List.cons_subset.2 ⟨htags (by simp), hadded⟩⟩

/-- An operation that has the tags of its source already keeps its tags. -/
theorem combinedTags_of_subset {operation : Json} (htags : source.tags ⊆ tagsOf operation)
    (hservice : Service.tag source.service ∈ tagsOf operation) :
    combinedTags source operation = tagsOf operation := by
  rw [combinedTags_eq, foldl_addTag_of_subset htags]
  exact if_pos (List.contains_iff_mem.2 hservice)

theorem subset_combinedTags (source : Source) (operation : Json) :
    source.tags ⊆ combinedTags source operation ∧
      Service.tag source.service ∈ combinedTags source operation := by
  obtain ⟨-, hadded⟩ := subset_foldl_addTag (tagsOf operation) source.tags
  rw [combinedTags_eq]
  split
  · next hin => exact ⟨hadded, List.contains_iff_mem.1 hin⟩
  · exact ⟨fun t ht => List.mem_cons_of_mem _ (hadded ht), List.mem_cons_self⟩

theorem get?_tags_prepare (source : Source) (security : Option Json) (members : List (String × Json)) :
    (prepare source security (.object members)).get? "tags" =
      some (.array ((combinedTags source (.object members)).map .string)) := by
  unfold prepare
  cases security with
  | none => exact Entries.get?_put_self _ _ _
  | some requirements =>
    show Entries.get? (Entries.putNew _ "security" requirements) "tags" = _
    rw [Entries.get?_putNew_ne _ _ (by decide), Entries.get?_put_self]

theorem tagsOf_prepare (source : Source) (security : Option Json) (members : List (String × Json)) :
    tagsOf (prepare source security (.object members)) = combinedTags source (.object members) := by
  rw [tagsOf, Source.itemsAt, get?_tags_prepare]
  simp [Json.items?, List.filterMap_map, Function.comp_def, Json.string?]

/-- A prepared operation stays as it is, in a document that makes no requirements. -/
theorem prepare_prepare (source : Source) (security : Option Json) (operation : Json) :
    prepare source none (prepare source security operation) = prepare source security operation := by
  cases operation with
  | object members =>
    obtain ⟨htags, hservice⟩ := subset_combinedTags source (.object members)
    rw [← tagsOf_prepare source security members] at htags hservice
    have hget := get?_tags_prepare source security members
    rw [← tagsOf_prepare source security members, ← combinedTags_of_subset htags hservice] at hget
    -- the tags that would be put are those that are there
    generalize hp : prepare source security (.object members) = prepared at hget ⊢
    cases prepared with
    | object ms => rw [prepare, Entries.put_of_get?_eq_some hget]
    | _ => cases hget
  | _ => rfl

end ApiDescription.MergeState
