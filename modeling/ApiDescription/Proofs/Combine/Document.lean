import ApiDescription.Proofs.Combine.Components
import ApiDescription.Proofs.Combine.Paths
import ApiDescription.Proofs.Combine.Prepare
import ApiDescription.Proofs.Combine.Tags
import ApiDescription.Proofs.Json.Table

/-!
# The combined document

A run over distinct documents combines a distinct one (`distinct_toDocument`), every path of which has an
operation (`exists_operation_of_mem_paths`). Its members are read off the state, so states with the same
paths, components and tags stand for the same document (`same_toDocument`).
-/

set_option autoImplicit false

namespace ApiDescription.MergeState

variable {config : CombineConfig} {sources : List Source} {s t : MergeState}

/-! ## Names that stand once -/

theorem distinct_of_mem_sourceWrites {source : Source} (hd : source.document.distinct = true)
    {w : (String × String) × Json} (hw : w ∈ sourceWrites config source) : w.2.distinct = true := by
  have hmember : ∀ e ∈ Source.membersAt source.document ["paths"], ∀ m ∈ e.2.members?.getD [],
      m.2.distinct = true := fun e he m hm =>
    Json.distinct_of_mem_members? (Json.distinct_of_mem (Source.distinct_object_membersAt hd _) he) hm
  rcases mem_sourceWrites.1 hw with hw | hw
  · obtain ⟨e, he, -, m, hm, rfl⟩ := mem_keptFields.1 hw
    exact hmember e he m (List.mem_filter.1 hm).1
  · obtain ⟨e, he, o, ho, -, rfl⟩ := mem_keptOperations.1 hw
    exact distinct_prepare source hd (hmember e he o (List.mem_filter.1 ho).1)

theorem tidy_paths_of_addAll (h : addAll config sources = .ok s) : Entries.Tidy s.paths := by
  rw [paths_of_addAll h]
  exact Entries.tidy_putAll Entries.tidy_nil _

theorem filled_paths_of_addAll (h : addAll config sources = .ok s) : Entries.Filled s.paths := by
  rw [paths_of_addAll h]
  exact Entries.filled_putAll Entries.filled_nil _

/-- What stands under a path was written there by a source as it went in. -/
theorem exists_write_of_at?_paths (h : addAll config sources = .ok s) {path name : String} {value : Json}
    (hat : Entries.at? s.paths path name = some value) :
    ∃ source ∈ settledSources config sources, ((path, name), value) ∈ sourceWrites config source := by
  rw [paths_of_addAll h, Entries.at?_putAll, Entries.at?_nil, Option.or_none] at hat
  exact List.mem_flatMap.1 (Entries.mem_of_lookup_reverse hat)

theorem distinct_settled (hd : ∀ source ∈ sources, source.document.distinct = true) :
    ∀ source ∈ settledSources config sources, source.document.distinct = true := by
  intro source hsource
  obtain ⟨earlier, given, later, rfl, rfl⟩ := mem_settledSources.1 hsource
  exact Renames.distinct_redirect _ (hd given (by simp))

theorem distinct_metadataTag (source : Source) : (metadataTag source).distinct = true := by
  unfold metadataTag
  cases source.description <;> cases source.version <;> cases source.healthCheck <;>
    simp [Json.distinct, Json.distinctMembers, Entries.keys, Json.member?]

theorem distinct_of_mem_tags (hd : ∀ source ∈ sources, source.document.distinct = true)
    (h : addAll config sources = .ok s) : ∀ tag ∈ s.tags, tag.distinct = true := by
  have hbehind : ∀ (sources : List Source) (tags : List Json),
      (∀ source ∈ sources, source.document.distinct = true) → (∀ tag ∈ tags, tag.distinct = true) →
        ∀ tag ∈ sources.foldl (fun tags source => tagsBehind source tags) tags,
          tag.distinct = true := by
    intro sources
    induction sources with
    | nil => exact fun _ _ ht => ht
    | cons source sources ih =>
      intro tags hs ht
      refine ih _ (fun other ho => hs other (List.mem_cons_of_mem _ ho)) ?_
      intro tag htag
      rcases mem_tags_mergeTags (s := { tags := tags }) htag with hold | hdeclared | rfl
      · exact ht tag hold
      · exact Source.distinct_of_mem_itemsAt (hs source List.mem_cons_self) hdeclared
      · exact distinct_metadataTag source
  rw [tags_of_addAll h]
  exact hbehind _ [] (distinct_settled hd) (by simp)

/-! ## The members of the document -/

/-- The members of the combined document. -/
def documentMembers (config : CombineConfig) (s : MergeState) : List (String × Json) :=
  [("openapi", .string openApiVersion),
    ("info", .object <|
      [("title", .string config.title), ("version", .string config.version)] ++
        Json.member? "description" .string config.description),
    ("paths", Json.ofTable s.paths)] ++
  componentsMember s.components ++ Json.listMember "tags" id s.tags

theorem toDocument_eq (config : CombineConfig) (s : MergeState) :
    s.toDocument config = .object (documentMembers config s) := rfl

theorem nodup_keys_documentMembers (config : CombineConfig) (s : MergeState) :
    (Entries.keys (documentMembers config s)).Nodup := by
  unfold documentMembers
  cases s.components <;> cases s.tags <;>
    simp [Entries.keys, componentsMember, Json.listMember]

theorem eq_of_mem_componentsMember {components : List (String × List (String × Json))}
    {m : String × Json} (h : m ∈ componentsMember components) :
    m = ("components", Json.ofTable components) := by
  cases components with
  | nil => cases h
  | cons => exact List.mem_singleton.1 h

theorem eq_of_mem_tagsMember {tags : List Json} {m : String × Json}
    (h : m ∈ Json.listMember "tags" id tags) : m = ("tags", .array tags) := by
  cases tags with
  | nil => cases h
  | cons => simpa [Json.listMember, Json.listOf] using h

theorem distinct_info (config : CombineConfig) :
    (Json.object ([("title", Json.string config.title), ("version", Json.string config.version)] ++
      Json.member? "description" .string config.description)).distinct = true := by
  cases config.description <;>
    simp [Json.distinct, Json.distinctMembers, Entries.keys, Json.member?]

/-- A document that is combined of distinct ones is distinct. -/
theorem distinct_toDocument (hd : ∀ source ∈ sources, source.document.distinct = true)
    (h : addAll config sources = .ok s) : (s.toDocument config).distinct = true := by
  have hpaths : (Json.ofTable s.paths).distinct = true := by
    refine Json.distinct_ofTable (tidy_paths_of_addAll h) fun path name value hat => ?_
    obtain ⟨source, hsource, hw⟩ := exists_write_of_at?_paths h hat
    exact distinct_of_mem_sourceWrites (distinct_settled hd source hsource) hw
  have hcomponents : (Json.ofTable s.components).distinct = true :=
    Json.distinct_ofTable (tidy_components_of_addAll h) fun _ _ _ hat =>
      distinct_of_component? hd h hat
  have htags : (Json.array s.tags).distinct = true :=
    (Json.distinct_array_iff _).2 (distinct_of_mem_tags hd h)
  rw [toDocument_eq, Json.distinct_object_iff]
  refine ⟨nodup_keys_documentMembers config s, ?_⟩
  intro m hm
  simp only [documentMembers, List.mem_append, List.mem_cons, List.not_mem_nil, or_false] at hm
  rcases hm with ((rfl | rfl | rfl) | hm) | hm
  · rfl
  · exact distinct_info config
  · exact hpaths
  · rw [eq_of_mem_componentsMember hm]
    exact hcomponents
  · rw [eq_of_mem_tagsMember hm]
    exact htags

/-! ## What is read off the document -/

theorem get?_security_toDocument (s : MergeState) : (s.toDocument config).get? "security" = none := by
  rw [toDocument_eq]
  show Entries.get? (documentMembers config s) "security" = none
  unfold documentMembers
  cases s.components <;> cases s.tags <;> rfl

theorem documentSecurity?_toDocument (s : MergeState) :
    documentSecurity? (s.toDocument config) = none := by
  rw [documentSecurity?, get?_security_toDocument]

/-- The tags are a list, which is left out when it is empty. -/
theorem get?_tags_toDocument (s : MergeState) :
    (s.toDocument config).get? "tags" = if s.tags = [] then none else some (.array s.tags) := by
  have hget : (s.toDocument config).get? "tags" =
      Entries.get? (Json.listMember "tags" id s.tags) "tags" := by
    rw [toDocument_eq]
    show Entries.get? (documentMembers config s) "tags" = _
    unfold documentMembers
    cases s.components <;> rfl
  rw [hget]
  cases s.tags with
  | nil => rfl
  | cons tag tags => simp [Json.listMember, Json.listOf, Entries.get?]

theorem itemsAt_tags_toDocument (s : MergeState) :
    Source.itemsAt (s.toDocument config) "tags" = s.tags := by
  rw [Source.itemsAt, get?_tags_toDocument]
  cases s.tags with
  | nil => rfl
  | cons => simp [Json.items?]

/-- A path stands in the combined document only with an operation. -/
theorem exists_operation_of_mem_paths (h : addAll config sources = .ok s)
    {e : String × List (String × Json)} (he : e ∈ s.paths) :
    ∃ m ∈ e.2, DocumentFault.isMethod m.1 = true := by
  have hlast := lastWriterWins_toDocument h
  have hkeys : Entries.keys (Source.membersAt (s.toDocument config) ["paths"]) =
      Entries.keys s.paths := keys_paths_toDocument s
  have hpath : e.1 ∈ Entries.keys s.paths := Entries.mem_keys_of_mem he
  rw [← hkeys, hlast.paths, List.mem_eraseDups] at hpath
  obtain ⟨w, hw, hpath⟩ := List.mem_map.1 hpath
  obtain ⟨source, hsource, hkept⟩ := List.mem_flatMap.1 hw
  have hm : DocumentFault.isMethod w.1.2 = true := by
    rw [← filter_sourceWrites] at hkept
    exact (List.mem_filter.1 hkept).2
  have hlookup := hlast.operation w.1.1 w.1.2 hm
  rw [lookup?_paths_toDocument, hpath] at hlookup
  have hsome : Entries.at? s.paths e.1 w.1.2 ≠ none := by
    rw [hlookup, ← hpath]
    exact fun hnone => Entries.lookup_reverse_eq_none_iff.1 hnone (List.mem_map.2 ⟨w, hw, rfl⟩)
  obtain ⟨value, hvalue⟩ := Option.ne_none_iff_exists'.1 hsome
  rw [Entries.at?, Entries.get?_eq_some_of_mem (tidy_paths_of_addAll h).1 he] at hvalue
  exact ⟨(w.1.2, value), Entries.mem_of_get?_eq_some hvalue, hm⟩

/-! ## The same document -/

theorem forall₂_componentsMember {components components' : List (String × List (String × Json))}
    (h : (Json.ofTable components).same (Json.ofTable components') = true) :
    List.Forall₂ (fun m n => m.1 = n.1 ∧ m.2.same n.2 = true) (componentsMember components)
      (componentsMember components') := by
  obtain ⟨ns, hns, hlength, -⟩ := (Json.same_object_iff _ _).1 h
  cases hns
  cases components with
  | nil =>
    cases components' with
    | nil => exact .nil
    | cons => simp at hlength
  | cons =>
    cases components' with
    | nil => simp at hlength
    | cons => exact .cons ⟨rfl, h⟩ .nil

/-- States with the same paths, components and tags stand for the same document. -/
theorem same_toDocument (hpaths : (Json.ofTable s.paths).same (Json.ofTable t.paths) = true)
    (hcomponents : (Json.ofTable s.components).same (Json.ofTable t.components) = true)
    (htags : s.tags = t.tags) (hd : (t.toDocument config).distinct = true) :
    (s.toDocument config).same (t.toDocument config) = true := by
  rw [toDocument_eq, Json.distinct_object_iff] at hd
  have hself : ∀ m ∈ documentMembers config t, m.2.same m.2 = true := fun m hm =>
    Json.same_refl (hd.2 m hm)
  have htagsMember : List.Forall₂ (fun m n => m.1 = n.1 ∧ m.2.same n.2 = true)
      (Json.listMember "tags" id s.tags) (Json.listMember "tags" id t.tags) := by
    rw [htags]
    exact List.forall₂_same.2 fun m hm => ⟨rfl, hself m (List.mem_append_right _ hm)⟩
  refine Json.same_object_of_forall₂ (nodup_keys_documentMembers config t) ?_
  refine List.rel_append (List.rel_append ?_ (forall₂_componentsMember hcomponents)) htagsMember
  refine .cons ⟨rfl, hself ("openapi", _) (by simp [documentMembers])⟩
    (.cons ⟨rfl, hself ("info", _) (by simp [documentMembers])⟩ (.cons ⟨rfl, hpaths⟩ .nil))

end ApiDescription.MergeState
