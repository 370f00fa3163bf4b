import ApiDescription.Proofs.Combine.Document
import ApiDescription.Proofs.Combine.Order
import ApiDescription.Proofs.Combine.ServicePath

/-!
# Combining a combined document again

What a run over one source leaves behind is `Normal`: paths without runs of slashes, operations that are
prepared for the service, tags that stay when they are declared again. A document of a normal state,
combined again as the only one, meets no conflict and leaves the same state behind, so combining is
idempotent (`combine_again`).
-/

set_option autoImplicit false

namespace ApiDescription

/-- The options leave the paths and the names of a service as they are, and keep all operations. -/
structure CombineConfig.Neutral (config : CombineConfig) (service : String) : Prop where
  mergeSchemas : config.mergeSchemas = true
  baseUrl : config.baseUrl = ""
  pathPrefix : config.prefixOf service = ""
  includeTags : config.includeTags = []
  excludeTags : config.excludeTags = []

theorem CombineConfig.Neutral.withStrategy {config : CombineConfig} {service : String}
    (h : config.Neutral service) (strategy : ConflictStrategy) :
    (config.withStrategy strategy).Neutral service :=
  ⟨h.mergeSchemas, h.baseUrl, h.pathPrefix, h.includeTags, h.excludeTags⟩

namespace MergeState

variable {config : CombineConfig} {source : Source} {s t : MergeState}

/-! ## Normal states -/

/-- What stands in the state is as a source of the service leaves it. -/
structure Normal (source : Source) (s : MergeState) : Prop where
  tidyComponents : Entries.Tidy s.components
  filledComponents : Entries.Filled s.components
  tidyPaths : Entries.Tidy s.paths
  /-- No path has a run of slashes. -/
  path : ∀ e ∈ s.paths, ServicePath.normalize e.1 = e.1
  /-- Every path has an operation. -/
  operation : ∀ e ∈ s.paths, ∃ m ∈ e.2, DocumentFault.isMethod m.1 = true
  /-- Every operation is prepared. -/
  prepared : ∀ e ∈ s.paths, ∀ m ∈ e.2, DocumentFault.isMethod m.1 = true →
    prepare source none m.2 = m.2
  tags : s.tags = tagsBehind source []

theorem renamesBehind_nil (hm : config.mergeSchemas = true) (source : Source) :
    renamesBehind config [] source = [] := by
  have hkeeps : config.mergeSchemas = true → ∀ m ∈ schemasOf source.document,
      Keeps ({} : MergeState) [] m := by
    intro _ m _ existing he
    cases he
  obtain ⟨t, ht⟩ := exists_schemaRenames_of_keeps hkeeps
  have hempty : addAll config [] = .ok {} := rfl
  simp only [renamesBehind, hempty, ht, ownRenames_of_merge hm]

theorem settledSources_single (hm : config.mergeSchemas = true) (source : Source) :
    settledSources config [source] = [source] := by
  have hsettled : settled config [] source = source := by
    rw [settled, renamesBehind_nil hm, Renames.redirect_nil]
  exact congrArg (fun source => [source]) hsettled

theorem finalPath_of_neutral (hn : config.Neutral source.service) (path : String) :
    finalPath config source path = ServicePath.normalize path := by
  rw [finalPath, hn.baseUrl, hn.pathPrefix, ServicePath.join_empty]

/-- A run over one source leaves a normal state behind. -/
theorem normal_of_addAll (hn : config.Neutral source.service) (h : addAll config [source] = .ok s) :
    Normal source s := by
  have hkept : ∀ e ∈ s.paths, ∀ m ∈ e.2, DocumentFault.isMethod m.1 = true →
      ∃ path operation, finalPath config source path = e.1 ∧
        prepare source (documentSecurity? source.document) operation = m.2 := by
    intro e he m hm hmethod
    have hat := (tidy_paths_of_addAll h).at?_eq_some he hm
    obtain ⟨other, hother, hw⟩ := exists_write_of_at?_paths h hat
    rw [settledSources_single hn.mergeSchemas, List.mem_singleton] at hother
    rw [hother] at hw
    have hw' : ((e.1, m.1), m.2) ∈ keptOperations config source := by
      rw [← filter_sourceWrites]
      exact List.mem_filter.2 ⟨hw, hmethod⟩
    obtain ⟨item, -, o, -, -, he⟩ := mem_keptOperations.1 hw'
    exact ⟨item.1, o.2, congrArg (·.1.1) he, congrArg (·.2) he⟩
  refine ⟨tidy_components_of_addAll h, filled_components_of_addAll h, tidy_paths_of_addAll h, ?_,
    fun e he => exists_operation_of_mem_paths h he, ?_, ?_⟩
  · intro e he
    obtain ⟨m, hm, hmethod⟩ := exists_operation_of_mem_paths h he
    obtain ⟨path, -, hpath, -⟩ := hkept e he m hm hmethod
    rw [← hpath, finalPath_of_neutral hn, ServicePath.normalize_normalize]
  · intro e he m hm hmethod
    obtain ⟨-, operation, -, hoperation⟩ := hkept e he m hm hmethod
    rw [← hoperation]
    exact prepare_prepare source _ operation
  · rw [tags_of_addAll h, settledSources_single hn.mergeSchemas]
    rfl

/-! ## What the document of a normal state puts in -/

theorem componentWrites_toDocument (s : MergeState) :
    componentWrites [] (s.toDocument config) = Entries.cells s.components := by
  have hkey : ∀ kind key, componentKey [] kind key = key := by
    intro kind key
    unfold componentKey
    split <;> rfl
  unfold componentWrites componentsOf Entries.cells
  rw [membersAt_components_toDocument, List.flatMap_map, List.map_flatMap]
  refine List.flatMap_congr fun e _ => ?_
  simp [Json.members?, hkey, Function.comp_def]

/-- The source with the document of a state. -/
def again (config : CombineConfig) (source : Source) (s : MergeState) : Source :=
  { source with document := s.toDocument config }

section Again

variable (hn : config.Neutral source.service) (hs : Normal source s)

include hn

theorem ownComponents_again :
    ownComponents config (again config source s) = Entries.cells s.components := by
  rw [ownComponents, ownSettled_of_merge hn.mergeSchemas, ownRenames_of_merge hn.mergeSchemas]
  exact componentWrites_toDocument s

include hs

theorem finalPath_again {e : String × List (String × Json)} (he : e ∈ s.paths) :
    finalPath config (again config source s) e.1 = e.1 :=
  (finalPath_of_neutral hn e.1).trans (hs.path e he)

theorem keptOf_again {e : String × List (String × Json)} (he : e ∈ s.paths) :
    keptOf config (again config source s) (.object e.2) =
      e.2.filter fun m => DocumentFault.isMethod m.1 := by
  have hallows : ∀ tags, config.tagFilter.allows tags = true := by
    simp [CombineConfig.tagFilter, TagFilter.allows, hn.includeTags, hn.excludeTags]
  have hprepare : ∀ m ∈ e.2.filter (fun m => DocumentFault.isMethod m.1),
      (m.1, prepare (again config source s) (documentSecurity? (s.toDocument config)) m.2) = m := by
    intro m hm
    obtain ⟨hm, hmethod⟩ := List.mem_filter.1 hm
    rw [documentSecurity?_toDocument]
    exact congrArg (Prod.mk m.1) (hs.prepared e he m hm hmethod)
  have hoperations : DocumentFault.operationsOf (.object e.2) =
      e.2.filter fun m => DocumentFault.isMethod m.1 := rfl
  rw [keptOf, hoperations, List.filter_eq_self.2 fun _ _ => hallows _]
  exact (List.map_congr_left hprepare).trans (List.map_id _)

theorem keptOperations_again :
    keptOperations config (again config source s) =
      (Entries.cells s.paths).filter fun w => DocumentFault.isMethod w.1.2 := by
  have hpaths : Source.membersAt (again config source s).document ["paths"] =
      s.paths.map fun e => (e.1, .object e.2) := membersAt_paths_toDocument s
  rw [keptOperations, hpaths, List.flatMap_map, Entries.cells, List.filter_flatMap]
  refine List.flatMap_congr fun e he => ?_
  simp only [keptOf_again hn hs he, finalPath_again hn hs he, List.filter_map]
  rfl

theorem mem_sourceWrites_again (w : (String × String) × Json) :
    w ∈ sourceWrites config (again config source s) ↔ w ∈ Entries.cells s.paths := by
  have hpaths : Source.membersAt (again config source s).document ["paths"] =
      s.paths.map fun e => (e.1, .object e.2) := membersAt_paths_toDocument s
  have hitem : ∀ e ∈ s.paths, itemWrites config (again config source s) (e.1, .object e.2) =
      ((fieldsOf (.object e.2)) ++ e.2.filter fun m => DocumentFault.isMethod m.1).map
        fun m => ((e.1, m.1), m.2) := by
    intro e he
    have hkept : e.2.filter (fun m => DocumentFault.isMethod m.1) ≠ [] := by
      obtain ⟨m, hm, hmethod⟩ := hs.operation e he
      exact List.ne_nil_of_mem (List.mem_filter.2 ⟨hm, hmethod⟩)
    rw [itemWrites]
    simp only [keptOf_again hn hs he, finalPath_again hn hs he, if_neg hkept]
  -- an item gives what is no operation first, and all of it
  have hall : ∀ (item : List (String × Json)) (m : String × Json),
      m ∈ fieldsOf (.object item) ++ item.filter (fun m => DocumentFault.isMethod m.1) ↔ m ∈ item := by
    intro item m
    have hfields : fieldsOf (.object item) = item.filter fun m => !DocumentFault.isMethod m.1 := rfl
    rw [hfields, List.mem_append, List.mem_filter, List.mem_filter]
    cases DocumentFault.isMethod m.1 <;> simp
  rw [sourceWrites, hpaths, List.flatMap_map, Entries.mem_cells, List.mem_flatMap]
  refine exists_congr fun e => and_congr_right fun he => ?_
  simp only [hitem e he, List.mem_map, hall]

/-- The document of a normal state meets no conflict. -/
theorem compatible_again (hd : (s.toDocument config).distinct = true) :
    Compatible config [again config source s] where
  components := by
    intro w hw w' hw' hkey
    rw [List.flatMap_singleton] at hw hw'
    have hdocument : (again config source s).document.distinct = true := hd
    have hdistinct : w.2.distinct = true := distinct_of_mem_ownComponents hdocument hw
    rw [ownComponents_again hn, hs.tidyComponents.mem_cells_iff] at hw hw'
    rw [hkey, hw'] at hw
    rw [← Option.some.inj hw] at hdistinct ⊢
    exact Json.same_refl hdistinct
  operations := by
    rw [List.flatMap_singleton, ownOperations, ownSettled_of_merge hn.mergeSchemas,
      keptOperations_again hn hs]
    exact hs.tidyPaths.nodup_cells.sublist (List.filter_sublist.map Prod.fst)

/-! ### What it leaves behind -/

theorem at?_components_again (hd : (s.toDocument config).distinct = true)
    (h : addAll (config.withStrategy .error) [again config source s] = .ok t) (kind key : String) :
    Entries.at? t.components kind key = Entries.at? s.components kind key := by
  have hn' : (config.withStrategy .error).Neutral source.service := hn.withStrategy .error
  have hown : [again config source s].flatMap (ownComponents (config.withStrategy .error)) =
      Entries.cells s.components := by
    rw [List.flatMap_singleton]
    exact ownComponents_again hn'
  cases hc : t.component? kind key with
  | some stored =>
    have hw := mem_ownComponents_of_component? rfl h hc
    rw [hown, hs.tidyComponents.mem_cells_iff] at hw
    exact hc.trans hw.symm
  | none =>
    cases hc' : Entries.at? s.components kind key with
    | none => exact hc
    | some value =>
      have hw : ((kind, key), value) ∈ Entries.cells s.components :=
        hs.tidyComponents.mem_cells_iff.2 hc'
      rw [← hown] at hw
      obtain ⟨stored, hstored, -⟩ := holds_of_mem_ownComponents rfl (by simpa [again] using hd) h hw
      rw [hc] at hstored
      cases hstored

theorem at?_paths_again (h : addAll config [again config source s] = .ok t) (path name : String) :
    Entries.at? t.paths path name = Entries.at? s.paths path name := by
  rw [paths_of_addAll h, settledSources_single hn.mergeSchemas, List.flatMap_singleton]
  exact hs.tidyPaths.at?_putAll (mem_sourceWrites_again hn hs) path name

theorem tags_again (h : addAll config [again config source s] = .ok t) : t.tags = s.tags := by
  have hitems : Source.itemsAt (s.toDocument config) "tags" = tagsBehind source [] := by
    rw [itemsAt_tags_toDocument, hs.tags]
  rw [tags_of_addAll h, settledSources_single hn.mergeSchemas, hs.tags]
  exact tagsBehind_again hitems

/-- A run over the document of a normal state meets no conflict and combines the same document. -/
theorem exists_addAll_again (hd : (s.toDocument config).distinct = true) :
    ∃ t, addAll config [again config source s] = .ok t ∧ t.warnings = [] ∧
      (t.toDocument config).same (s.toDocument config) = true := by
  have hdistinct : ∀ other ∈ [again config source s], other.document.distinct = true := by
    simpa [again] using hd
  obtain ⟨t, hstop⟩ :
      ∃ t, addAll (config.withStrategy .error) [again config source s] = .ok t :=
    (exists_addAll_error_ok_iff rfl hdistinct).2 (compatible_again (hn.withStrategy .error) hs hd)
  have h : addAll config [again config source s] = .ok t := addAll_of_addAll_error hstop
  have hfilled : Entries.Filled s.paths := by
    intro e he
    obtain ⟨m, hm, -⟩ := hs.operation e he
    exact List.ne_nil_of_mem hm
  -- whatever is found in the one state is found in the other, and is the same as itself
  have hpaths : (Json.ofTable t.paths).same (Json.ofTable s.paths) = true := by
    refine Json.same_table (tidy_paths_of_addAll h) hs.tidyPaths (filled_paths_of_addAll h) hfilled
      fun path name => ?_
    have hlookup : Entries.at? s.paths path name =
        Source.lookup? (s.toDocument config) ["paths", path, name] :=
      (lookup?_paths_toDocument s path name).symm
    rw [at?_paths_again hn hs h, hlookup]
    exact Json.sameFound_self fun _ hv => Source.distinct_of_lookup? hd hv
  have hcomponents : (Json.ofTable t.components).same (Json.ofTable s.components) = true := by
    refine Json.same_table (tidy_components_of_addAll h) hs.tidyComponents
      (filled_components_of_addAll h) hs.filledComponents fun kind key => ?_
    have hlookup : Entries.at? s.components kind key =
        Source.lookup? (s.toDocument config) ["components", kind, key] :=
      (lookup?_components_toDocument s kind key).symm
    rw [at?_components_again hn hs hd hstop, hlookup]
    exact Json.sameFound_self fun _ hv => Source.distinct_of_lookup? hd hv
  exact ⟨t, h, warnings_of_addAll_error rfl hstop,
    same_toDocument hpaths hcomponents (tags_again hn hs h) hd⟩

end Again

end MergeState

/-- Combining is idempotent: with options that leave the service as it is, the combined document of one source,
combined again in its place, meets no conflict and gives the same document. Documents that were loaded
are distinct (`Combiner.distinct_loadFiles`). -/
theorem combine_again (c : Combiner) {source : Source} (hsources : c.sources = [source])
    (hd : source.document.distinct = true) (hn : c.config.Neutral source.service) {document : Json}
    (h : c.combine.2 = .ok document) :
    (c.withSources [{ source with document := document }]).combine.1.warnings = [] ∧
      ∃ document', (c.withSources [{ source with document := document }]).combine.2 = .ok document' ∧
        document'.same document = true := by
  have hdistinct : ∀ other ∈ [source], other.document.distinct = true := by simpa using hd
  obtain ⟨s, hrun, rfl⟩ := Combiner.exists_addAll_of_combine h
  rw [hsources] at hrun
  obtain ⟨t, ht, hwarnings, hsame⟩ := MergeState.exists_addAll_again hn
    (MergeState.normal_of_addAll hn hrun) (MergeState.distinct_toDocument hdistinct hrun)
  have hne : [MergeState.again c.config source s] ≠ [] := by simp
  have hagain := Combiner.combine_eq (c := c.withSources [MergeState.again c.config source s]) hne ht
  exact ⟨(congrArg (·.1.warnings) hagain).trans hwarnings, t.toDocument c.config,
    congrArg Prod.snd hagain, hsame⟩

/-- A service with two paths that become one, requirements for all operations, and tags and components some
of which are malformed. -/
def untidyShop : Source where
  service := "shop"
  tags := ["public"]
  version := some "2"
  document := .object
    [("security", .array [.object [("key", .array [])]]),
      ("paths", .object
        [("//items", .object [("summary", .string "Items"), ("post", .null),
          ("get", .object [("tags", .array [.null, .string "stock"])])]),
          ("/items", .object [("put", .object [("security", .array []), ("tags", .string "stock")])]),
          ("/empty", .object [("summary", .string "Nothing")])]),
      ("tags", .array [.object [("name", .string "stock")], .null,
        .object [("name", .string "stock"), ("description", .string "Again")],
        .object [("name", .string "service:shop")]]),
      ("components", .object
        [("schemas", .object [("Item", .object [("type", .string "object")])]),
          ("responses", .null)])]

/-- The service alone. -/
def untidyRun : Combiner where
  config := {}
  sources := [untidyShop]

theorem combine_again_untidyShop :
    untidyRun.sources = [untidyShop] ∧ untidyShop.document.distinct = true ∧
      untidyRun.config.Neutral untidyShop.service ∧
      ∃ document, untidyRun.combine.2 = .ok document ∧
        (untidyRun.withSources [{ untidyShop with document := document }]).combine.1.warnings = [] ∧
        ∃ document', (untidyRun.withSources [{ untidyShop with document := document }]).combine.2 =
            .ok document' ∧ document'.same document = true := by
  have hd : untidyShop.document.distinct = true := by decide
  have hn : untidyRun.config.Neutral untidyShop.service := ⟨rfl, rfl, rfl, rfl, rfl⟩
  have hstrategy : untidyRun.config.conflictStrategy ≠ .error := by simp [untidyRun]
  obtain ⟨s, hs⟩ := MergeState.exists_addAll_ok hstrategy untidyRun.sources
  have h : untidyRun.combine.2 = .ok (s.toDocument untidyRun.config) :=
    congrArg Prod.snd (Combiner.combine_eq (by simp [untidyRun]) hs)
  exact ⟨rfl, hd, hn, _, h, combine_again untidyRun rfl hd hn h⟩

end ApiDescription
