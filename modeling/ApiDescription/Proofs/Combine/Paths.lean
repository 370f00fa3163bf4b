import ApiDescription.Proofs.Combine.SchemaRenames
import ApiDescription.Proofs.Combine.Settled

/-!
# The last writer wins

Every path item that has a kept operation writes its members under one path of the combined document.
`paths_of_addAll` says that a run makes exactly these writes, source after source and item after item;
so under a path and a name stands what was written there last (`combine_last_writer_wins`), and the paths
stand in the order in which a kept operation first reached them.
-/

set_option autoImplicit false

namespace ApiDescription

namespace MergeState

variable {config : CombineConfig} {strategy : ConflictStrategy} {service : String} {s t : MergeState}

/-! ## What a source writes -/

/-- The path under which an item of a source goes. -/
def finalPath (config : CombineConfig) (source : Source) (path : String) : String :=
  ServicePath.join config.baseUrl (config.prefixOf source.service) path

/-- The members of a path item that are no operations. -/
def fieldsOf (item : Json) : List (String × Json) :=
  (item.members?.getD []).filter fun m => !DocumentFault.isMethod m.1

/-- The operations of an item of a source that the filter keeps, prepared for the combined document. -/
def keptOf (config : CombineConfig) (source : Source) (item : Json) : List (String × Json) :=
  ((DocumentFault.operationsOf item).filter fun o => config.tagFilter.allows (tagsOf o.2)).map
    fun o => (o.1, prepare source (documentSecurity? source.document) o.2)

/-- The kept operations of a source in order, with their final paths and their methods. -/
def keptOperations (config : CombineConfig) (source : Source) : List ((String × String) × Json) :=
  (Source.membersAt source.document ["paths"]).flatMap fun (path, item) =>
    (keptOf config source item).map fun m => ((finalPath config source path, m.1), m.2)

/-- What is no operation in the items of a source that have a kept one, in order, with their final
paths and their names. -/
def keptFields (config : CombineConfig) (source : Source) : List ((String × String) × Json) :=
  (Source.membersAt source.document ["paths"]).flatMap fun (path, item) =>
    if keptOf config source item = [] then []
    else (fieldsOf item).map fun m => ((finalPath config source path, m.1), m.2)

/-- All that an item of a source writes, in order. -/
def itemWrites (config : CombineConfig) (source : Source) (entry : String × Json) :
    List ((String × String) × Json) :=
  if keptOf config source entry.2 = [] then []
  else (fieldsOf entry.2 ++ keptOf config source entry.2).map
    fun m => ((finalPath config source entry.1, m.1), m.2)

/-- All that a source writes, in order. -/
def sourceWrites (config : CombineConfig) (source : Source) : List ((String × String) × Json) :=
  (Source.membersAt source.document ["paths"]).flatMap (itemWrites config source)

theorem isMethod_of_mem_keptOf {source : Source} {item : Json} {m : String × Json}
    (h : m ∈ keptOf config source item) : DocumentFault.isMethod m.1 = true := by
  obtain ⟨o, ho, rfl⟩ := List.mem_map.1 h
  exact (List.mem_filter.1 (List.mem_filter.1 ho).1).2

theorem isMethod_of_mem_fieldsOf {item : Json} {m : String × Json} (h : m ∈ fieldsOf item) :
    DocumentFault.isMethod m.1 = false := by
  simpa using (List.mem_filter.1 h).2

theorem mem_keptOperations {source : Source} {w : (String × String) × Json} :
    w ∈ keptOperations config source ↔ ∃ e ∈ Source.membersAt source.document ["paths"],
      ∃ o ∈ DocumentFault.operationsOf e.2, config.tagFilter.allows (tagsOf o.2) = true ∧
        ((finalPath config source e.1, o.1),
          prepare source (documentSecurity? source.document) o.2) = w := by
  constructor
  · intro h
    obtain ⟨⟨path, item⟩, he, hm⟩ := List.mem_flatMap.1 h
    obtain ⟨m, hkept, rfl⟩ := List.mem_map.1 hm
    obtain ⟨o, ho, rfl⟩ := List.mem_map.1 hkept
    obtain ⟨ho, hallows⟩ := List.mem_filter.1 ho
    exact ⟨(path, item), he, o, ho, hallows, rfl⟩
  · rintro ⟨⟨path, item⟩, he, o, ho, hallows, rfl⟩
    have hkept : (o.1, prepare source (documentSecurity? source.document) o.2) ∈
        keptOf config source item := List.mem_map.2 ⟨o, List.mem_filter.2 ⟨ho, hallows⟩, rfl⟩
    exact List.mem_flatMap.2 ⟨(path, item), he, List.mem_map.2 ⟨_, hkept, rfl⟩⟩

theorem mem_keptFields {source : Source} {w : (String × String) × Json} :
    w ∈ keptFields config source ↔ ∃ e ∈ Source.membersAt source.document ["paths"],
      keptOf config source e.2 ≠ [] ∧ ∃ m ∈ fieldsOf e.2,
        ((finalPath config source e.1, m.1), m.2) = w := by
  constructor
  · intro h
    obtain ⟨⟨path, item⟩, he, hm⟩ := List.mem_flatMap.1 h
    by_cases hkept : keptOf config source item = []
    · simp [hkept] at hm
    · simp only [if_neg hkept] at hm
      obtain ⟨m, hfield, rfl⟩ := List.mem_map.1 hm
      exact ⟨(path, item), he, hkept, m, hfield, rfl⟩
  · rintro ⟨⟨path, item⟩, he, hkept, m, hm, rfl⟩
    refine List.mem_flatMap.2 ⟨(path, item), he, ?_⟩
    simp only [if_neg hkept]
    exact List.mem_map.2 ⟨m, hm, rfl⟩

theorem filter_sourceWrites (source : Source) :
    (sourceWrites config source).filter (fun w => DocumentFault.isMethod w.1.2) =
      keptOperations config source := by
  rw [sourceWrites, List.filter_flatMap]
  refine List.flatMap_congr fun entry _ => ?_
  obtain ⟨path, item⟩ := entry
  unfold itemWrites
  by_cases h : keptOf config source item = []
  · simp [h]
  · have hf : (fieldsOf item).filter (fun m => DocumentFault.isMethod m.1) = [] := by
      rw [List.filter_eq_nil_iff]
      intro m hm
      simp [isMethod_of_mem_fieldsOf hm]
    have hk : (keptOf config source item).filter (fun m => DocumentFault.isMethod m.1) =
        keptOf config source item := by
      rw [List.filter_eq_self]
      intro m hm
      exact isMethod_of_mem_keptOf hm
    simp only [if_neg h, List.filter_map, Function.comp_def, List.filter_append, hf, hk,
      List.nil_append]

theorem filter_not_sourceWrites (source : Source) :
    (sourceWrites config source).filter (fun w => !DocumentFault.isMethod w.1.2) =
      keptFields config source := by
  rw [sourceWrites, List.filter_flatMap]
  refine List.flatMap_congr fun entry _ => ?_
  obtain ⟨path, item⟩ := entry
  unfold itemWrites
  by_cases h : keptOf config source item = []
  · simp [h]
  · have hf : (fieldsOf item).filter (fun m => !DocumentFault.isMethod m.1) = fieldsOf item := by
      rw [List.filter_eq_self]
      intro m hm
      simp [isMethod_of_mem_fieldsOf hm]
    have hk : (keptOf config source item).filter (fun m => !DocumentFault.isMethod m.1) = [] := by
      rw [List.filter_eq_nil_iff]
      intro m hm
      simp [isMethod_of_mem_keptOf hm]
    simp only [if_neg h, List.filter_map, Function.comp_def, List.filter_append, hf, hk,
      List.append_nil]

theorem mem_sourceWrites {source : Source} {w : (String × String) × Json} :
    w ∈ sourceWrites config source ↔
      w ∈ keptFields config source ∨ w ∈ keptOperations config source := by
  rw [← filter_sourceWrites, ← filter_not_sourceWrites, List.mem_filter, List.mem_filter]
  cases DocumentFault.isMethod w.1.2 <;> simp

/-- The writes of a source reach their paths in the order of its kept operations. -/
theorem reach_sourceWrites (source : Source) (ks : List String) :
    ((sourceWrites config source).map fun w => w.1.1).foldl Entries.reach ks =
      ((keptOperations config source).map fun w => w.1.1).foldl Entries.reach ks := by
  rw [sourceWrites, keptOperations, List.map_flatMap, List.map_flatMap, List.foldl_flatMap,
    List.foldl_flatMap]
  congr 1
  funext ks entry
  obtain ⟨path, item⟩ := entry
  unfold itemWrites
  by_cases h : keptOf config source item = []
  · simp [h]
  · have hw : ∀ ms : List (String × Json), ms ≠ [] →
        ((ms.map fun m => ((finalPath config source path, m.1), m.2)).map
          fun w => w.1.1).foldl Entries.reach ks =
            Entries.reach ks (finalPath config source path) := by
      intro ms hms
      refine Entries.foldl_reach_const (by simpa using hms) ?_ ks
      intro k hk
      rw [List.map_map] at hk
      obtain ⟨m, _, rfl⟩ := List.mem_map.1 hk
      rfl
    rw [if_neg h, hw _ (by simp [h]), hw _ h]

/-! ## What merging writes -/

theorem paths_of_places {path method : String} {value : Json}
    (h : Places strategy service path method value s t) :
    t.paths = Entries.putAt s.paths path method value := by
  cases h <;> rfl

/-- Puts one member of a path in: an operation as such, and anything else over what is there. -/
def placeWrite (strategy : ConflictStrategy) (service : String) (s : MergeState)
    (w : (String × String) × Json) : Except MergeStop MergeState :=
  if DocumentFault.isMethod w.1.2 then s.insertOperation strategy service w.1.1 (w.1.2, w.2)
  else .ok (s.putMember w.1.1 w.1.2 w.2)

theorem foldlM_placeWrite_fields {path : String} {ms : List (String × Json)}
    (h : ∀ m ∈ ms, DocumentFault.isMethod m.1 = false) (s : MergeState) :
    (ms.map fun m => ((path, m.1), m.2)).foldlM (placeWrite strategy service) s =
      .ok (ms.foldl (fun s m => s.putMember path m.1 m.2) s) := by
  induction ms generalizing s with
  | nil => rfl
  | cons m ms ih =>
    have hm := h m List.mem_cons_self
    have hstep : placeWrite strategy service s ((path, m.1), m.2) = .ok (s.putMember path m.1 m.2) := by
      simp [placeWrite, hm]
    rw [List.map_cons, List.foldlM_cons, hstep]
    exact ih (fun m hm => h m (List.mem_cons_of_mem _ hm)) (s.putMember path m.1 m.2)

theorem foldlM_placeWrite_operations {path : String} {ms : List (String × Json)}
    (h : ∀ m ∈ ms, DocumentFault.isMethod m.1 = true) (s : MergeState) :
    (ms.map fun m => ((path, m.1), m.2)).foldlM (placeWrite strategy service) s =
      ms.foldlM (insertOperation strategy service path) s := by
  induction ms generalizing s with
  | nil => rfl
  | cons m ms ih =>
    have hm := h m List.mem_cons_self
    have hstep : placeWrite strategy service s ((path, m.1), m.2) =
        s.insertOperation strategy service path m := by
      simp [placeWrite, hm]
    rw [List.map_cons, List.foldlM_cons, List.foldlM_cons, hstep]
    exact congrArg _ (funext fun u => ih (fun m hm => h m (List.mem_cons_of_mem _ hm)) u)

theorem mergeItem_eq_foldlM (source : Source) (entry : String × Json) (s : MergeState) :
    s.mergeItem config source (documentSecurity? source.document) entry =
      (itemWrites config source entry).foldlM
        (placeWrite config.conflictStrategy source.service) s := by
  obtain ⟨path, item⟩ := entry
  have hk : retained config.tagFilter source (documentSecurity? source.document) item =
    keptOf config source item := rfl
  have hmethod : ∀ m ∈ keptOf config source item, DocumentFault.isMethod m.1 = true :=
    fun m hm => isMethod_of_mem_keptOf hm
  have hfield : ∀ m ∈ fieldsOf item, DocumentFault.isMethod m.1 = false :=
    fun m hm => isMethod_of_mem_fieldsOf hm
  unfold mergeItem itemWrites
  simp only [hk]
  cases hc : keptOf config source item with
  | nil => rfl
  | cons o operations =>
    rw [hc] at hmethod
    rw [if_neg (by simp), List.map_append, List.foldlM_append, foldlM_placeWrite_fields hfield]
    exact (foldlM_placeWrite_operations hmethod _).symm

/-- Merging the paths of a source makes its writes one by one. -/
theorem mergePaths_eq_foldlM (source : Source) (s : MergeState) :
    s.mergePaths config source source.document =
      (sourceWrites config source).foldlM (placeWrite config.conflictStrategy source.service) s := by
  unfold mergePaths sourceWrites
  generalize Source.membersAt source.document ["paths"] = entries
  induction entries generalizing s with
  | nil => rfl
  | cons e entries ih =>
    rw [List.foldlM_cons, List.flatMap_cons, List.foldlM_append, mergeItem_eq_foldlM]
    exact congrArg _ (funext ih)

/-- Members that go in one by one are written one by one. -/
theorem paths_of_foldlM_placeWrite {writes : List ((String × String) × Json)}
    (h : writes.foldlM (placeWrite strategy service) s = .ok t) :
    t.paths = Entries.putAll s.paths writes := by
  induction writes generalizing s with
  | nil =>
    cases h
    rfl
  | cons w writes ih =>
    obtain ⟨u, hu, hr⟩ := foldlM_cons_ok.1 h
    have hstep : u.paths = Entries.putAt s.paths w.1.1 w.1.2 w.2 := by
      unfold placeWrite at hu
      split at hu
      · exact paths_of_places (places_of_insertOperation hu)
      · cases hu
        rfl
    rw [ih hr, hstep]
    rfl

theorem paths_of_mergePaths {source : Source} (h : s.mergePaths config source source.document = .ok t) :
    t.paths = Entries.putAll s.paths (sourceWrites config source) := by
  rw [mergePaths_eq_foldlM] at h
  exact paths_of_foldlM_placeWrite h

theorem paths_of_mergeComponents {r : Renames} {document : Json}
    (h : s.mergeComponents strategy service r document = .ok t) :
    t.paths = s.paths :=
  mergeComponents_invariant (P := fun t => t.paths = s.paths) h rfl (fun _ _ _ _ hu => hu)
    fun _ _ _ _ hu => hu

/-- A run makes the writes of its sources, one source after the other. -/
theorem paths_of_addAll {sources : List Source} (h : addAll config sources = .ok s) :
    s.paths = Entries.putAll [] ((settledSources config sources).flatMap (sourceWrites config)) := by
  refine addAll_induct
    (motive := fun sources s => s.paths =
      Entries.putAll [] ((settledSources config sources).flatMap (sourceWrites config)))
    rfl ?_ h
  intro done source s t hs ih ht
  obtain ⟨decided, inserted, placed, hd, hi, hp, rfl⟩ := add_behind hs ht
  have hplaced : placed.paths =
      Entries.putAll inserted.paths (sourceWrites config (settled config done source)) :=
    paths_of_mergePaths hp
  have hinserted : inserted.paths = s.paths :=
    (paths_of_mergeComponents hi).trans (sameContent_of_schemaRenames hd).paths
  rw [settledSources_concat, List.flatMap_append, Entries.putAll_append, ← ih,
    List.flatMap_singleton, ← hinserted]
  exact hplaced

end MergeState

/-! ## The combined document -/

theorem lookup_filter {α β : Type} [BEq α] [LawfulBEq α] {p : α × β → Bool} {key : α}
    (hp : ∀ b, p (key, b) = true) (l : List (α × β)) :
    (l.filter p).lookup key = l.lookup key := by
  induction l with
  | nil => rfl
  | cons e l ih =>
    obtain ⟨a, b⟩ := e
    by_cases h : key = a
    · subst h
      rw [List.filter_cons_of_pos (hp b), List.lookup_cons_self, List.lookup_cons_self]
    · have hb : (key == a) = false := beq_eq_false_iff_ne.2 h
      rw [List.filter_cons, List.lookup_cons, hb]
      split
      · rw [List.lookup_cons, hb]
        exact ih
      · exact ih

namespace MergeState

variable {config : CombineConfig} {s : MergeState}

theorem membersAt_paths_toDocument (s : MergeState) :
    Source.membersAt (s.toDocument config) ["paths"] =
      s.paths.map fun e => (e.1, .object e.2) := rfl

theorem lookup?_paths_toDocument (s : MergeState) (path name : String) :
    Source.lookup? (s.toDocument config) ["paths", path, name] = Entries.at? s.paths path name :=
  Source.lookup?_table ["paths"] (membersAt_paths_toDocument s) path name

theorem keys_paths_toDocument (s : MergeState) :
    Entries.keys (Source.membersAt (s.toDocument config) ["paths"]) = Entries.keys s.paths := by
  rw [membersAt_paths_toDocument]
  simp [Entries.keys, Function.comp_def]

end MergeState

/-! ### Sources as they were given -/

namespace Renames

theorem operationsOf_redirect (r : Renames) (item : Json) :
    DocumentFault.operationsOf (r.redirect item) =
      (DocumentFault.operationsOf item).map fun m => (m.1, r.redirect m.2) := by
  unfold DocumentFault.operationsOf
  rw [members?_redirect]
  cases item.members? with
  | none => rfl
  | some ms =>
    rw [Option.map_some, Option.getD_some, Option.getD_some, List.filter_map]
    refine List.map_congr_left fun m hm => ?_
    have hmethod : m.1 ≠ referenceName := by
      intro he
      have h := (List.mem_filter.1 hm).2
      simp only [Function.comp_apply, he] at h
      exact absurd h (by decide)
    rw [redirectMember_ne r hmethod]

theorem operationsOf_redirectMember (r : Renames) (path : String) (item : Json) :
    ∃ f : Json → Json, (∀ o, MergeState.tagsOf (f o) = MergeState.tagsOf o) ∧
      (∀ o, (f o).isObject = o.isObject) ∧
      DocumentFault.operationsOf (r.redirectMember path item) =
        (DocumentFault.operationsOf item).map fun m => (m.1, f m.2) := by
  by_cases hp : path = referenceName
  · refine ⟨id, fun _ => rfl, fun _ => rfl, ?_⟩
    rw [redirectMember, if_pos hp]
    cases item <;> simp [retargetValue, DocumentFault.operationsOf, Json.members?]
  · refine ⟨r.redirect, tagsOf_redirect r, isObject_redirect r, ?_⟩
    rw [redirectMember_ne r hp, operationsOf_redirect]

end Renames

namespace MergeState

variable {config : CombineConfig}

/-- An operation of a source that the filter keeps goes under the path, by its method. -/
def KeepsOperation (config : CombineConfig) (source : Source) (path method : String) : Prop :=
  ∃ p item operation, (p, item) ∈ Source.membersAt source.document ["paths"] ∧
    (method, operation) ∈ DocumentFault.operationsOf item ∧
    config.tagFilter.allows (tagsOf operation) = true ∧ finalPath config source p = path

theorem exists_mem_keptOperations {source : Source} {path method : String} :
    (∃ value, ((path, method), value) ∈ keptOperations config source) ↔
      KeepsOperation config source path method := by
  constructor
  · rintro ⟨value, h⟩
    obtain ⟨⟨p, item⟩, hitem, o, ho, hallows, he⟩ := mem_keptOperations.1 h
    simp only [Prod.mk.injEq] at he
    obtain ⟨⟨rfl, rfl⟩, -⟩ := he
    exact ⟨p, item, o.2, hitem, ho, hallows, rfl⟩
  · rintro ⟨p, item, operation, hitem, ho, hallows, rfl⟩
    exact ⟨_, mem_keptOperations.2 ⟨(p, item), hitem, (method, operation), ho, hallows, rfl⟩⟩

/-- Redirecting neither adds nor drops an operation. -/
theorem keepsOperation_settled (earlier : List Source) (source : Source) (path method : String) :
    KeepsOperation config (settled config earlier source) path method ↔
      KeepsOperation config source path method := by
  have hpaths : Source.membersAt (settled config earlier source).document ["paths"] =
      (Source.membersAt source.document ["paths"]).map fun m =>
        (m.1, (renamesBehind config earlier source).redirectMember m.1 m.2) :=
    Renames.membersAt_redirect _ _ (by decide)
  unfold KeepsOperation
  constructor
  · rintro ⟨p, item, operation, hitem, ho, hallows, rfl⟩
    rw [hpaths] at hitem
    obtain ⟨⟨p', item'⟩, hitem', he⟩ := List.mem_map.1 hitem
    simp only [Prod.mk.injEq] at he
    obtain ⟨rfl, rfl⟩ := he
    obtain ⟨f, htags, -, hops⟩ := Renames.operationsOf_redirectMember
      (renamesBehind config earlier source) p' item'
    rw [hops] at ho
    obtain ⟨⟨m, o⟩, ho', he⟩ := List.mem_map.1 ho
    simp only [Prod.mk.injEq] at he
    obtain ⟨rfl, rfl⟩ := he
    rw [htags] at hallows
    exact ⟨p', item', o, hitem', ho', hallows, rfl⟩
  · rintro ⟨p, item, operation, hitem, ho, hallows, rfl⟩
    obtain ⟨f, htags, -, hops⟩ := Renames.operationsOf_redirectMember
      (renamesBehind config earlier source) p item
    refine ⟨p, (renamesBehind config earlier source).redirectMember p item, f operation, ?_, ?_,
      (htags operation).symm ▸ hallows, rfl⟩
    · rw [hpaths]
      exact List.mem_map.2 ⟨(p, item), hitem, rfl⟩
    · rw [hops]
      exact List.mem_map.2 ⟨(method, operation), ho, rfl⟩

/-! ### The main statement -/

/-- Under every path and name of the combined document stands what was put there last. -/
structure LastWriterWins (config : CombineConfig) (sources : List Source) (document : Json) :
    Prop where
  /-- A path has an operation exactly when some source has one for it that the filter keeps. -/
  has_operation : ∀ path method, DocumentFault.isMethod method = true →
    ((Source.lookup? document ["paths", path, method]).isSome = true ↔
      ∃ source ∈ sources, KeepsOperation config source path method)
  /-- The operation is the last one kept, of all sources as they go in. -/
  operation : ∀ path method, DocumentFault.isMethod method = true →
    Source.lookup? document ["paths", path, method] =
      ((settledSources config sources).flatMap (keptOperations config)).reverse.lookup (path, method)
  /-- Any other member is the last one in an item that has a kept operation. -/
  field : ∀ path name, DocumentFault.isMethod name = false →
    Source.lookup? document ["paths", path, name] =
      ((settledSources config sources).flatMap (keptFields config)).reverse.lookup (path, name)
  /-- The paths are those of the kept operations, each where one first reached it. -/
  paths : Entries.keys (Source.membersAt document ["paths"]) =
    (((settledSources config sources).flatMap (keptOperations config)).map
      fun w => w.1.1).eraseDups

theorem lastWriterWins_toDocument {sources : List Source} {s : MergeState}
    (h : addAll config sources = .ok s) :
    LastWriterWins config sources (s.toDocument config) := by
  -- operations and fields are written in one row, and a name is either a method or none
  have hat : ∀ path name, Entries.at? s.paths path name =
      ((settledSources config sources).flatMap (sourceWrites config)).reverse.lookup (path, name) := by
    intro path name
    rw [paths_of_addAll h, Entries.at?_putAll, Entries.at?_nil, Option.or_none]
  have hoperation : ∀ path method, DocumentFault.isMethod method = true →
      Source.lookup? (s.toDocument config) ["paths", path, method] =
        ((settledSources config sources).flatMap (keptOperations config)).reverse.lookup
          (path, method) := by
    intro path method hm
    have hkept : keptOperations config = fun source =>
        (sourceWrites config source).filter fun w => DocumentFault.isMethod w.1.2 :=
      funext fun source => (filter_sourceWrites source).symm
    rw [lookup?_paths_toDocument, hat, hkept, ← List.filter_flatMap, ← List.filter_reverse]
    exact (lookup_filter (fun _ => hm) _).symm
  refine ⟨?_, hoperation, ?_, ?_⟩
  · intro path method hm
    rw [hoperation path method hm, List.lookup_isSome_iff]
    constructor
    · rintro ⟨⟨key, value⟩, hw, he⟩
      have hkey : (path, method) = key := eq_of_beq he
      subst hkey
      obtain ⟨s, hs, hw⟩ := List.mem_flatMap.1 (List.mem_reverse.1 hw)
      obtain ⟨earlier, source, later, rfl, rfl⟩ := mem_settledSources.1 hs
      exact ⟨source, by simp, (keepsOperation_settled earlier source path method).1
        (exists_mem_keptOperations.1 ⟨value, hw⟩)⟩
    · rintro ⟨source, hs, hkeeps⟩
      obtain ⟨earlier, later, rfl⟩ := List.append_of_mem hs
      obtain ⟨value, hw⟩ := exists_mem_keptOperations.2
        ((keepsOperation_settled earlier source path method).2 hkeeps)
      refine ⟨((path, method), value), List.mem_reverse.2 (List.mem_flatMap.2 ⟨_, ?_, hw⟩), by simp⟩
      exact mem_settledSources.2 ⟨earlier, source, later, rfl, rfl⟩
  · intro path name hn
    have hkept : keptFields config = fun source =>
        (sourceWrites config source).filter fun w => !DocumentFault.isMethod w.1.2 :=
      funext fun source => (filter_not_sourceWrites source).symm
    rw [lookup?_paths_toDocument, hat, hkept, ← List.filter_flatMap, ← List.filter_reverse]
    exact (lookup_filter (fun _ => by simp [hn]) _).symm
  · rw [keys_paths_toDocument, paths_of_addAll h, Entries.keys_putAll, ← Entries.foldl_reach_nil,
      List.map_flatMap, List.map_flatMap, List.foldl_flatMap, List.foldl_flatMap]
    congr 1
    funext ks source
    exact reach_sourceWrites source ks

end MergeState

/-- The last writer wins, and nothing else changes the paths: under the strategy `override` combining
succeeds, and every member of every path is the last that a source put there. -/
theorem combine_last_writer_wins (c : Combiner) (hne : c.sources ≠ [])
    (hs : c.config.conflictStrategy = .override) :
    ∃ document, c.combine.2 = .ok document ∧
      MergeState.LastWriterWins c.config c.sources document := by
  have hstrategy : c.config.conflictStrategy ≠ .error := by simp [hs]
  obtain ⟨s, h⟩ := MergeState.exists_addAll_ok hstrategy c.sources
  refine ⟨s.toDocument c.config, ?_, MergeState.lastWriterWins_toDocument h⟩
  rw [Combiner.combine_eq hne h]

/-- Two services that list users under one path, the second one by two paths that become one. -/
def twoListings : Combiner where
  config := { baseUrl := "/api/", excludeTags := ["internal"] }
  sources :=
    [{ service := "a", document := .object [("paths", .object
        [("/users", .object [("summary", .string "a"),
          ("get", .object [("summary", .string "from a")])])])] },
      { service := "b", document := .object [("paths", .object
        [("//users", .object [("get", .object [("summary", .string "from b")]),
          ("delete", .object [("tags", .array [.string "internal"])])]),
        ("/users", .object [("description", .string "b"),
          ("get", .object [("summary", .string "again from b")])])])] }]

theorem combine_last_writer_wins_twoListings :
    twoListings.sources ≠ [] ∧ twoListings.config.conflictStrategy = .override ∧
      ∃ document, twoListings.combine.2 = .ok document ∧
        MergeState.LastWriterWins twoListings.config twoListings.sources document ∧
        Source.membersAt document ["paths"] = [("/api/users", .object
          [("summary", .string "a"),
            ("get", .object [("summary", .string "again from b"), ("tags", .array [.string "service:b"])]),
            ("description", .string "b")])] := by
  have hne : twoListings.sources ≠ [] := by simp [twoListings]
  obtain ⟨document, hdocument, hwins⟩ := combine_last_writer_wins twoListings hne rfl
  have hpaths : twoListings.combine.2.toOption.map (Source.membersAt · ["paths"]) = some [("/api/users", .object
      [("summary", .string "a"),
        ("get", .object [("summary", .string "again from b"), ("tags", .array [.string "service:b"])]),
        ("description", .string "b")])] := by decide +kernel
  rw [hdocument] at hpaths
  exact ⟨hne, rfl, document, hdocument, hwins, Option.some.inj hpaths⟩

end ApiDescription
