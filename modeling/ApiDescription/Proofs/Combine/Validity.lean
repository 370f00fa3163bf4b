import ApiDescription.Proofs.Combine.Counts

/-!
# What can be wrong with a combined document

The check of a document reports the first thing that is missing (`checkPaths_error`, `checkPaths_ok_iff`).
A combined document has a version and no path without an operation, so what the check says of it is known from
the options and from the operations that the filter let through (`combine_faults_predicted`).
-/

set_option autoImplicit false

namespace ApiDescription

/-! ## The check of a document -/

namespace DocumentFault

theorem hasResponses_iff (operation : Json) :
    hasResponses operation = true ↔
      ∃ responses, operation.get? "responses" = some (.object responses) ∧ responses ≠ [] := by
  unfold hasResponses
  cases operation.get? "responses" with
  | none => simp
  | some v => cases v <;> simp [Json.members?]

/-- No fault is found when every path has an operation and every operation a response. -/
theorem checkPaths_ok_iff (entries : List (String × Json)) :
    checkPaths entries = .ok () ↔ ∀ e ∈ entries, operationsOf e.2 ≠ [] ∧
      ∀ o ∈ operationsOf e.2, hasResponses o.2 = true := by
  induction entries with
  | nil => simp [checkPaths]
  | cons e entries ih =>
    obtain ⟨path, item⟩ := e
    rw [checkPaths, List.forall_mem_cons, ← ih]
    cases hfind : (operationsOf item).find? fun o => !hasResponses o.2 with
    | some o =>
      -- the operation that was found has no response, so neither side holds
      have hmissing := List.find?_some hfind
      constructor
      · intro h
        cases h
      · rintro ⟨⟨-, hall⟩, -⟩
        rw [hall o (List.mem_of_find?_eq_some hfind)] at hmissing
        cases hmissing
    | none =>
      have hall : ∀ o ∈ operationsOf item, hasResponses o.2 = true := by
        simpa using List.find?_eq_none.1 hfind
      simp only
      split
      · next hempty =>
        constructor
        · intro h
          cases h
        · rintro ⟨⟨hne, -⟩, -⟩
          exact absurd (List.isEmpty_iff.1 hempty) hne
      · next hempty =>
        have hne : operationsOf item ≠ [] := fun he => hempty (List.isEmpty_iff.2 he)
        exact (and_iff_right ⟨hne, hall⟩).symm

/-- The fault that is found is a path without operations or an operation without responses. -/
theorem checkPaths_error {entries : List (String × Json)} {fault : DocumentFault}
    (h : checkPaths entries = .error fault) :
    (∃ e ∈ entries, operationsOf e.2 = [] ∧ fault = .emptyPath e.1) ∨
      ∃ e ∈ entries, ∃ o ∈ operationsOf e.2, hasResponses o.2 = false ∧
        fault = .noResponses o.1 e.1 := by
  induction entries with
  | nil => cases h
  | cons e entries ih =>
    obtain ⟨path, item⟩ := e
    rw [checkPaths] at h
    cases hfind : (operationsOf item).find? fun o => !hasResponses o.2 with
    | some o =>
      rw [hfind] at h
      cases h
      refine Or.inr ⟨(path, item), List.mem_cons_self, o, List.mem_of_find?_eq_some hfind, ?_, rfl⟩
      simpa using List.find?_some hfind
    | none =>
      rw [hfind] at h
      simp only at h
      split at h
      · next hempty =>
        cases h
        exact Or.inl ⟨(path, item), List.mem_cons_self, List.isEmpty_iff.1 hempty, rfl⟩
      · rcases ih h with ⟨e, he, hfault⟩ | ⟨e, he, hfault⟩
        · exact Or.inl ⟨e, List.mem_cons_of_mem _ he, hfault⟩
        · exact Or.inr ⟨e, List.mem_cons_of_mem _ he, hfault⟩

end DocumentFault

/-! ## Combined documents -/

namespace MergeState

variable {config : CombineConfig} {sources : List Source} {source : Source} {s : MergeState}

/-- The title and the version of the options are not blank. -/
structure Titled (config : CombineConfig) : Prop where
  title : Text.isBlank config.title = false
  version : Text.isBlank config.version = false

/-- The check of a combined document looks at the options, and at its paths. -/
theorem check_toDocument (s : MergeState) :
    DocumentFault.check (s.toDocument config) =
      if Text.isBlank config.title = true then .error .noTitle
      else if Text.isBlank config.version = true then .error .noInfoVersion
      else if s.paths = [] then .error .noPaths
      else DocumentFault.checkPaths (s.paths.map fun e => (e.1, .object e.2)) := by
  have hversion : DocumentFault.isFilled ((s.toDocument config).get? "openapi") = true := by
    show (!Text.isBlank openApiVersion) = true
    decide
  have hpaths : (((s.toDocument config).get? "paths").bind Json.members?).getD [] =
      s.paths.map fun e => (e.1, .object e.2) := rfl
  have htitle : DocumentFault.isFilled
      (((s.toDocument config).get? "info").bind (·.get? "title")) = !Text.isBlank config.title := rfl
  have hinfo : DocumentFault.isFilled
      (((s.toDocument config).get? "info").bind (·.get? "version")) =
        !Text.isBlank config.version := rfl
  unfold DocumentFault.check
  simp only [hversion, hpaths, htitle, hinfo, Bool.not_true, Bool.false_eq_true, if_false,
    Bool.not_not, List.isEmpty_map, List.isEmpty_iff]

theorem check_of_titled (ht : Titled config) (s : MergeState) :
    DocumentFault.check (s.toDocument config) =
      if s.paths = [] then .error .noPaths
      else DocumentFault.checkPaths (s.paths.map fun e => (e.1, .object e.2)) := by
  rw [check_toDocument, ht.title, ht.version, if_neg (by simp), if_neg (by simp)]

/-- Nothing is wrong when title and version are there, and a path, and nothing is wrong with the paths. -/
theorem check_ok_iff (s : MergeState) :
    DocumentFault.check (s.toDocument config) = .ok () ↔ Titled config ∧ s.paths ≠ [] ∧
      DocumentFault.checkPaths (s.paths.map fun e => (e.1, .object e.2)) = .ok () := by
  constructor
  · intro hok
    rw [check_toDocument] at hok
    split at hok
    · cases hok
    · next htitle =>
      split at hok
      · cases hok
      · next hversion =>
        split at hok
        · cases hok
        · next hne =>
          exact ⟨⟨Bool.eq_false_iff.2 htitle, Bool.eq_false_iff.2 hversion⟩, hne, hok⟩
  · rintro ⟨ht, hne, hok⟩
    rw [check_of_titled ht, if_neg hne]
    exact hok

/-! ### Paths and operations -/

theorem allowedOperations_ne_nil_iff :
    allowedOperations config source ≠ [] ↔ ∃ path method, KeepsOperation config source path method := by
  constructor
  · intro h
    obtain ⟨o, ho⟩ := List.exists_mem_of_ne_nil _ h
    obtain ⟨e, he, ho⟩ := List.mem_flatMap.1 ho
    obtain ⟨ho, hallows⟩ := List.mem_filter.1 ho
    exact ⟨finalPath config source e.1, o.1, e.1, e.2, o.2, he, ho, hallows, rfl⟩
  · rintro ⟨path, method, p, item, operation, he, ho, hallows, -⟩
    exact List.ne_nil_of_mem
      (List.mem_flatMap.2 ⟨(p, item), he, List.mem_filter.2 ⟨ho, hallows⟩⟩)

/-- A combined document has a path exactly when the filter let an operation through. -/
theorem paths_ne_nil_iff (h : addAll config sources = .ok s) :
    s.paths ≠ [] ↔ ∃ source ∈ sources, allowedOperations config source ≠ [] := by
  have hlast := lastWriterWins_toDocument h
  constructor
  · intro hne
    obtain ⟨e, he⟩ := List.exists_mem_of_ne_nil _ hne
    obtain ⟨m, hm, hmethod⟩ := exists_operation_of_mem_paths h he
    have hat : Source.lookup? (s.toDocument config) ["paths", e.1, m.1] = some m.2 := by
      rw [lookup?_paths_toDocument]
      exact (tidy_paths_of_addAll h).at?_eq_some he hm
    obtain ⟨source, hsource, hkeeps⟩ :=
      (hlast.has_operation e.1 m.1 hmethod).1 (Option.isSome_iff_exists.2 ⟨m.2, hat⟩)
    exact ⟨source, hsource, allowedOperations_ne_nil_iff.2 ⟨e.1, m.1, hkeeps⟩⟩
  · rintro ⟨source, hsource, hallowed⟩ hnil
    obtain ⟨path, method, hkeeps⟩ := allowedOperations_ne_nil_iff.1 hallowed
    have hmethod : DocumentFault.isMethod method = true := by
      obtain ⟨p, item, operation, -, ho, -⟩ := hkeeps
      exact (List.mem_filter.1 ho).2
    have hsome := (hlast.has_operation path method hmethod).2 ⟨source, hsource, hkeeps⟩
    rw [lookup?_paths_toDocument, hnil] at hsome
    cases hsome

theorem operationsOf_ne_nil (h : addAll config sources = .ok s)
    {e : String × List (String × Json)} (he : e ∈ s.paths) :
    DocumentFault.operationsOf (.object e.2) ≠ [] := by
  obtain ⟨m, hm, hmethod⟩ := exists_operation_of_mem_paths h he
  exact List.ne_nil_of_mem (List.mem_filter.2 ⟨hm, hmethod⟩)

/-- The paths are in order when every operation of the document has a response. -/
theorem checkPaths_toDocument_ok_iff (h : addAll config sources = .ok s) :
    DocumentFault.checkPaths (s.paths.map fun e => (e.1, .object e.2)) = .ok () ↔
      ∀ path method operation, DocumentFault.isMethod method = true →
        Source.lookup? (s.toDocument config) ["paths", path, method] = some operation →
          DocumentFault.hasResponses operation = true := by
  have htidy := tidy_paths_of_addAll h
  rw [DocumentFault.checkPaths_ok_iff, List.forall_mem_map]
  constructor
  · intro hall path method operation hmethod hlookup
    rw [lookup?_paths_toDocument] at hlookup
    obtain ⟨row, hrow, hcell⟩ := Option.bind_eq_some_iff.1 hlookup
    exact (hall (path, row) (Entries.mem_of_get?_eq_some hrow)).2 (method, operation)
      (List.mem_filter.2 ⟨Entries.mem_of_get?_eq_some hcell, hmethod⟩)
  · intro hall e he
    refine ⟨operationsOf_ne_nil h he, fun o ho => ?_⟩
    obtain ⟨hmem, hmethod⟩ := List.mem_filter.1 ho
    have hat : Entries.at? s.paths e.1 o.1 = some o.2 := htidy.at?_eq_some he hmem
    exact hall e.1 o.1 o.2 hmethod ((lookup?_paths_toDocument s e.1 o.1).trans hat)

/-! ### The main statement -/

/-- What the check says of a combined document. -/
structure FaultsPredicted (config : CombineConfig) (sources : List Source) (document : Json) :
    Prop where
  /-- It never misses the version of the format. -/
  version : DocumentFault.check document ≠ .error .noOpenApiVersion
  /-- It never finds a path without operations. -/
  filled : ∀ path, DocumentFault.check document ≠ .error (.emptyPath path)
  /-- It finds nothing exactly when title and version are there, an operation was let through and all that are in
  the document have responses. -/
  valid_iff : DocumentFault.check document = .ok () ↔
    Titled config ∧ (∃ source ∈ sources, allowedOperations config source ≠ []) ∧
      ∀ path method operation, DocumentFault.isMethod method = true →
        Source.lookup? document ["paths", path, method] = some operation →
          ∃ responses, operation.get? "responses" = some (.object responses) ∧ responses ≠ []
  /-- It finds no paths, where title and version are there, exactly when no operation was let through. -/
  noPaths_iff : Titled config → (DocumentFault.check document = .error .noPaths ↔
    ∀ source ∈ sources, allowedOperations config source = [])

theorem check_ne_of_checkPaths {fault : DocumentFault} (htitle : fault ≠ .noTitle)
    (hversion : fault ≠ .noInfoVersion) (hpaths : fault ≠ .noPaths)
    (h : DocumentFault.checkPaths (s.paths.map fun e => (e.1, .object e.2)) ≠ .error fault) :
    DocumentFault.check (s.toDocument config) ≠ .error fault := by
  rw [check_toDocument]
  split
  · exact fun he => htitle (Except.error.inj he).symm
  · split
    · exact fun he => hversion (Except.error.inj he).symm
    · split
      · exact fun he => hpaths (Except.error.inj he).symm
      · exact h

theorem faultsPredicted_toDocument (h : addAll config sources = .ok s) :
    FaultsPredicted config sources (s.toDocument config) where
  version := by
    refine check_ne_of_checkPaths (by simp) (by simp) (by simp) fun he => ?_
    rcases DocumentFault.checkPaths_error he with ⟨e, -, -, hfault⟩ | ⟨e, -, o, -, -, hfault⟩
    · cases hfault
    · cases hfault
  filled := by
    intro path
    refine check_ne_of_checkPaths (by simp) (by simp) (by simp) fun he => ?_
    rcases DocumentFault.checkPaths_error he with ⟨e, hmem, hnil, -⟩ | ⟨e, -, o, -, -, hfault⟩
    · obtain ⟨row, hrow, rfl⟩ := List.mem_map.1 hmem
      exact operationsOf_ne_nil h hrow hnil
    · cases hfault
  valid_iff := by
    simp only [← DocumentFault.hasResponses_iff]
    rw [check_ok_iff, paths_ne_nil_iff h, checkPaths_toDocument_ok_iff h]
  noPaths_iff := by
    intro ht
    have hnil : s.paths = [] ↔ ∀ source ∈ sources, allowedOperations config source = [] := by
      rw [← not_iff_not, ← ne_eq, paths_ne_nil_iff h]
      simp
    rw [← hnil, check_of_titled ht]
    constructor
    · intro he
      by_contra hne
      rw [if_neg hne] at he
      rcases DocumentFault.checkPaths_error he with ⟨e, -, -, hfault⟩ | ⟨e, -, o, -, -, hfault⟩
      · cases hfault
      · cases hfault
    · intro hempty
      rw [if_pos hempty]

end MergeState

/-- What can be wrong with a combined document is known from the options, from the operations that the filter lets
through, and from the responses of those that stand in it. -/
theorem combine_faults_predicted (c : Combiner) {document : Json} (h : c.combine.2 = .ok document) :
    MergeState.FaultsPredicted c.config c.sources document := by
  obtain ⟨s, hrun, rfl⟩ := Combiner.exists_addAll_of_combine h
  exact MergeState.faultsPredicted_toDocument hrun

/-- Two services that list users under one path, where the operation that stands has no response, and one whose
only operation is filtered out. -/
def silentUsers : Combiner where
  config := { excludeTags := ["internal"] }
  sources :=
    [{ service := "a", document := .object [("paths", .object [("/users", .object
        [("get", .object [("responses", .object [("200", .object [])])])])])] },
      { service := "b", document := .object [("paths", .object [("/users", .object
        [("summary", .string "b"), ("get", .object [("responses", .object [])])])])] },
      { service := "c", document := .object [("paths", .object [("/jobs", .object
        [("get", .object [("tags", .array [.string "internal"])])])])] }]

theorem combine_faults_predicted_silentUsers :
    ∃ document, silentUsers.combine.2 = .ok document ∧
      MergeState.FaultsPredicted silentUsers.config silentUsers.sources document := by
  obtain ⟨document, h⟩ := exists_ok_of_isOk (x := silentUsers.combine.2) (by decide +kernel)
  exact ⟨document, h, combine_faults_predicted silentUsers h⟩

end ApiDescription
