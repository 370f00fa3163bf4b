import ApiDescription.Proofs.Combine.Document

/-!
# Who may call an operation

What an operation requires of its caller is said by the operation itself, or else by its document for all of
its operations. A combined document says nothing for all operations, so what a source said for its own goes
onto them when they are prepared. `origin?` finds the operation of a source that the one under a path and a
method came from; that one and no other source decides what it requires (`combine_keeps_requirements`).
-/

set_option autoImplicit false

namespace ApiDescription

/-- What an operation requires of its caller: what it says itself, be it that nothing is required, and else
what its document says for all operations, as far as that is a list of some requirements. -/
def requirements? (document operation : Json) : Option Json :=
  (operation.get? "security").or
    ((document.get? "security").filter fun security => security.items?.any fun requirements => !requirements.isEmpty)

namespace MergeState

variable {config : CombineConfig} {sources : List Source} {source : Source} {s : MergeState}

/-! ## Operations as they go in -/

theorem documentSecurity?_eq (document : Json) : documentSecurity? document =
    (document.get? "security").filter fun security =>
      security.items?.any fun requirements => !requirements.isEmpty := by
  unfold documentSecurity?
  cases document.get? "security" with
  | none => rfl
  | some security =>
    cases security with
    | array requirements => cases requirements <;> rfl
    | _ => rfl

theorem requirements?_eq (document operation : Json) :
    requirements? document operation = (operation.get? "security").or (documentSecurity? document) := by
  rw [requirements?, documentSecurity?_eq]

theorem isObject_prepare (source : Source) (security : Option Json) (operation : Json) :
    (prepare source security operation).isObject = operation.isObject := by
  cases operation <;> rfl

/-- An operation that says nothing is given what its document says. -/
theorem get?_security_prepare (source : Source) (security : Option Json) {operation : Json}
    (ho : operation.isObject = true) :
    (prepare source security operation).get? "security" =
      (operation.get? "security").or security := by
  cases operation with
  | object members =>
    have htags : Entries.get? (Entries.put members "tags"
        (.array ((combinedTags source (.object members)).map .string))) "security" =
          Entries.get? members "security" := Entries.get?_put_ne members _ (by decide)
    cases security with
    | none => exact htags.trans (Option.or_none).symm
    | some requirements =>
      refine (Entries.get?_putNew_self _ "security" requirements).trans ?_
      rw [htags]
      rfl
  | _ => cases ho

theorem requirements?_prepare {document : Json} (hnone : document.get? "security" = none)
    {operation : Json} (ho : operation.isObject = true) :
    requirements? document (prepare source (documentSecurity? source.document) operation) =
      requirements? source.document operation := by
  have hdocument : documentSecurity? document = none := by rw [documentSecurity?, hnone]
  rw [requirements?_eq, get?_security_prepare source _ ho, hdocument, Option.or_none, requirements?_eq]

/-! ## Where an operation comes from -/

/-- The operations of a source that the filter keeps, with their final paths and their methods: each with the
source, and as it stands there. -/
def keptOrigins (config : CombineConfig) (source : Source) :
    List ((String × String) × (Source × Json)) :=
  (Source.membersAt source.document ["paths"]).flatMap fun (path, item) =>
    ((DocumentFault.operationsOf item).filter fun o => config.tagFilter.allows (tagsOf o.2)).map
      fun o => ((finalPath config source path, o.1), (source, o.2))

/-- The operation of a source that comes to stand under a path and a method, with the source as it goes in:
the last one that is kept. -/
def origin? (config : CombineConfig) (sources : List Source) (path method : String) :
    Option (Source × Json) :=
  ((settledSources config sources).flatMap (keptOrigins config)).reverse.lookup (path, method)

theorem keptOperations_eq_map (source : Source) :
    keptOperations config source = (keptOrigins config source).map fun w =>
      (w.1, prepare w.2.1 (documentSecurity? w.2.1.document) w.2.2) := by
  simp only [keptOperations, keptOrigins, keptOf, List.map_flatMap, List.map_map, Function.comp_def]

/-- Every operation of the combined document is its origin, prepared. -/
theorem lookup?_eq_origin? (h : addAll config sources = .ok s) {path method : String}
    (hmethod : DocumentFault.isMethod method = true) :
    Source.lookup? (s.toDocument config) ["paths", path, method] =
      (origin? config sources path method).map fun o =>
        prepare o.1 (documentSecurity? o.1.document) o.2 := by
  have hkept : keptOperations config = fun source => (keptOrigins config source).map fun w =>
      (w.1, prepare w.2.1 (documentSecurity? w.2.1.document) w.2.2) :=
    funext keptOperations_eq_map
  rw [(lastWriterWins_toDocument h).operation path method hmethod, hkept, ← List.map_flatMap,
    ← List.map_reverse]
  exact Entries.lookup_map (fun o : Source × Json => prepare o.1 (documentSecurity? o.1.document) o.2) _ _

/-! ## The main statement -/

/-- What the operations of a combined document require, by what their origins do. -/
structure KeepsRequirements (config : CombineConfig) (sources : List Source) (document : Json) :
    Prop where
  /-- Nothing is said for all operations. -/
  nothing_shared : document.get? "security" = none
  /-- An operation requires what its origin does in its own document. -/
  kept : ∀ path method operation, DocumentFault.isMethod method = true →
    Source.lookup? document ["paths", path, method] = some operation →
      ∃ source own, origin? config sources path method = some (source, own) ∧
        own.isObject = operation.isObject ∧
        (operation.isObject = true →
          requirements? document operation = requirements? source.document own)
  /-- What an operation says itself it goes on saying, in particular that it is public. -/
  said : ∀ path method source own v, DocumentFault.isMethod method = true →
    origin? config sources path method = some (source, own) → own.get? "security" = some v →
      ∃ operation, Source.lookup? document ["paths", path, method] = some operation ∧
        operation.get? "security" = some v
  /-- An operation of which its document requires nothing is not given requirements of another source. -/
  free : ∀ path method source own, DocumentFault.isMethod method = true →
    origin? config sources path method = some (source, own) →
      requirements? source.document own = none →
        ∃ operation, Source.lookup? document ["paths", path, method] = some operation ∧
          requirements? document operation = none

theorem keepsRequirements_toDocument (h : addAll config sources = .ok s) :
    KeepsRequirements config sources (s.toDocument config) := by
  have hnothing : (s.toDocument config).get? "security" = none := get?_security_toDocument s
  have hplaced : ∀ path method source own, DocumentFault.isMethod method = true →
      origin? config sources path method = some (source, own) →
        Source.lookup? (s.toDocument config) ["paths", path, method] =
          some (prepare source (documentSecurity? source.document) own) := by
    intro path method source own hmethod horigin
    rw [lookup?_eq_origin? h hmethod, horigin]
    rfl
  refine ⟨hnothing, ?_, ?_, ?_⟩
  · intro path method operation hmethod hlookup
    rw [lookup?_eq_origin? h hmethod] at hlookup
    obtain ⟨⟨source, own⟩, horigin, rfl⟩ := Option.map_eq_some_iff.1 hlookup
    have hobject := isObject_prepare source (documentSecurity? source.document) own
    exact ⟨source, own, horigin, hobject.symm, fun ho =>
      requirements?_prepare hnothing (hobject ▸ ho)⟩
  · intro path method source own v hmethod horigin hsaid
    have ho : own.isObject = true := by
      cases own with
      | object => rfl
      | _ => cases hsaid
    refine ⟨_, hplaced path method source own hmethod horigin, ?_⟩
    rw [get?_security_prepare source _ ho, hsaid, Option.some_or]
  · intro path method source own hmethod horigin hfree
    refine ⟨_, hplaced path method source own hmethod horigin, ?_⟩
    cases own with
    | object members => exact (requirements?_prepare hnothing rfl).trans hfree
    | _ =>
      rw [requirements?_eq, documentSecurity?_toDocument]
      rfl

end MergeState

/-- Combining does not change who may call an operation: what an operation of the combined document requires is
what the one that it came from required in the document of its own source. -/
theorem combine_keeps_requirements (c : Combiner) {document : Json} (h : c.combine.2 = .ok document) :
    MergeState.KeepsRequirements c.config c.sources document := by
  obtain ⟨s, hrun, rfl⟩ := Combiner.exists_addAll_of_combine h
  exact MergeState.keepsRequirements_toDocument hrun

/-- A service that requires a key of its callers, but not for its health, and one that requires nothing and
replaces an operation of the first. -/
def keyAndOpen : Combiner where
  config := {}
  sources :=
    [{ service := "a", document := .object [("security", .array [.object [("key", .array [])]]),
        ("paths", .object [("/users", .object [("get", .object []), ("post", .object [])]),
          ("/health", .object [("get", .object [("security", .array [])])])])] },
      { service := "b", document := .object [("paths", .object
        [("/users", .object [("get", .object [])])])] }]

theorem combine_keeps_requirements_keyAndOpen :
    ∃ document, keyAndOpen.combine.2 = .ok document ∧
      MergeState.KeepsRequirements keyAndOpen.config keyAndOpen.sources document ∧
      [["paths", "/users", "get"], ["paths", "/users", "post"], ["paths", "/health", "get"]].map
          (fun place => (Source.lookup? document place).map (requirements? document)) =
        [some none, some (some (.array [.object [("key", .array [])]])), some (some (.array []))] := by
  obtain ⟨document, h⟩ := exists_ok_of_isOk (x := keyAndOpen.combine.2) (by decide +kernel)
  have hlists : (keyAndOpen.combine.2.toOption.map fun document =>
      [["paths", "/users", "get"], ["paths", "/users", "post"], ["paths", "/health", "get"]].map
        fun place => (Source.lookup? document place).map (requirements? document)) =
      some [some none, some (some (.array [.object [("key", .array [])]])), some (some (.array []))] := by
    decide +kernel
  rw [h] at hlists
  exact ⟨document, h, combine_keeps_requirements keyAndOpen h, Option.some.inj hlists⟩

end ApiDescription
