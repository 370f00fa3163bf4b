import ApiDescription.Proofs.Combine.Components
import ApiDescription.Proofs.Combine.Paths
import ApiDescription.Proofs.Combine.References

/-!
# Every service keeps its schemas

Unless one schema gives way to another, each schema of a source stands in the combined document under
its own or its new name, with its references redirected; and what refers to it by name in the source
refers to it there. Which sources come before and after makes no difference.
-/

set_option autoImplicit false

namespace ApiDescription

open Renames (referenceName referenceStart)

namespace MergeState

variable {config : CombineConfig}

/-- A document holds the schemas of a source that went in behind others, and references lead to them. -/
structure KeepsSchemas (config : CombineConfig) (earlier : List Source) (source : Source)
    (document : Json) : Prop where
  /-- Each schema stands under its name in the combined document, its references redirected. -/
  schema : ∀ m ∈ schemasOf source.document, m.1 ≠ referenceName → ∃ stored,
    Source.lookup? document ["components", schemaKind, schemaName config earlier source m.1] =
      some stored ∧
    stored.same ((renamesBehind config earlier source).redirect m.2) = true
  /-- The references of the source are followed one by one. -/
  references : (settled config earlier source).document.references =
    source.document.references.map (renamesBehind config earlier source).follow
  /-- A reference to a schema as a whole leads to that schema. -/
  leads : ∀ x ∈ source.document.references, x.hidden = false →
    ∀ m ∈ schemasOf source.document, m.1 ≠ referenceName → x.target = referenceStart ++ m.1 →
      ∃ name stored, (renamesBehind config earlier source).follow x = ⟨referenceStart ++ name, false⟩ ∧
        Source.lookup? document ["components", schemaKind, name] = some stored ∧
        stored.same ((renamesBehind config earlier source).redirect m.2) = true

theorem keepsSchemas_toDocument {earlier later : List Source} {source : Source} {s : MergeState}
    (h : addAll config (earlier ++ source :: later) = .ok s)
    (hd : source.document.distinct = true) (ho : ∀ key, ¬ s.Overrides schemaKind key) :
    KeepsSchemas config earlier source (s.toDocument config) := by
  have hschema : ∀ m ∈ schemasOf source.document, m.1 ≠ referenceName → ∃ stored,
      Source.lookup? (s.toDocument config)
        ["components", schemaKind, schemaName config earlier source m.1] = some stored ∧
      stored.same ((renamesBehind config earlier source).redirect m.2) = true := by
    intro m hm hname
    have hw : ((schemaKind, schemaName config earlier source m.1),
        (renamesBehind config earlier source).redirect m.2) ∈ writesBehind config earlier source :=
      (mem_writesBehind_schema hd).2 ⟨m, hm, rfl, Renames.redirectMember_ne _ hname m.2⟩
    obtain ⟨stored, hstored, hsame⟩ := holds_of_addAll h hd hw (ho _)
    exact ⟨stored, (lookup?_components_toDocument s _ _).trans hstored, hsame⟩
  refine ⟨hschema, Renames.references_redirect _ _, ?_⟩
  intro x _ hvisible m hm hname htarget
  obtain ⟨stored, hstored, hsame⟩ := hschema m hm hname
  refine ⟨schemaName config earlier source m.1, stored, ?_, hstored, hsame⟩
  rw [Renames.follow_visible _ hvisible, htarget, Renames.retarget_schema]
  rfl

/-- A document keeps the schemas of every source, and its operations refer to those of the source that
they come from. -/
structure KeepsServices (config : CombineConfig) (sources : List Source) (document : Json) : Prop where
  /-- Names stand once in the document of a source, as they do in every one that is loaded. -/
  schemas : ∀ earlier source later, sources = earlier ++ source :: later →
    source.document.distinct = true → KeepsSchemas config earlier source document
  operation : ∀ path method value, DocumentFault.isMethod method = true →
    Source.lookup? document ["paths", path, method] = some value →
      ∃ earlier source later, sources = earlier ++ source :: later ∧
        ((path, method), value) ∈ keptOperations config (settled config earlier source)

theorem keepsServices_toDocument {sources : List Source} {s : MergeState}
    (h : addAll config sources = .ok s) (ho : ∀ key, ¬ s.Overrides schemaKind key) :
    KeepsServices config sources (s.toDocument config) where
  schemas := by
    rintro earlier source later rfl hd
    exact keepsSchemas_toDocument h hd ho
  operation := by
    intro path method value hm hvalue
    rw [(lastWriterWins_toDocument h).operation path method hm] at hvalue
    obtain ⟨other, hother, hmem⟩ := List.mem_flatMap.1 (Entries.mem_of_lookup_reverse hvalue)
    obtain ⟨earlier, source, later, hsources, rfl⟩ := mem_settledSources.1 hother
    exact ⟨earlier, source, later, hsources, hmem⟩

end MergeState

/-- Every service keeps its schemas: under the strategy `override`, when no schema gave way to another
one, the combined document has every schema of every source, and the operations in it are those of the
sources with their references redirected in the same way. -/
theorem combine_keeps_services (c : Combiner) (hne : c.sources ≠ [])
    (hs : c.config.conflictStrategy = .override)
    (ho : ∀ w ∈ c.combine.1.warnings, ∀ key, w.subject ≠ .component MergeState.schemaKind key) :
    ∃ document, c.combine.2 = .ok document ∧
      MergeState.KeepsServices c.config c.sources document := by
  have hstrategy : c.config.conflictStrategy ≠ .error := by simp [hs]
  obtain ⟨s, h⟩ := MergeState.exists_addAll_ok hstrategy c.sources
  rw [Combiner.combine_eq hne h] at ho ⊢
  refine ⟨s.toDocument c.config, rfl, MergeState.keepsServices_toDocument h ?_⟩
  rintro key ⟨w, hw, hsubject⟩
  exact ho w hw key hsubject

/-- Two services with orders that refer to their users, and users that refer to their orders. The users
differ, so the orders do. -/
def twoOrders : Combiner where
  config := {}
  sources :=
    let reference (name : String) : Json := .object [("$ref", .string (referenceStart ++ name))]
    let document (user : String) : Json := .object [("components", .object [("schemas", .object
      [("Order", .object [("items", reference "User")]),
        ("User", .object [("type", .string user), ("items", reference "Order")]),
        ("Money", .object [("type", .string "integer")])])])]
    [{ service := "a", document := document "array" },
      { service := "b", document := document "object" }]

theorem combine_keeps_services_twoOrders :
    twoOrders.sources ≠ [] ∧ twoOrders.config.conflictStrategy = .override ∧
      (∀ source ∈ twoOrders.sources, source.document.distinct = true) ∧
      twoOrders.combine.1.warnings = [⟨.schema "User", "b", "a"⟩, ⟨.schema "Order", "b", "a"⟩] ∧
      ∃ document, twoOrders.combine.2 = .ok document ∧
        MergeState.KeepsServices twoOrders.config twoOrders.sources document := by
  have hne : twoOrders.sources ≠ [] := by simp [twoOrders]
  have hw : twoOrders.combine.1.warnings =
      [⟨.schema "User", "b", "a"⟩, ⟨.schema "Order", "b", "a"⟩] := by decide +kernel
  refine ⟨hne, rfl, by decide, hw, combine_keeps_services twoOrders hne rfl ?_⟩
  rw [hw]
  simp

end ApiDescription
