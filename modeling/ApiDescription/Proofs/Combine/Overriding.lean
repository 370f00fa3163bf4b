import Mathlib.Data.List.Nodup
import ApiDescription.Proofs.Combine.Components

/-!
# When a schema gives way to another one

A renamed schema goes under `<service>.<name>`, whatever stands there. `Collides` lists the ways in which that
name can be taken: by a schema of an earlier source or by one of the same source that keeps its name.
Only then does a schema give way (`overrides_schema_iff`), and when names of schemas have no dots and services
differ it never happens (`not_collides`).
-/

set_option autoImplicit false

namespace ApiDescription

open Renames (referenceName)

/-! ## Names with a service -/

theorem namespaced_injective {service name name' : String}
    (h : namespaced service name = namespaced service name') : name = name' :=
  String.append_right_inj _ |>.1 h

/-- Behind the last dot stands the name, when it has none itself. -/
theorem append_dot_injective {s n t m : List Char} (hn : '.' ∉ n) (hm : '.' ∉ m)
    (h : s ++ '.' :: n = t ++ '.' :: m) : s = t ∧ n = m := by
  have hlonger : ∀ {l k : List Char}, '.' ∉ k → ∀ a, '.' :: k = a ++ '.' :: l → a = [] ∧ k = l := by
    intro l k hk a ha
    cases a with
    | nil => exact ⟨rfl, (List.cons.inj ha).2⟩
    | cons c a =>
      have hmem : '.' ∈ k := by
        rw [(List.cons.inj ha).2]
        simp
      exact absurd hmem hk
  rcases List.append_eq_append_iff.1 h with ⟨a, rfl, ha⟩ | ⟨a, rfl, ha⟩
  · obtain ⟨rfl, rfl⟩ := hlonger hn a ha
    simp
  · obtain ⟨rfl, rfl⟩ := hlonger hm a ha
    simp

theorem service_eq_of_namespaced {service service' name name' : String} (hn : '.' ∉ name.toList)
    (hn' : '.' ∉ name'.toList) (h : namespaced service name = namespaced service' name') :
    service = service' := by
  have hl : service.toList ++ '.' :: name.toList = service'.toList ++ '.' :: name'.toList := by
    have htoList := congrArg String.toList h
    simpa [namespaced, String.toList_append] using htoList
  exact String.toList_injective (append_dot_injective hn hn' hl).1

namespace MergeState

variable {config : CombineConfig}

/-! ## Names that are taken -/

/-- Under the key of a schema of a source stands another schema. -/
inductive Collides (before : MergeState) (r : Renames) (source : Source) : String → Prop
  /-- An earlier source has another schema under the new name of a renamed one. -/
  | earlier (m : String × Json) (stored : Json) (hm : m ∈ schemasOf source.document)
      (hr : m.1 ∈ Entries.keys r)
      (hstored : before.component? schemaKind (namespaced source.service m.1) = some stored)
      (hdiffers : stored.same (r.redirectMember m.1 m.2) = false) :
      Collides before r source (namespaced source.service m.1)
  /-- The source itself has another schema under the new name of a renamed one. -/
  | own (m m' : String × Json) (hm : m ∈ schemasOf source.document) (hr : m.1 ∈ Entries.keys r)
      (hm' : m' ∈ schemasOf source.document) (hr' : m'.1 ∉ Entries.keys r)
      (hname : m'.1 = namespaced source.service m.1)
      (hdiffers : (r.redirectMember m'.1 m'.2).same (r.redirectMember m.1 m.2) = false) :
      Collides before r source (namespaced source.service m.1)
  /-- The name of a schema makes its value a reference, which is compared before it is retargeted. -/
  | reference (m : String × Json) (stored : Json) (hm : m ∈ schemasOf source.document)
      (hname : m.1 = referenceName) (hr : m.1 ∉ Entries.keys r)
      (hstored : before.component? schemaKind m.1 = some stored)
      (hdiffers : stored.same (r.redirectMember m.1 m.2) = false) : Collides before r source m.1

section Names

variable {earlier : List Source} {source : Source} {before : MergeState}

theorem distinct_redirectMember_schema (hd : source.document.distinct = true) {m : String × Json}
    (hm : m ∈ schemasOf source.document) :
    ((renamesBehind config earlier source).redirectMember m.1 m.2).distinct = true := by
  have hw : ((schemaKind, schemaName config earlier source m.1),
      (renamesBehind config earlier source).redirectMember m.1 m.2) ∈
        writesBehind config earlier source :=
    (mem_writesBehind_schema hd).2 ⟨m, hm, rfl, rfl⟩
  exact distinct_of_mem_writesBehind hd hw

/-- Another schema that stands under the name of a schema is in the way of a new name, unless the name is
that of a reference. -/
theorem collides_of_earlier
    (hkeeps : ∀ m ∈ schemasOf source.document,
      m.1 ∉ Entries.keys (renamesBehind config earlier source) →
        Keeps before (renamesBehind config earlier source) m)
    {m : String × Json} (hm : m ∈ schemasOf source.document) {stored : Json}
    (hstored : before.component? schemaKind (schemaName config earlier source m.1) = some stored)
    (hdiffers :
      stored.same ((renamesBehind config earlier source).redirectMember m.1 m.2) = false) :
    Collides before (renamesBehind config earlier source) source
      (schemaName config earlier source m.1) := by
  by_cases hr : m.1 ∈ Entries.keys (renamesBehind config earlier source)
  · have hname := (renamesOf_renamesBehind config earlier source).componentKey hr
    rw [schemaName, hname] at hstored ⊢
    exact .earlier m stored hm hr hstored hdiffers
  · rw [schemaName, componentKey_of_not_mem hr] at hstored ⊢
    by_cases hname : m.1 = referenceName
    · exact .reference m stored hm hname hr hstored hdiffers
    · have hkept := hkeeps m hm hr stored hstored
      rw [Renames.redirectMember_ne _ hname, hkept] at hdiffers
      cases hdiffers

theorem collides_of_own (hd : source.document.distinct = true) {m m' : String × Json}
    (hm : m ∈ schemasOf source.document) (hm' : m' ∈ schemasOf source.document)
    (hname : schemaName config earlier source m.1 = schemaName config earlier source m'.1)
    (hdiffers : ((renamesBehind config earlier source).redirectMember m.1 m.2).same
      ((renamesBehind config earlier source).redirectMember m'.1 m'.2) = false) :
    Collides before (renamesBehind config earlier source) source
      (schemaName config earlier source m.1) := by
  -- renaming is injective on the renamed and on the kept, so exactly one of the two is renamed
  have hof := renamesOf_renamesBehind config earlier source
  have hne : m.1 ≠ m'.1 := by
    intro heq
    have hmm : m = m' := List.inj_on_of_nodup_map (Source.nodup_keys_membersAt hd _) hm hm' heq
    rw [hmm, Json.same_refl (distinct_redirectMember_schema hd hm')] at hdiffers
    cases hdiffers
  have hback : ((renamesBehind config earlier source).redirectMember m'.1 m'.2).same
      ((renamesBehind config earlier source).redirectMember m.1 m.2) = false := by
    rw [← Bool.not_eq_true]
    intro h
    have hsame := Json.same_symm (distinct_redirectMember_schema hd hm')
      (distinct_redirectMember_schema hd hm) h
    rw [hdiffers] at hsame
    cases hsame
  rw [schemaName, schemaName] at hname
  by_cases hr : m.1 ∈ Entries.keys (renamesBehind config earlier source)
  · rw [schemaName, hof.componentKey hr]
    rw [hof.componentKey hr] at hname
    by_cases hr' : m'.1 ∈ Entries.keys (renamesBehind config earlier source)
    · rw [hof.componentKey hr'] at hname
      exact absurd (namespaced_injective hname) hne
    · rw [componentKey_of_not_mem hr'] at hname
      exact .own m m' hm hr hm' hr' hname.symm hback
  · rw [schemaName, componentKey_of_not_mem hr]
    rw [componentKey_of_not_mem hr] at hname
    by_cases hr' : m'.1 ∈ Entries.keys (renamesBehind config earlier source)
    · rw [hof.componentKey hr'] at hname
      rw [hname]
      exact .own m' m hm' hr' hm hr hname hdiffers
    · rw [componentKey_of_not_mem hr'] at hname
      exact absurd hname hne

theorem clashes_of_collides (hd : source.document.distinct = true) {key : String}
    (h : Collides before (renamesBehind config earlier source) source key) :
    before.Clashes (writesBehind config earlier source) schemaKind key := by
  have hof := renamesOf_renamesBehind config earlier source
  cases h with
  | earlier m stored hm hr hstored hdiffers =>
    refine Or.inl ⟨_, (mem_writesBehind_schema hd).2 ⟨m, hm, rfl, rfl⟩, ?_, stored, hstored, hdiffers⟩
    rw [schemaName, hof.componentKey hr]
  | own m m' hm hr hm' hr' hname hdiffers =>
    refine Or.inr ⟨_, (mem_writesBehind_schema hd).2 ⟨m', hm', rfl, rfl⟩,
      _, (mem_writesBehind_schema hd).2 ⟨m, hm, rfl, rfl⟩, ?_, ?_, hdiffers⟩
    · rw [schemaName, componentKey_of_not_mem hr', hname]
    · rw [schemaName, hof.componentKey hr]
  | reference m stored hm hname hr hstored hdiffers =>
    refine Or.inl ⟨_, (mem_writesBehind_schema hd).2 ⟨m, hm, rfl, rfl⟩, ?_, stored, hstored, hdiffers⟩
    rw [schemaName, componentKey_of_not_mem hr]

/-- The schemas of a source clash exactly when a name is taken. -/
theorem clashes_schema_iff (hd : source.document.distinct = true)
    (hkeeps : ∀ m ∈ schemasOf source.document,
      m.1 ∉ Entries.keys (renamesBehind config earlier source) →
        Keeps before (renamesBehind config earlier source) m) (key : String) :
    before.Clashes (writesBehind config earlier source) schemaKind key ↔
      Collides before (renamesBehind config earlier source) source key := by
  refine ⟨?_, clashes_of_collides hd⟩
  rintro (⟨⟨place, v⟩, hw, hplace, stored, hstored, hdiffers⟩ |
    ⟨⟨place, v⟩, hw, ⟨place', v'⟩, hw', hplace, hplace', hdiffers⟩)
  · cases hplace
    obtain ⟨m, hm, rfl, rfl⟩ := (mem_writesBehind_schema hd).1 hw
    exact collides_of_earlier hkeeps hm hstored hdiffers
  · cases hplace
    cases hplace'
    obtain ⟨m, hm, rfl, rfl⟩ := (mem_writesBehind_schema hd).1 hw
    obtain ⟨m', hm', hname, rfl⟩ := (mem_writesBehind_schema hd).1 hw'
    exact collides_of_own hd hm hm' hname.symm hdiffers

end Names

/-- A schema gives way in a run exactly when its name is taken. -/
theorem overrides_schema_iff {sources : List Source} {s : MergeState}
    (hd : ∀ source ∈ sources, source.document.distinct = true)
    (h : addAll config sources = .ok s) (key : String) :
    s.Overrides schemaKind key ↔ ∃ earlier source later before,
      sources = earlier ++ source :: later ∧ addAll config earlier = .ok before ∧
        Collides before (renamesBehind config earlier source) source key := by
  rw [overrides_addAll_iff hd h]
  constructor
  · rintro ⟨earlier, source, later, before, rfl, hb, hc⟩
    refine ⟨earlier, source, later, before, rfl, hb, ?_⟩
    exact (clashes_schema_iff (hd source (by simp)) (fun m => keeps_of_addAll h hb) key).1 hc
  · rintro ⟨earlier, source, later, before, rfl, hb, hc⟩
    refine ⟨earlier, source, later, before, rfl, hb, ?_⟩
    exact (clashes_schema_iff (hd source (by simp)) (fun m => keeps_of_addAll h hb) key).2 hc

/-! ## Names without dots -/

/-- The names of the schemas of a source have no dots, and none of them is that of a reference. -/
def PlainNames (source : Source) : Prop :=
  ∀ m ∈ schemasOf source.document, '.' ∉ m.1.toList ∧ m.1 ≠ referenceName

/-- With names without dots, no name is taken that another service gave. -/
theorem not_collides {earlier later : List Source} {source : Source} {before : MergeState}
    (hd : ∀ other ∈ earlier ++ source :: later, other.document.distinct = true)
    (hservices : ((earlier ++ source :: later).map (·.service)).Nodup)
    (hplain : ∀ other ∈ earlier ++ source :: later, PlainNames other)
    (hb : addAll config earlier = .ok before) (key : String) :
    ¬ Collides before (renamesBehind config earlier source) source key := by
  have hsource : source ∈ earlier ++ source :: later := by simp
  intro hc
  cases hc with
  | earlier m stored hm hr hstored hdiffers =>
    obtain ⟨before', other, between, rfl, hw⟩ := origin_of_addAll hb hstored
    have hother : other ∈ (before' ++ other :: between) ++ source :: later := by simp
    obtain ⟨m', hm', hname, -⟩ := (mem_writesBehind_schema (hd other hother)).1 hw
    have hplain' := (hplain other hother m' hm').1
    rw [schemaName] at hname
    -- a new name tells its service, and an old one has no dot
    by_cases hr' : m'.1 ∈ Entries.keys (renamesBehind config before' other)
    · rw [(renamesOf_renamesBehind config before' other).componentKey hr'] at hname
      have hservice := service_eq_of_namespaced hplain' (hplain source hsource m hm).1 hname
      have hlater : other.service ∉ ((between ++ source :: later).map (·.service)) := by
        rw [List.append_assoc, List.map_append, List.cons_append, List.map_cons] at hservices
        exact (List.nodup_cons.1 (List.nodup_append.1 hservices).2.1).1
      exact hlater (by simp [hservice])
    · rw [componentKey_of_not_mem hr'] at hname
      rw [hname] at hplain'
      exact hplain' (dot_mem_namespaced _ _)
  | own m m' hm hr hm' hr' hname hdiffers =>
    have hplain' := (hplain source hsource m' hm').1
    rw [hname] at hplain'
    exact hplain' (dot_mem_namespaced _ _)
  | reference m stored hm hname hr hstored hdiffers =>
    exact (hplain source hsource m hm).2 hname

theorem not_overrides_schema {sources : List Source} {s : MergeState}
    (h : addAll config sources = .ok s)
    (hd : ∀ source ∈ sources, source.document.distinct = true)
    (hservices : (sources.map (·.service)).Nodup) (hplain : ∀ source ∈ sources, PlainNames source)
    (key : String) : ¬ s.Overrides schemaKind key := by
  intro ho
  obtain ⟨earlier, source, later, before, rfl, hb, hc⟩ := (overrides_schema_iff hd h key).1 ho
  exact not_collides hd hservices hplain hb key hc

/-- Which schemas a run over sources tells to have given way, in terms of what it reports. -/
structure OverridesWhenTaken (config : CombineConfig) (sources : List Source)
    (warnings : List Conflict) : Prop where
  /-- A schema gives way exactly when a source has another one for its name. -/
  iff : ∀ key, (∃ w ∈ warnings, w.subject = .component schemaKind key) ↔
    ∃ earlier source later before, sources = earlier ++ source :: later ∧
      addAll config earlier = .ok before ∧
      Collides before (renamesBehind config earlier source) source key
  /-- None does when services differ and the names of their schemas have no dots. -/
  plain : (sources.map (·.service)).Nodup → (∀ source ∈ sources, PlainNames source) →
    ∀ w ∈ warnings, ∀ key, w.subject ≠ .component schemaKind key

end MergeState

/-- Under the strategy `override`, a schema gives way to another one exactly when the name that it has in
the combined document is taken. Loaded documents are distinct (`Combiner.distinct_loadFiles`). -/
theorem combine_overrides_schema_iff (c : Combiner) (hne : c.sources ≠ [])
    (hs : c.config.conflictStrategy = .override)
    (hd : ∀ source ∈ c.sources, source.document.distinct = true) :
    (∃ document, c.combine.2 = .ok document) ∧
      MergeState.OverridesWhenTaken c.config c.sources c.combine.1.warnings := by
  have hstrategy : c.config.conflictStrategy ≠ .error := by simp [hs]
  obtain ⟨s, h⟩ := MergeState.exists_addAll_ok hstrategy c.sources
  rw [Combiner.combine_eq hne h]
  refine ⟨⟨_, rfl⟩, MergeState.overrides_schema_iff hd h, ?_⟩
  intro hservices hplain w hw key hsubject
  exact MergeState.not_overrides_schema h hd hservices hplain key ⟨w, hw, hsubject⟩

/-- A service whose schema has the name that another of its schemas gets. -/
def takenName : Combiner where
  config := {}
  sources :=
    let ofType (name : String) : Json := .object [("type", .string name)]
    let document (schemas : List (String × Json)) : Json :=
      .object [("components", .object [("schemas", .object schemas)])]
    [{ service := "a", document := document [("User", ofType "string")] },
      { service := "b", document := document [("User", ofType "object"), ("b.User", ofType "integer")] }]

theorem combine_overrides_schema_iff_takenName :
    takenName.sources ≠ [] ∧ takenName.config.conflictStrategy = .override ∧
      (∀ source ∈ takenName.sources, source.document.distinct = true) ∧
      (∃ document, takenName.combine.2 = .ok document) ∧
      MergeState.OverridesWhenTaken takenName.config takenName.sources
        takenName.combine.1.warnings := by
  have hne : takenName.sources ≠ [] := by simp [takenName]
  have hd : ∀ source ∈ takenName.sources, source.document.distinct = true := by decide
  exact ⟨hne, rfl, hd, combine_overrides_schema_iff takenName hne rfl hd⟩

/-- The services differ, and still one of the schemas gives way. -/
theorem takenName_overrides :
    (takenName.sources.map (·.service)).Nodup ∧ takenName.config.conflictStrategy = .override ∧
      ∃ w ∈ takenName.combine.1.warnings, w.subject = .component MergeState.schemaKind "b.User" := by
  have hw : takenName.combine.1.warnings =
      [⟨.schema "User", "b", "a"⟩, ⟨.component "schemas" "b.User", "b", "b"⟩] := by decide +kernel
  refine ⟨by decide, rfl, ⟨.component "schemas" "b.User", "b", "b"⟩, ?_, rfl⟩
  rw [hw]
  simp

end ApiDescription
