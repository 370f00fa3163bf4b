import ApiDescription.Proofs.Combine.Overriding
import ApiDescription.Proofs.Combine.Provenance
import ApiDescription.Proofs.Json.Pointer

/-!
# References that lead nowhere

Schemas get new names, and a reference follows only when it names a renamed schema as a whole. So a
reference of the combined document that led somewhere in its source may lead nowhere: it went `Astray`. That
is the only way (`astray_of_dangling`). With plain names it takes a reference to a part of a renamed schema,
or one that redirecting does not see (`dangling_iff_of_plain`).
-/

set_option autoImplicit false

namespace ApiDescription

open Renames (referenceName referenceStart)

/-! ## Places in redirected values -/

namespace Renames

variable (r : Renames)

theorem isSome_descend?_retargetValue (v : Json) (tokens : List String) :
    ((r.retargetValue v).descend? tokens).isSome = (v.descend? tokens).isSome := by
  cases v with
  | string target => cases tokens <;> rfl
  | _ => rfl

theorem isSome_descend?_redirect (v : Json) (tokens : List String) :
    ((r.redirect v).descend? tokens).isSome = (v.descend? tokens).isSome := by
  induction tokens generalizing v with
  | nil => rfl
  | cons token tokens ih =>
    cases v with
    | object ms =>
      have hchild : (r.redirect (.object ms)).child? token =
          (Json.child? (.object ms) token).map (r.redirectMember token) :=
        get?_redirect r (.object ms) token
      unfold Json.descend?
      rw [hchild]
      cases Json.child? (.object ms) token with
      | none => rfl
      | some w =>
        rw [Option.map_some, Option.bind_some, Option.bind_some]
        unfold redirectMember
        split
        · exact isSome_descend?_retargetValue r w tokens
        · exact ih w
    | array xs =>
      have hchild : (r.redirect (.array xs)).child? token =
          (Json.child? (.array xs) token).map r.redirect := by
        unfold Json.child?
        rw [redirect_array]
        cases Json.index? token <;> simp
      unfold Json.descend?
      rw [hchild]
      cases Json.child? (.array xs) token with
      | none => rfl
      | some w => exact ih w
    | _ => simp [redirect]

theorem isSome_descend?_redirectMember (name : String) (v : Json) (tokens : List String) :
    ((r.redirectMember name v).descend? tokens).isSome = (v.descend? tokens).isSome := by
  unfold redirectMember
  split
  · exact isSome_descend?_retargetValue r v tokens
  · exact isSome_descend?_redirect r v tokens

end Renames

/-! ## References to schemas -/

/-- The tokens of a reference to a schema or to a part of one, from the name of the schema on. -/
def schemaTokens? (target : String) : Option (List String) :=
  (Service.stripStart? referenceStart target).map fun rest => Json.tokensOf rest.toList

theorem schemaTokens?_append (rest : String) :
    schemaTokens? (referenceStart ++ rest) = some (Json.tokensOf rest.toList) := by
  rw [schemaTokens?, Service.stripStart?_append]
  rfl

theorem exists_rest_of_schemaTokens? {target : String} {tokens : List String}
    (h : schemaTokens? target = some tokens) :
    ∃ rest, target = referenceStart ++ rest ∧ Json.tokensOf rest.toList = tokens := by
  obtain ⟨rest, hrest, htokens⟩ := Option.map_eq_some_iff.1 h
  exact ⟨rest, Service.stripStart?_eq_some_iff.1 hrest, htokens⟩

theorem schemaTokens?_ne_nil (target : String) : schemaTokens? target ≠ some [] := by
  intro h
  obtain ⟨rest, -, htokens⟩ := exists_rest_of_schemaTokens? h
  exact Json.tokensOf_ne_nil _ htokens

theorem pointer?_of_schemaTokens? {target : String} {tokens : List String}
    (h : schemaTokens? target = some tokens) :
    Json.pointer? target = some ("components" :: MergeState.schemaKind :: tokens) := by
  obtain ⟨rest, rfl, rfl⟩ := exists_rest_of_schemaTokens? h
  have hchars : (referenceStart ++ rest).toList = '#' :: '/' :: ("components".toList ++
      '/' :: (MergeState.schemaKind.toList ++ '/' :: rest.toList)) := by
    rw [String.toList_append]
    rfl
  unfold Json.pointer?
  rw [hchars]
  show some (Json.tokensOf _) = _
  rw [Json.tokensOf_cons (by decide) (by decide), Json.tokensOf_cons (by decide) (by decide)]

theorem child?_eq_get? {token : String} (h : Json.index? token = none) (j : Json) :
    j.child? token = j.get? token := by
  cases j with
  | array xs => rw [Json.child?, h]; rfl
  | _ => rfl

theorem resolves_iff {j : Json} {target : String} {tokens : List String}
    (h : schemaTokens? target = some tokens) :
    j.resolves target = true ↔ ∃ schemas place,
      Source.lookup? j ["components", MergeState.schemaKind] = some schemas ∧
        schemas.descend? tokens = some place := by
  have hdescend : j.descend? ("components" :: MergeState.schemaKind :: tokens) =
      (Source.lookup? j ["components", MergeState.schemaKind]).bind (Json.descend? · tokens) := by
    rw [Json.descend?, child?_eq_get? rfl, Source.lookup?_cons, Option.bind_assoc]
    congr 1
    funext components
    rw [Json.descend?, child?_eq_get? rfl, Source.lookup?_cons, Option.bind_assoc]
    rfl
  rw [Json.resolves, pointer?_of_schemaTokens? h, Option.bind_some, hdescend,
    Option.isSome_iff_exists]
  simp only [Option.bind_eq_some_iff]
  exact exists_comm

namespace MergeState

variable {config : CombineConfig} {s : MergeState}

theorem resolves_toDocument_iff {target name : String} {tokens : List String}
    (h : schemaTokens? target = some (name :: tokens)) :
    (s.toDocument config).resolves target = true ↔ ∃ stored place,
      s.component? schemaKind name = some stored ∧ stored.descend? tokens = some place := by
  have hschemas : Source.lookup? (s.toDocument config) ["components", schemaKind] =
      (Entries.get? s.components schemaKind).map .object := by
    have hget := Source.lookup?_concat (s.toDocument config) ["components"] schemaKind
    rw [membersAt_components_toDocument] at hget
    exact hget.trans (Entries.get?_map (fun _ entries => Json.object entries) s.components schemaKind)
  rw [resolves_iff h, hschemas]
  unfold component?
  cases Entries.get? s.components schemaKind with
  | none => simp
  | some entries =>
    simp only [Option.map_some, Option.some.injEq, Option.bind_some]
    constructor
    · rintro ⟨schemas, place, rfl, hplace⟩
      obtain ⟨stored, hstored, hplace⟩ := Option.bind_eq_some_iff.1 hplace
      exact ⟨stored, place, hstored, hplace⟩
    · rintro ⟨stored, place, hstored, hplace⟩
      exact ⟨_, place, rfl, Option.bind_eq_some_iff.2 ⟨stored, hstored, hplace⟩⟩

/-- A reference that leads somewhere leads into a schema of the document, unless its schemas are no
object. -/
theorem exists_schema_of_resolves {document : Json} {target name : String} {tokens : List String}
    (h : schemaTokens? target = some (name :: tokens)) (hr : document.resolves target = true)
    (hlisted : schemasOf document ≠ []) :
    ∃ value, (name, value) ∈ schemasOf document ∧ (value.descend? tokens).isSome = true := by
  obtain ⟨schemas, place, hschemas, hplace⟩ := (resolves_iff h).1 hr
  have hmembers : schemasOf document = schemas.members?.getD [] := by
    unfold schemasOf Source.membersAt
    rw [hschemas]
    rfl
  rw [hmembers] at hlisted ⊢
  cases schemas with
  | object ms =>
    obtain ⟨value, hvalue, hplace⟩ := Option.bind_eq_some_iff.1 hplace
    exact ⟨value, Entries.mem_of_get?_eq_some hvalue, by rw [hplace]; rfl⟩
  | _ => exact absurd rfl hlisted

/-- A part of a schema is found at its place in the combined document, unless something gave way
there. -/
theorem exists_place_of_addAll {earlier later : List Source} {source : Source}
    (h : addAll config (earlier ++ source :: later) = .ok s)
    (hd : ∀ other ∈ earlier ++ source :: later, other.document.distinct = true)
    {m : String × Json} (hm : m ∈ schemasOf source.document) {tokens : List String}
    (hplace : (m.2.descend? tokens).isSome = true)
    (ho : ¬ s.Overrides schemaKind (schemaName config earlier source m.1)) :
    ∃ stored place, s.component? schemaKind (schemaName config earlier source m.1) = some stored ∧
      stored.descend? tokens = some place := by
  have hsource : source.document.distinct = true := hd source (by simp)
  have hw : ((schemaKind, schemaName config earlier source m.1),
      (renamesBehind config earlier source).redirectMember m.1 m.2) ∈
        writesBehind config earlier source :=
    (mem_writesBehind_schema hsource).2 ⟨m, hm, rfl, rfl⟩
  -- the document may hold a schema that is only the same, which has the same places
  obtain ⟨stored, hstored, hsame⟩ := holds_of_addAll h hsource hw ho
  have hback := Json.same_symm (distinct_of_component? hd h hstored)
    (distinct_of_mem_writesBehind hsource hw) hsame
  rw [← Renames.isSome_descend?_redirectMember (renamesBehind config earlier source) m.1] at hplace
  obtain ⟨place, hplace⟩ := Option.isSome_iff_exists.1 hplace
  obtain ⟨place', hplace', -⟩ := Json.descend?_of_same hback hplace
  exact ⟨stored, place', hstored, hplace'⟩

/-! ## References that went astray -/

/-- A reference of a source to a schema need not lead there in the combined document. -/
inductive Astray (config : CombineConfig) (earlier : List Source) (source : Source)
    (warnings : List Conflict) (x : FoundReference) : Prop
  /-- It does not name the schema as the combined document does. -/
  | lost (name : String) (tokens : List String) (hx : schemaTokens? x.target = some (name :: tokens))
      (hnew : schemaTokens? ((renamesBehind config earlier source).follow x).target ≠
        some (schemaName config earlier source name :: tokens))
  /-- A schema gave way under the name. -/
  | overridden (name : String) (tokens : List String)
      (hx : schemaTokens? x.target = some (name :: tokens)) (w : Conflict) (hw : w ∈ warnings)
      (hsubject : w.subject = .component schemaKind (schemaName config earlier source name))
  /-- The schemas of the source are no object, so none is taken from it. -/
  | unlisted (hnone : schemasOf source.document = [])

theorem isSome_schemaTokens?_of_follow {r : Renames} {x : FoundReference}
    (h : (schemaTokens? (r.follow x).target).isSome = true) :
    (schemaTokens? x.target).isSome = true := by
  by_cases hh : x.hidden = true
  · rw [Renames.follow_hidden r hh] at h
    exact h
  · rw [Renames.follow_visible r (by simpa using hh)] at h
    unfold Renames.retarget at h
    unfold schemaTokens? at h ⊢
    cases hs : Service.stripStart? referenceStart x.target with
    | none =>
      rw [hs] at h
      simp only [Option.bind_none] at h
      rw [hs] at h
      exact h
    | some rest => rfl

/-- Only a reference that went astray leads nowhere. -/
theorem resolves_of_not_astray {earlier later : List Source} {source : Source}
    (h : addAll config (earlier ++ source :: later) = .ok s)
    (hd : ∀ other ∈ earlier ++ source :: later, other.document.distinct = true)
    {x : FoundReference} (hx : (schemaTokens? x.target).isSome = true)
    (hr : source.document.resolves x.target = true)
    (hastray : ¬ Astray config earlier source s.warnings x) :
    (s.toDocument config).resolves ((renamesBehind config earlier source).follow x).target =
      true := by
  obtain ⟨all, hall⟩ := Option.isSome_iff_exists.1 hx
  cases all with
  | nil => exact absurd hall (schemaTokens?_ne_nil _)
  | cons name tokens =>
    have hlisted : schemasOf source.document ≠ [] := fun hnone => hastray (.unlisted hnone)
    have ho : ¬ s.Overrides schemaKind (schemaName config earlier source name) := by
      rintro ⟨w, hw, hsubject⟩
      exact hastray (.overridden name tokens hall w hw hsubject)
    have hnew : schemaTokens? ((renamesBehind config earlier source).follow x).target =
        some (schemaName config earlier source name :: tokens) := by
      by_contra hne
      exact hastray (.lost name tokens hall hne)
    obtain ⟨value, hvalue, hplace⟩ := exists_schema_of_resolves hall hr hlisted
    exact (resolves_toDocument_iff hnew).2 (exists_place_of_addAll h hd hvalue hplace ho)

/-! ## Plain names -/

/-- The text is one token of a pointer as it stands. -/
def PlainToken (text : String) : Prop := '/' ∉ text.toList ∧ '~' ∉ text.toList

/-- The name of the service and those of its schemas are tokens of pointers as they stand. -/
def PlainTokens (source : Source) : Prop :=
  PlainToken source.service ∧ ∀ m ∈ schemasOf source.document, PlainToken m.1

theorem plainToken_of_mem_keys {source : Source} (h : PlainTokens source) {name : String}
    (hn : name ∈ Entries.keys (schemasOf source.document)) : PlainToken name := by
  obtain ⟨m, hm, rfl⟩ := List.mem_map.1 hn
  exact h.2 m hm

theorem plainToken_namespaced {service name : String} (hs : PlainToken service)
    (hn : PlainToken name) : PlainToken (namespaced service name) := by
  obtain ⟨hs, hs'⟩ := hs
  obtain ⟨hn, hn'⟩ := hn
  simp [PlainToken, namespaced, String.toList_append, hs, hs', hn, hn']

theorem plainToken_schemaName {earlier : List Source} {source : Source} (h : PlainTokens source)
    {name : String} (hn : name ∈ Entries.keys (schemasOf source.document)) :
    PlainToken (schemaName config earlier source name) := by
  have hname : PlainToken name := plainToken_of_mem_keys h hn
  rw [schemaName]
  by_cases hr : name ∈ Entries.keys (renamesBehind config earlier source)
  · rw [(renamesOf_renamesBehind config earlier source).componentKey hr]
    exact plainToken_namespaced h.1 hname
  · rw [componentKey_of_not_mem hr]
    exact hname

theorem schemaTokens?_of_plain {name : String} (h : PlainToken name) :
    schemaTokens? (referenceStart ++ name) = some [name] := by
  rw [schemaTokens?_append, Json.tokensOf_toList h.1 h.2]

theorem follow_whole {earlier : List Source} {source : Source} {x : FoundReference} {name : String}
    (hvisible : x.hidden = false) (hwhole : x.target = referenceStart ++ name) :
    ((renamesBehind config earlier source).follow x).target =
      referenceStart ++ schemaName config earlier source name := by
  rw [Renames.follow_visible _ hvisible, hwhole]
  exact Renames.retarget_schema _ _

theorem follow_part {earlier : List Source} {source : Source} (h : PlainTokens source)
    {x : FoundReference} {name : String} {tokens : List String}
    (hx : schemaTokens? x.target = some (name :: tokens))
    (hpart : x.hidden = true ∨ x.target ≠ referenceStart ++ name) :
    ((renamesBehind config earlier source).follow x).target = x.target := by
  by_cases hh : x.hidden = true
  · rw [Renames.follow_hidden _ hh]
  · rw [Renames.follow_visible _ (by simpa using hh)]
    refine Renames.retarget_eq_self _ fun rest hrest => ?_
    by_contra hr
    have hkey : rest ∈ Entries.keys (renamesBehind config earlier source) := by
      by_contra hk
      exact hr ((Entries.get?_eq_none_iff _ _).2 hk)
    have hplain : PlainToken rest := plainToken_of_mem_keys h
      ((renamesOf_renamesBehind config earlier source).declared rest hkey)
    rw [hrest, schemaTokens?_of_plain hplain] at hx
    obtain ⟨rfl, -⟩ := List.cons.inj (Option.some.inj hx)
    exact hpart.resolve_left hh hrest

section Plain

variable {earlier later : List Source} {source : Source} {x : FoundReference} {name : String}
  {tokens : List String}

theorem resolves_follow_whole
    (h : addAll config (earlier ++ source :: later) = .ok s)
    (hd : ∀ other ∈ earlier ++ source :: later, other.document.distinct = true)
    (hplain : PlainTokens source) {m : String × Json} (hm : m ∈ schemasOf source.document)
    (ho : ¬ s.Overrides schemaKind (schemaName config earlier source m.1))
    (hvisible : x.hidden = false) (hwhole : x.target = referenceStart ++ m.1) :
    (s.toDocument config).resolves ((renamesBehind config earlier source).follow x).target =
      true := by
  have hnew : schemaTokens? (referenceStart ++ schemaName config earlier source m.1) =
      some [schemaName config earlier source m.1] :=
    schemaTokens?_of_plain (plainToken_schemaName hplain (Entries.mem_keys_of_mem hm))
  rw [follow_whole hvisible hwhole, resolves_toDocument_iff hnew]
  exact exists_place_of_addAll h hd hm rfl ho

/-- Any other reference leads nowhere when its schema is renamed and what stands under the old name lacks
the place. -/
theorem dangling_part_iff
    (h : addAll config (earlier ++ source :: later) = .ok s)
    (hd : ∀ other ∈ earlier ++ source :: later, other.document.distinct = true)
    (hplain : PlainTokens source) (hx : schemaTokens? x.target = some (name :: tokens))
    (hlisted : schemasOf source.document ≠ []) (hr : source.document.resolves x.target = true)
    (ho : ¬ s.Overrides schemaKind (schemaName config earlier source name))
    (hpart : x.hidden = true ∨ x.target ≠ referenceStart ++ name) :
    (s.toDocument config).resolves ((renamesBehind config earlier source).follow x).target = false ↔
      name ∈ Entries.keys (renamesBehind config earlier source) ∧
      ∀ stored, s.component? schemaKind name = some stored → stored.descend? tokens = none := by
  -- such a reference keeps the old name, which is still that of its schema unless it is renamed
  rw [follow_part hplain hx hpart, ← Bool.not_eq_true, resolves_toDocument_iff hx]
  by_cases hrenamed : name ∈ Entries.keys (renamesBehind config earlier source)
  · simp only [hrenamed, true_and]
    constructor
    · intro hnone stored hstored
      cases hp : stored.descend? tokens with
      | none => rfl
      | some place => exact absurd ⟨stored, place, hstored, hp⟩ hnone
    · rintro hnone ⟨stored, place, hstored, hp⟩
      rw [hnone stored hstored] at hp
      cases hp
  · obtain ⟨value, hvalue, hplace⟩ := exists_schema_of_resolves hx hr hlisted
    have hfound := exists_place_of_addAll h hd hvalue hplace ho
    rw [schemaName, componentKey_of_not_mem hrenamed] at hfound
    simp only [hrenamed, false_and, iff_false, not_not]
    exact hfound

/-- With plain names, a reference leads nowhere exactly when its schema is renamed, it is not one to the
schema as a whole that redirecting sees, and what stands under the old name lacks the place. -/
theorem dangling_iff_of_plain
    (h : addAll config (earlier ++ source :: later) = .ok s)
    (hd : ∀ other ∈ earlier ++ source :: later, other.document.distinct = true)
    (hservices : ((earlier ++ source :: later).map (·.service)).Nodup)
    (hnames : ∀ other ∈ earlier ++ source :: later, PlainNames other)
    (hplain : PlainTokens source) (hx : schemaTokens? x.target = some (name :: tokens))
    (hname : name ∈ Entries.keys (schemasOf source.document))
    (hr : source.document.resolves x.target = true) :
    (s.toDocument config).resolves ((renamesBehind config earlier source).follow x).target = false ↔
      name ∈ Entries.keys (renamesBehind config earlier source) ∧
      (x.hidden = true ∨ x.target ≠ referenceStart ++ name) ∧
      ∀ stored, s.component? schemaKind name = some stored → stored.descend? tokens = none := by
  have hno := not_overrides_schema h hd hservices hnames
  obtain ⟨m, hm, rfl⟩ := List.mem_map.1 hname
  by_cases hpart : x.hidden = true ∨ x.target ≠ referenceStart ++ m.1
  · rw [dangling_part_iff h hd hplain hx (List.ne_nil_of_mem hm) hr (hno _) hpart]
    simp only [hpart, true_and]
  · have hvisible : x.hidden = false := by
      simpa using (not_or.1 hpart).1
    have hwhole : x.target = referenceStart ++ m.1 := by
      simpa using (not_or.1 hpart).2
    rw [resolves_follow_whole h hd hplain hm (hno _) hvisible hwhole]
    simp [hpart]

end Plain

/-! ### Schemas that are never merged -/

theorem mem_keys_renamesBehind_of_not_merge {earlier later : List Source} {source : Source}
    (h : addAll config (earlier ++ source :: later) = .ok s) (hm : config.mergeSchemas = false)
    {name : String} (hname : name ∈ Entries.keys (schemasOf source.document)) :
    name ∈ Entries.keys (renamesBehind config earlier source) := by
  obtain ⟨before, after, hb, ha, -⟩ := addAll_split h
  obtain ⟨decided, -, -, hd, -⟩ := add_behind hb ha
  rw [← Entries.get?_isSome_iff, get?_schemaRenames_of_not_merge hm hd hname]
  rfl

theorem component?_eq_none_of_not_merge {sources : List Source}
    (h : addAll config sources = .ok s) (hm : config.mergeSchemas = false)
    (hd : ∀ source ∈ sources, source.document.distinct = true) {name : String}
    (hdot : '.' ∉ name.toList) : s.component? schemaKind name = none := by
  cases hc : s.component? schemaKind name with
  | none => rfl
  | some stored =>
    obtain ⟨earlier, source, later, rfl, hw⟩ := origin_of_addAll h hc
    obtain ⟨m, hm', hname, -⟩ := (mem_writesBehind_schema (hd source (by simp))).1 hw
    have hr := mem_keys_renamesBehind_of_not_merge h hm (Entries.mem_keys_of_mem hm')
    rw [schemaName, (renamesOf_renamesBehind config earlier source).componentKey hr] at hname
    rw [← hname] at hdot
    exact absurd (dot_mem_namespaced _ _) hdot

/-! ### The main statement -/

/-- Services differ, and their names and those of their schemas are nothing but names. -/
structure PlainSources (sources : List Source) : Prop where
  services : (sources.map (·.service)).Nodup
  names : ∀ source ∈ sources, PlainNames source
  tokens : ∀ source ∈ sources, PlainTokens source

/-- Which references to schemas lead nowhere in a combined document. -/
structure DanglesWhenAstray (config : CombineConfig) (sources : List Source)
    (warnings : List Conflict) (document : Json) : Prop where
  /-- Those that went astray, and find nothing else where they point. -/
  iff : ∀ target ∈ document.targets, ∀ name tokens, schemaTokens? target = some (name :: tokens) →
    (document.resolves target = false ↔
      (∃ earlier source later x, sources = earlier ++ source :: later ∧
        x ∈ source.document.references ∧
        ((renamesBehind config earlier source).follow x).target = target ∧
        Astray config earlier source warnings x) ∧
      ∀ stored, Source.lookup? document ["components", schemaKind, name] = some stored →
        stored.descend? tokens = none)
  /-- With plain names, those to a renamed schema that are not seen or are to a part of it, which
  what stands under the old name lacks. -/
  plain : PlainSources sources → ∀ earlier source later, sources = earlier ++ source :: later →
    ∀ x ∈ source.document.references, ∀ name tokens, schemaTokens? x.target = some (name :: tokens) →
      name ∈ Entries.keys (schemasOf source.document) →
      (document.resolves ((renamesBehind config earlier source).follow x).target = false ↔
        name ∈ Entries.keys (renamesBehind config earlier source) ∧
        (x.hidden = true ∨ x.target ≠ referenceStart ++ name) ∧
        ∀ stored, Source.lookup? document ["components", schemaKind, name] = some stored →
          stored.descend? tokens = none)
  /-- Without merging, all that are not seen or are to a part of a schema. -/
  separate : config.mergeSchemas = false → PlainSources sources →
    ∀ earlier source later, sources = earlier ++ source :: later →
    ∀ x ∈ source.document.references, ∀ name tokens, schemaTokens? x.target = some (name :: tokens) →
      name ∈ Entries.keys (schemasOf source.document) →
      (document.resolves ((renamesBehind config earlier source).follow x).target = false ↔
        x.hidden = true ∨ x.target ≠ referenceStart ++ name)

/-- A reference of the combined document that leads nowhere is one that went astray. -/
theorem astray_of_dangling {sources : List Source} (h : addAll config sources = .ok s)
    (hd : ∀ source ∈ sources, source.document.distinct = true)
    (hr : ∀ source ∈ sources, ∀ x ∈ source.document.references,
      (schemaTokens? x.target).isSome = true → source.document.resolves x.target = true)
    {target : String} (ht : target ∈ (s.toDocument config).targets)
    (hschema : (schemaTokens? target).isSome = true)
    (hdangling : (s.toDocument config).resolves target = false) :
    ∃ earlier source later x, sources = earlier ++ source :: later ∧
      x ∈ source.document.references ∧
      ((renamesBehind config earlier source).follow x).target = target ∧
      Astray config earlier source s.warnings x := by
  obtain ⟨earlier, source, later, rfl, hsettled⟩ := fromSource_of_mem_targets h ht
  obtain ⟨x, hx, rfl⟩ := Renames.mem_targets_redirect.1 hsettled
  refine ⟨earlier, source, later, x, rfl, hx, rfl, ?_⟩
  by_contra hastray
  have hxschema : (schemaTokens? x.target).isSome = true := isSome_schemaTokens?_of_follow hschema
  have hleads := resolves_of_not_astray h hd hxschema (hr source (by simp) x hx hxschema) hastray
  rw [hdangling] at hleads
  cases hleads

theorem danglesWhenAstray_toDocument {sources : List Source} (h : addAll config sources = .ok s)
    (hd : ∀ source ∈ sources, source.document.distinct = true)
    (hr : ∀ source ∈ sources, ∀ x ∈ source.document.references,
      (schemaTokens? x.target).isSome = true → source.document.resolves x.target = true) :
    DanglesWhenAstray config sources s.warnings (s.toDocument config) := by
  have hplain : PlainSources sources → ∀ earlier source later, sources = earlier ++ source :: later →
      ∀ x ∈ source.document.references, ∀ name tokens, schemaTokens? x.target = some (name :: tokens) →
        name ∈ Entries.keys (schemasOf source.document) →
        ((s.toDocument config).resolves ((renamesBehind config earlier source).follow x).target =
            false ↔
          name ∈ Entries.keys (renamesBehind config earlier source) ∧
          (x.hidden = true ∨ x.target ≠ referenceStart ++ name) ∧
          ∀ stored, s.component? schemaKind name = some stored → stored.descend? tokens = none) := by
    rintro hp earlier source later rfl x hx name tokens htokens hname
    have hsource : source ∈ earlier ++ source :: later := by simp
    exact dangling_iff_of_plain h hd hp.services hp.names (hp.tokens source hsource) htokens hname
      (hr source hsource x hx (by rw [htokens]; rfl))
  refine ⟨?_, ?_, ?_⟩
  · intro target ht name tokens htokens
    simp only [lookup?_components_toDocument]
    constructor
    · intro hdangling
      refine ⟨astray_of_dangling h hd hr ht (by rw [htokens]; rfl) hdangling, ?_⟩
      rw [← Bool.not_eq_true, resolves_toDocument_iff htokens] at hdangling
      intro stored hstored
      cases hplace : stored.descend? tokens with
      | none => rfl
      | some place => exact absurd ⟨stored, place, hstored, hplace⟩ hdangling
    · rintro ⟨-, hnone⟩
      rw [← Bool.not_eq_true, resolves_toDocument_iff htokens]
      rintro ⟨stored, place, hstored, hplace⟩
      rw [hnone stored hstored] at hplace
      cases hplace
  · simp only [lookup?_components_toDocument]
    exact hplain
  · intro hm hp earlier source later hsources x hx name tokens htokens hname
    have hsource : source ∈ sources := by simp [hsources]
    have hrenamed : name ∈ Entries.keys (renamesBehind config earlier source) :=
      mem_keys_renamesBehind_of_not_merge (hsources ▸ h) hm hname
    have hfree : s.component? schemaKind name = none := by
      obtain ⟨m, hmem, rfl⟩ := List.mem_map.1 hname
      exact component?_eq_none_of_not_merge h hm hd (hp.names source hsource m hmem).1
    rw [hplain hp earlier source later hsources x hx name tokens htokens hname]
    simp [hrenamed, hfree]

end MergeState

/-- When every reference to a schema leads somewhere in its own document, those that lead nowhere in the
combined document are the ones that went astray. -/
theorem combine_dangles_iff_astray (c : Combiner) (hne : c.sources ≠ [])
    (hs : c.config.conflictStrategy = .override)
    (hd : ∀ source ∈ c.sources, source.document.distinct = true)
    (hr : ∀ source ∈ c.sources, ∀ target ∈ source.document.targets,
      (schemaTokens? target).isSome = true → source.document.resolves target = true) :
    ∃ document, c.combine.2 = .ok document ∧
      MergeState.DanglesWhenAstray c.config c.sources c.combine.1.warnings document := by
  have hstrategy : c.config.conflictStrategy ≠ .error := by simp [hs]
  obtain ⟨s, h⟩ := MergeState.exists_addAll_ok hstrategy c.sources
  rw [Combiner.combine_eq hne h]
  refine ⟨s.toDocument c.config, rfl, MergeState.danglesWhenAstray_toDocument h hd ?_⟩
  intro source hsource x hx
  exact hr source hsource x.target (List.mem_map.2 ⟨x, hx, rfl⟩)

/-- A service with an order that refers to a part of its user. -/
def partOfUser : Combiner where
  config := { mergeSchemas := false }
  sources :=
    let user : Json := .object [("properties", .object [("id", .object [("type", .string "string")])])]
    let order : Json := .object [("properties", .object
      [("buyer", .object [("$ref", .string "#/components/schemas/User/properties/id")])])]
    let schemas : Json := .object [("User", user), ("Order", order)]
    [{ service := "shop", document := .object [("components", .object [("schemas", schemas)])] }]

theorem combine_dangles_iff_astray_partOfUser :
    partOfUser.sources ≠ [] ∧ partOfUser.config.conflictStrategy = .override ∧
      (∀ source ∈ partOfUser.sources, source.document.distinct = true) ∧
      (∀ source ∈ partOfUser.sources, ∀ target ∈ source.document.targets,
        (schemaTokens? target).isSome = true → source.document.resolves target = true) ∧
      ∃ document, partOfUser.combine.2 = .ok document ∧
        MergeState.DanglesWhenAstray partOfUser.config partOfUser.sources
          partOfUser.combine.1.warnings document := by
  have hne : partOfUser.sources ≠ [] := by simp [partOfUser]
  have hd : ∀ source ∈ partOfUser.sources, source.document.distinct = true := by decide
  have hr : ∀ source ∈ partOfUser.sources, ∀ target ∈ source.document.targets,
      (schemaTokens? target).isSome = true → source.document.resolves target = true := by decide
  exact ⟨hne, rfl, hd, hr, combine_dangles_iff_astray partOfUser hne rfl hd hr⟩

/-- The reference leads to the part of the user in the document of the service, and nowhere in the combined
one. -/
theorem partOfUser_dangles :
    partOfUser.config.check = .ok () ∧ partOfUser.config.conflictStrategy = .override ∧
    (∀ source ∈ partOfUser.sources, ∀ target ∈ source.document.targets,
      (schemaTokens? target).isSome = true → source.document.resolves target = true) ∧
    ∃ document, partOfUser.combine.2 = .ok document ∧
      "#/components/schemas/User/properties/id" ∈ document.targets ∧
      document.resolves "#/components/schemas/User/properties/id" = false := by
  exact ⟨rfl, rfl, by decide, _, rfl, by decide, by decide⟩

end ApiDescription
