import ApiDescription.Proofs.Schema.Consistent
import ApiDescription.Proofs.Schema.Written

/-!
# Written schemas are well formed

What a written schema looks like follows from the node that it was written for (`wellFormed`), so it is told of all
schemas in the written form of a checked one (`wellFormed_of_check`). There is one exception: the type of null is
listed twice when null is allowed beside it (`not_nodup_types_of_check`).
-/

set_option autoImplicit false

namespace ApiDescription.Schema

/-- The written form of a schema has the shape that documents ask for. -/
structure WellFormed (s : Schema) (j : Json) : Prop where
  /-- No type is listed twice, but null for schemas of null itself. -/
  types : ∀ ts, j.get? "type" = some (.array ts) → (ts.Nodup ↔ s.kind ≠ .primitive .null)
  properties : j.get? "properties" = Json.nonEmpty? (Json.mapOf toJson) s.ownProperties
  /-- The required properties are listed in the order of the properties. -/
  required : j.get? "required" = Json.nonEmpty? (Json.listOf .string) (requiredNames s.ownProperties)
  once : ∀ names, j.get? "required" = some (.array names) → names.Nodup
  declared : ∀ names, j.get? "required" = some (.array names) →
    ∃ ps, j.get? "properties" = some (.object ps) ∧ ∀ n ∈ names, ∃ p ∈ ps, n = .string p.1
  untyped : (∃ name ∈ ["oneOf", "allOf", "anyOf", "not"], (j.get? name).isSome = true) → j.get? "type" = none
  filled : ∀ name ∈ ["oneOf", "allOf", "anyOf", "enum"], j.get? name ≠ some (.array [])
  items : (j.get? "items").isSome = true ↔ j.get? "type" = some (.string "array") ∨
    ∃ ts, j.get? "type" = some (.array ts) ∧ .string "array" ∈ ts

variable {s : Schema}

/-! ## The type -/

theorem toJson_typesOf (f : Facets) (t : SchemaType) : (typesOf f t).toJson =
    if f.nullable then .array [.string t.name, .string "null"] else .string t.name := by
  unfold typesOf
  split <;> rfl

theorem get?_type_eq (s : Schema) : s.toJson.get? "type" = s.type?.map fun t =>
    if s.facets.nullable then .array [.string t.name, .string "null"] else .string t.name := by
  rw [get?_type, types?, Option.map_map]
  exact congrArg (s.type?.map ·) (funext (toJson_typesOf s.facets))

theorem type?_eq_null_iff : s.type? = some .null ↔ s.kind = .primitive .null := by
  cases s with
  | primitive f t => cases t <;> simp [type?, kind, PrimitiveType.schemaType]
  | _ => simp [type?, kind]

theorem type?_eq_array_iff : s.type? = some .array ↔ s.item?.isSome = true := by
  cases s with
  | primitive f t => cases t <;> simp [type?, item?, PrimitiveType.schemaType]
  | _ => simp [type?, item?]

theorem nodup_types {ts : List Json} (h : s.toJson.get? "type" = some (.array ts)) :
    ts.Nodup ↔ s.kind ≠ .primitive .null := by
  rw [get?_type_eq, Option.map_eq_some_iff] at h
  obtain ⟨t, ht, hts⟩ := h
  rw [ne_eq, ← type?_eq_null_iff, ht]
  split at hts
  · cases hts
    cases t <;> simp [SchemaType.name]
  · nomatch hts

theorem isSome_items_iff : (s.toJson.get? "items").isSome = true ↔
    s.toJson.get? "type" = some (.string "array") ∨
      ∃ ts, s.toJson.get? "type" = some (.array ts) ∧ .string "array" ∈ ts := by
  have hname (t : SchemaType) : "array" = t.name ↔ t = .array := by cases t <;> decide
  rw [get?_items, Option.isSome_map, ← type?_eq_array_iff, get?_type_eq]
  cases s.type? with
  | none => simp
  | some t => cases s.facets.nullable <;> simp [hname, eq_comm (a := t.name)]

theorem get?_type_of_composed (h : s.kind = .composition) : s.toJson.get? "type" = none := by
  rw [get?_type_eq]
  cases s with
  | composition => rfl
  | _ => nomatch h

/-! ## The lists -/

theorem nodup_requiredNames {ps : List (String × Schema)} (h : (Entries.keys ps).Nodup) :
    (requiredNames ps).Nodup :=
  h.sublist (List.filter_sublist.map Prod.fst)

theorem kind_of_members_ne_nil {k : ListKeyword} (h : s.members k ≠ []) : s.kind = .composition := by
  cases s with
  | composition => rfl
  | _ => exact absurd rfl h

theorem kind_of_negated? {c : Schema} (h : s.negated? = some c) : s.kind = .composition := by
  cases s with
  | composition => rfl
  | _ => nomatch h

theorem get?_enum (h : s.kind ≠ .reference) : s.toJson.get? "enum" = s.facets.enumeration.map .array :=
  get?_toJson h (f := ("enum", s.facets.enumeration.map .array)) (by simp [SchemaObject.fields, written, keywordsOf])

/-- The keywords of a composition stand in the written forms of compositions alone. -/
theorem kind_of_composed {name : String} (hname : name ∈ ["oneOf", "allOf", "anyOf", "not"])
    (h : (s.toJson.get? name).isSome = true) : s.kind = .composition := by
  have members (keyword : ListKeyword) (h : (s.toJson.get? keyword.name).isSome = true) : s.kind = .composition := by
    rw [get?_members] at h
    have hmembers : s.members keyword ≠ [] := by
      intro hnil
      rw [hnil] at h
      nomatch h
    exact kind_of_members_ne_nil hmembers
  simp only [List.mem_cons, List.not_mem_nil, or_false] at hname
  obtain rfl | rfl | rfl | rfl := hname
  · exact members .oneOf h
  · exact members .allOf h
  · exact members .anyOf h
  · rw [get?_not, Option.isSome_map, Option.isSome_iff_exists] at h
    obtain ⟨c, hc⟩ := h
    exact kind_of_negated? hc

/-- No list of schemas and no list of values is written when it is empty. -/
theorem get?_ne_empty (henumeration : s.facets.enumeration ≠ some []) {name : String}
    (hname : name ∈ ["oneOf", "allOf", "anyOf", "enum"]) : s.toJson.get? name ≠ some (.array []) := by
  have members (keyword : ListKeyword) : s.toJson.get? keyword.name ≠ some (.array []) := by
    rw [get?_members]
    cases s.members keyword <;> simp [Json.nonEmpty?, Json.listOf]
  simp only [List.mem_cons, List.not_mem_nil, or_false] at hname
  obtain rfl | rfl | rfl | rfl := hname
  · exact members .oneOf
  · exact members .allOf
  · exact members .anyOf
  · by_cases h : s.kind = .reference
    · simp [get?_toJson_reference h]
    · rw [get?_enum h]
      intro hempty
      obtain ⟨values, hvalues, hnil⟩ := Option.map_eq_some_iff.1 hempty
      cases hnil
      exact henumeration hvalues

/-! ## Well-formed schemas -/

theorem wellFormed (hkeys : (Entries.keys s.ownProperties).Nodup) (henumeration : s.facets.enumeration ≠ some []) :
    WellFormed s s.toJson where
  types _ := nodup_types
  properties := get?_properties s
  required := get?_required s
  once names hnames := by
    rw [get?_required, Json.nonEmpty?_eq_some_iff] at hnames
    obtain ⟨-, heq⟩ := hnames
    cases heq
    exact (nodup_requiredNames hkeys).map fun _ _ => Json.string.inj
  declared names hnames := by
    rw [get?_required, Json.nonEmpty?_eq_some_iff] at hnames
    obtain ⟨hne, heq⟩ := hnames
    cases heq
    have hps : s.ownProperties ≠ [] := fun hnil => hne (by rw [hnil]; rfl)
    refine ⟨_, (get?_properties s).trans (Json.nonEmpty?_eq_some_iff.2 ⟨hps, rfl⟩), fun n hn => ?_⟩
    obtain ⟨name, hname, rfl⟩ := List.mem_map.1 hn
    obtain ⟨p, hp, rfl⟩ := List.mem_map.1 hname
    exact ⟨_, List.mem_map_of_mem (List.mem_filter.1 hp).1, rfl⟩
  untyped h := by
    obtain ⟨name, hname, hsome⟩ := h
    exact get?_type_of_composed (kind_of_composed hname hsome)
  filled _ := get?_ne_empty henumeration
  items := isSome_items_iff

/-- Whatever stands in the written form of a checked schema, at any depth, is the written form of a node, and well
formed. -/
theorem wellFormed_of_check [PatternReader] (hs : Built s) (h : s.check = .ok ()) {place : List SchemaStep} {j : Json}
    (hj : s.toJson.schemaAt? place = some j) : ∃ t, s.Node place t ∧ t.toJson = j ∧ WellFormed t j := by
  obtain ⟨t, ht, rfl⟩ := (hs.schemaAt?_toJson h).1 hj
  obtain ⟨hbuilt, hfaults⟩ := hs.of_node h ht
  exact ⟨t, ht, rfl, wellFormed hbuilt.nodup_ownProperties (hbuilt.consistent hfaults).enumeration⟩

attribute [local instance] PatternReader.lenient

/-- A list of pairs, one of which is required, that may be missing altogether. -/
theorem wellFormed_of_check_pairs :
    let flag := (Schema.primitive {} .boolean).refine .required
    let pair := ofProperties [("left", string), ("right", flag)]
    let pairs := (Schema.array {} pair).refine .nullable
    Built pairs ∧ pairs.check = .ok () ∧ pairs.toJson.schemaAt? [.items] = some pair.toJson ∧
      pair.toJson.get? "required" = some (.array [.string "right"]) ∧
      ∃ t, pairs.Node [.items] t ∧ t.toJson = pair.toJson ∧ WellFormed t pair.toJson := by
  intro flag pair pairs
  have hflag : Built flag := .refine (.primitive .boolean) trivial (by simp [Refinement.schemas])
  have hpair : Built pair := .fresh (.object _) (by simpa using ⟨Built.primitive .string, hflag⟩)
  have hpairs : Built pairs :=
    .refine (.fresh (.array pair) (by simpa using hpair)) trivial (by simp [Refinement.schemas])
  have hcheck : pairs.check = .ok () := by decide +kernel
  have hplace : pairs.toJson.schemaAt? [.items] = some pair.toJson :=
    (hpairs.schemaAt?_toJson hcheck).2 ⟨pair, .inside (c := pair) (.head _) (.root pair), rfl⟩
  have hrequired : pair.toJson.get? "required" = some (.array [.string "right"]) := by
    rw [get?_required]
    simp [pair, flag, ofProperties, Entries.ofList, Entries.put, ownProperties, properties?, requiredNames, refine,
      setPresence, facets, mapFacets, string, Json.nonEmpty?, Json.listOf]
  exact ⟨hpairs, hcheck, hplace, hrequired, wellFormed_of_check hpairs hcheck hplace⟩

/-- The type of null is written twice when null is allowed in addition to it. -/
theorem not_nodup_types_of_check : ¬ ∀ s : Schema, Built s → s.check = .ok () → ∀ place j ts,
    s.toJson.schemaAt? place = some j → j.get? "type" = some (.array ts) → ts.Nodup := by
  intro h
  let s := (Schema.primitive {} .null).refine .nullable
  have hs : Built s := .refine (.primitive .null) trivial (by simp [Refinement.schemas])
  have htypes : s.toJson.get? "type" = some (.array [.string "null", .string "null"]) := rfl
  have hnodup := h s hs (by decide +kernel) [] s.toJson _ rfl htypes
  simp at hnodup

end ApiDescription.Schema
