import ApiDescription.Proofs.Document.SchemaObject
import ApiDescription.Proofs.Schema.Attribute
import ApiDescription.Proofs.Schema.Properties
import ApiDescription.Schema.Written

/-!
# The members of written schemas

A schema that is no reference is written member by member, from its facets, its type and the schemas inside it
(`get?_toJson`). The schemas inside it are found in the written form at the same places: what stands at a place is the
written form of a node there (`schemaAt?_toJson`).
-/

set_option autoImplicit false

namespace ApiDescription

/-- The value that a document gives for a limit, if it can give one. -/
def Limit.json? : Limit → Option Json
  | .minLength n | .maxLength n | .minItems n | .maxItems n | .minProperties n | .maxProperties n =>
    some (SchemaObject.countJson n)
  | .pattern text => some (.string text)
  | .format f => some (.string f.tag)
  | .minimum b | .maximum b | .exclusiveMinimum b | .exclusiveMaximum b | .multipleOf b => b.toNumber?.map .number
  | .uniqueItems => some (.bool true)
  | .additionalProperties allowed => some (.bool allowed)

/-! ## Parts of written lists and maps -/

namespace Json

variable {α : Type}

theorem getElem?_nonEmpty?_listOf (write : α → Json) (xs : List α) (index : Nat) :
    ((nonEmpty? (listOf write) xs).bind items?).bind (·[index]?) = xs[index]?.map write := by
  cases xs with
  | nil => rfl
  | cons x xs => exact List.getElem?_map

theorem get?_nonEmpty?_mapOf (write : α → Json) (es : List (String × α)) (key : String) :
    (nonEmpty? (mapOf write) es).bind (·.get? key) = (Entries.get? es key).map write := by
  cases es with
  | nil => rfl
  | cons e es => exact Entries.get?_mapValues write (e :: es) key

theorem nonEmpty?_map {β : Type} (f : α → β) (write : β → Json) (xs : List α) :
    nonEmpty? (listOf write) (xs.map f) = nonEmpty? (listOf (write ∘ f)) xs := by
  cases xs with
  | nil => rfl
  | cons x xs => exact congrArg (fun js => some (array js)) (List.map_map (l := x :: xs))

theorem nonEmpty?_mapValues {β : Type} (f : α → β) (write : β → Json) (es : List (String × α)) :
    nonEmpty? (mapOf write) (Entries.mapValues f es) = nonEmpty? (mapOf (write ∘ f)) es := by
  cases es with
  | nil => rfl
  | cons e es => exact congrArg (fun ms => some (object ms)) (List.map_map (l := e :: es))

theorem nonEmpty?_eq_some_iff {write : List α → Json} {xs : List α} {j : Json} :
    nonEmpty? write xs = some j ↔ xs ≠ [] ∧ write xs = j := by
  cases xs <;> simp [nonEmpty?]

end Json

/-- A field of a schema object is found under its name. -/
theorem SchemaObject.get?_toJson {o : SchemaObject} {f : String × Option Json} (hf : f ∈ o.fields) :
    o.toJson.get? f.1 = f.2 := by
  rw [toJson_eq]
  exact Json.get?_present (keys_fields o ▸ nodup_names.1) hf

namespace Schema

/-! ## The parts of a schema -/

/-- The type of the values of the schema, if it has one. -/
def type? : Schema → Option SchemaType
  | .primitive _ t => some t.schemaType
  | .array _ _ => some .array
  | .object _ _ => some .object
  | .composition _ _ _ _ _ | .reference _ _ => none

/-- The type that a document gives for the schema, if it gives one. -/
def types? (s : Schema) : Option SchemaTypes := s.type?.map (typesOf s.facets)

/-- The schema of the items, if the schema is an array. -/
def item? : Schema → Option Schema
  | .array _ item => some item
  | _ => none

/-- The properties, which no schema but an object has. -/
def ownProperties (s : Schema) : List (String × Schema) := s.properties?.getD []

/-- The schemas under a keyword of a composition, none for other schemas. -/
def members (keyword : ListKeyword) : Schema → List Schema
  | .composition _ one all any _ =>
    match keyword with
    | .oneOf => one
    | .allOf => all
    | .anyOf => any
  | _ => []

/-- The schema that values must not match, if the schema is a composition with one. -/
def negated? : Schema → Option Schema
  | .composition _ _ _ _ n => n
  | _ => none

variable {s : Schema}

theorem membersFrom_eq (keyword : String) (start : Nat) (ss : List Schema) :
    membersFrom keyword start ss = (ss.zipIdx start).map fun c => (.member keyword c.2, c.1) := by
  induction ss generalizing start with
  | nil => rfl
  | cons s ss ih => rw [membersFrom, ih, List.zipIdx_cons, List.map_cons]

theorem mem_membersFrom_iff {keyword : String} {ss : List Schema} {step : SchemaStep} {c : Schema} :
    (step, c) ∈ membersFrom keyword 0 ss ↔ ∃ index, step = .member keyword index ∧ ss[index]? = some c := by
  simp only [membersFrom_eq, List.mem_map, Prod.mk.injEq]
  constructor
  · rintro ⟨⟨d, index⟩, hd, rfl, rfl⟩
    exact ⟨index, rfl, List.mem_zipIdx_iff_getElem?.1 hd⟩
  · rintro ⟨index, rfl, hc⟩
    exact ⟨(c, index), List.mem_zipIdx_iff_getElem?.2 hc, rfl, rfl⟩

theorem items_mem_children_iff {c : Schema} : (.items, c) ∈ s.children ↔ s.item? = some c := by
  cases s with
  | array f item => simp [children, item?, eq_comm]
  | composition f one all any n => simp [children, item?, mem_membersFrom_iff]
  | _ => simp [children, item?]

theorem property_mem_children_iff {name : String} {c : Schema} :
    (.property name, c) ∈ s.children ↔ (name, c) ∈ s.ownProperties := by
  cases s with
  | object f ps => simp [children, ownProperties, properties?]
  | composition f one all any n => simp [children, ownProperties, properties?, mem_membersFrom_iff]
  | _ => simp [children, ownProperties, properties?]

theorem member_mem_children_iff {name : String} {index : Nat} {c : Schema} :
    (.member name index, c) ∈ s.children ↔ (∃ keyword : ListKeyword, name = keyword.name ∧
      (s.members keyword)[index]? = some c) ∨ name = "not" ∧ index = 0 ∧ s.negated? = some c := by
  have hkeywords {P : ListKeyword → Prop} : (∃ k, P k) ↔ (P .oneOf ∨ P .allOf) ∨ P .anyOf := by
    constructor
    · rintro ⟨k, hk⟩
      cases k <;> simp [hk]
    · rintro ((h | h) | h) <;> exact ⟨_, h⟩
  cases s with
  | composition f one all any n =>
    simp only [children, List.mem_append, mem_membersFrom_iff, hkeywords, members, negated?, ListKeyword.name]
    cases n <;> simp [and_assoc, eq_comm]
  | _ => simp [children, members, negated?]

/-! ## The written form -/

/-- The schema of a document with the facets and the parts of the schema. -/
def written (s : Schema) : SchemaObject :=
  .mk (keywordsOf s.facets s.types? (requiredNames s.ownProperties)) (propertiesToObjects s.ownProperties)
    (s.item?.map toObject) (toObjects (s.members .oneOf)) (toObjects (s.members .allOf))
    (toObjects (s.members .anyOf)) (negatedToObject s.negated?)

theorem toJson_eq (h : s.kind ≠ .reference) : s.toJson = s.written.toJson := by
  cases s with
  | reference => exact absurd rfl h
  | _ => simp [toJson, toObject, SchemaObject.refToJson, written, facets, types?, type?, item?, ownProperties,
      properties?, members, negated?, requiredNames, propertiesToObjects, toObjects, negatedToObject]

/-- A member of a written schema that is no reference. -/
theorem get?_toJson (h : s.kind ≠ .reference) {f : String × Option Json} (hf : f ∈ s.written.fields) :
    s.toJson.get? f.1 = f.2 := by
  rw [toJson_eq h]
  exact SchemaObject.get?_toJson hf

/-- Nothing but the target of a reference is written. -/
theorem get?_toJson_reference (h : s.kind = .reference) {name : String} (hname : "$ref" ≠ name) :
    s.toJson.get? name = none := by
  cases s with
  | reference f target => exact if_neg hname
  | _ => nomatch h

theorem propertiesToObjects_eq (ps : List (String × Schema)) :
    propertiesToObjects ps = Entries.mapValues toObject ps := by
  induction ps with
  | nil => rfl
  | cons p ps ih =>
    rw [propertiesToObjects, ih]
    rfl

theorem toObjects_eq (ss : List Schema) : toObjects ss = ss.map toObject := by
  induction ss with
  | nil => rfl
  | cons s ss ih => rw [toObjects, ih, List.map_cons]

theorem negatedToObject_eq (n : Option Schema) : negatedToObject n = n.map toObject := by
  cases n <;> rfl

theorem refToJson_comp_toObject : SchemaObject.refToJson ∘ toObject = toJson := rfl

/-- A part that references do not have is found in their written form as well: it is missing there. -/
theorem get?_part {name : String} {o : Option Json} (hname : "$ref" ≠ name)
    (hreference : ∀ f target, s = .reference f target → o = none) (hf : (name, o) ∈ s.written.fields) :
    s.toJson.get? name = o := by
  by_cases h : s.kind = .reference
  · have hnone : o = none := by
      cases s with
      | reference f target => exact hreference f target rfl
      | _ => nomatch h
    rw [get?_toJson_reference h hname, hnone]
  · exact get?_toJson h hf

theorem get?_type (s : Schema) : s.toJson.get? "type" = s.types?.map SchemaTypes.toJson :=
  get?_part (by decide) (by rintro _ _ rfl; rfl) (by simp [SchemaObject.fields, written, keywordsOf])

theorem get?_items (s : Schema) : s.toJson.get? "items" = s.item?.map toJson :=
  get?_part (by decide) (by rintro _ _ rfl; rfl) (by simp [SchemaObject.fields, written, refToJson_comp_toObject])

theorem get?_properties (s : Schema) :
    s.toJson.get? "properties" = Json.nonEmpty? (Json.mapOf toJson) s.ownProperties :=
  get?_part (by decide) (by rintro _ _ rfl; rfl) (by
    simp [SchemaObject.fields, written, propertiesToObjects_eq, Json.nonEmpty?_mapValues, refToJson_comp_toObject])

theorem get?_required (s : Schema) :
    s.toJson.get? "required" = Json.nonEmpty? (Json.listOf .string) (requiredNames s.ownProperties) :=
  get?_part (by decide) (by rintro _ _ rfl; rfl) (by simp [SchemaObject.fields, written, keywordsOf])

theorem get?_members (s : Schema) (keyword : ListKeyword) :
    s.toJson.get? keyword.name = Json.nonEmpty? (Json.listOf toJson) (s.members keyword) := by
  refine get?_part ?_ (by rintro _ _ rfl; rfl) ?_
  · cases keyword <;> decide
  · rw [← refToJson_comp_toObject, ← Json.nonEmpty?_map]
    cases keyword <;> simp [SchemaObject.fields, written, ListKeyword.name, toObjects_eq]

theorem get?_not (s : Schema) : s.toJson.get? "not" = s.negated?.map toJson :=
  get?_part (by decide) (by rintro _ _ rfl; rfl)
    (by simp [SchemaObject.fields, written, negatedToObject_eq, refToJson_comp_toObject])

/-- The limits of a schema that is no reference show under their keywords. -/
theorem get?_limit (h : s.kind ≠ .reference) (k : LimitKeyword) :
    s.toJson.get? k.name = (s.constraints.limit? k).bind Limit.json? := by
  refine get?_toJson h (f := (k.name, (s.constraints.limit? k).bind Limit.json?)) ?_
  have plain {α : Type} {write : α → Json} (limit : α → Limit) (o : Option α)
      (hlimit : ∀ a, (limit a).json? = some (write a)) : (o.map limit).bind Limit.json? = o.map write := by
    cases o with
    | none => rfl
    | some a => exact hlimit a
  have number (limit : Binary64 → Limit) (o : Option Binary64)
      (hlimit : ∀ b, (limit b).json? = b.toNumber?.map .number) :
      (o.map limit).bind Limit.json? = (o.bind Binary64.toNumber?).map .number := by
    cases o with
    | none => rfl
    | some b => exact hlimit b
  have hflag (b : Bool) : (bif b then some Limit.uniqueItems else none).bind Limit.json? = (flag b).map .bool := by
    cases b <;> rfl
  cases k with
  | uniqueItems =>
    rw [Constraints.limit?, hflag]
    simp [SchemaObject.fields, written, keywordsOf, LimitKeyword.name, constraints]
  | minimum | maximum | exclusiveMinimum | exclusiveMaximum | multipleOf =>
    rw [Constraints.limit?, number _ _ fun _ => rfl]
    simp [SchemaObject.fields, written, keywordsOf, LimitKeyword.name, constraints]
  | _ =>
    rw [Constraints.limit?, plain _ _ fun _ => rfl]
    simp [SchemaObject.fields, written, keywordsOf, LimitKeyword.name, constraints]

end Schema

/-! ## Places of written schemas -/

/-- What stands in a written schema one step further in. -/
def SchemaStep.within? (step : SchemaStep) (j : Json) : Option Json :=
  match step with
  | .items => j.get? "items"
  | .property name => (j.get? "properties").bind (·.get? name)
  | .member name index =>
    if name = "not" then if index = 0 then j.get? "not" else none
    else if name ∈ [ListKeyword.oneOf, .allOf, .anyOf].map (·.name) then
      ((j.get? name).bind Json.items?).bind (·[index]?)
    else none

/-- What stands in a written schema at a place. -/
def Json.schemaAt? (j : Json) : List SchemaStep → Option Json
  | [] => some j
  | step :: place => (step.within? j).bind (·.schemaAt? place)

namespace Schema

variable {s : Schema} {j : Json}

theorem within?_items : SchemaStep.items.within? s.toJson = some j ↔
    ∃ c, (.items, c) ∈ s.children ∧ c.toJson = j := by
  simp [SchemaStep.within?, get?_items, items_mem_children_iff]

theorem within?_property (hkeys : (Entries.keys s.ownProperties).Nodup) {name : String} :
    (SchemaStep.property name).within? s.toJson = some j ↔
      ∃ c, (.property name, c) ∈ s.children ∧ c.toJson = j := by
  have hget (c : Schema) : (name, c) ∈ s.ownProperties ↔ Entries.get? s.ownProperties name = some c :=
    ⟨Entries.get?_eq_some_of_mem hkeys, Entries.mem_of_get?_eq_some⟩
  simp [SchemaStep.within?, get?_properties, Json.get?_nonEmpty?_mapOf, property_mem_children_iff, hget]

theorem within?_member {name : String} {index : Nat} : (SchemaStep.member name index).within? s.toJson = some j ↔
    ∃ c, (.member name index, c) ∈ s.children ∧ c.toJson = j := by
  simp only [SchemaStep.within?, member_mem_children_iff]
  by_cases hnot : name = "not"
  · subst hnot
    have hkeyword (k : ListKeyword) : "not" ≠ k.name := by cases k <;> decide
    by_cases hindex : index = 0 <;> simp [hkeyword, hindex, get?_not]
  · rw [if_neg hnot]
    by_cases hname : ∃ k : ListKeyword, name = k.name
    · obtain ⟨k, rfl⟩ := hname
      have hmem : k.name ∈ [ListKeyword.oneOf, .allOf, .anyOf].map (·.name) := by cases k <;> simp
      have hunique (k' : ListKeyword) : k.name = k'.name ↔ k = k' := by cases k <;> cases k' <;> decide
      rw [if_pos hmem, get?_members, Json.getElem?_nonEmpty?_listOf]
      simp [hunique, hnot]
    · have hmem : name ∉ [ListKeyword.oneOf, .allOf, .anyOf].map (·.name) := by
        intro hmem
        obtain ⟨k, -, hk⟩ := List.mem_map.1 hmem
        exact hname ⟨k, hk.symm⟩
      rw [if_neg hmem]
      simp [hnot, not_exists.1 hname]

/-- One step further in stands the written form of a child. -/
theorem within?_toJson (hkeys : (Entries.keys s.ownProperties).Nodup) {step : SchemaStep} :
    step.within? s.toJson = some j ↔ ∃ c, (step, c) ∈ s.children ∧ c.toJson = j := by
  cases step with
  | items => exact within?_items
  | property name => exact within?_property hkeys
  | member name index => exact within?_member

/-- What stands at a place of a written schema is the written form of a node there. -/
theorem schemaAt?_toJson (hkeys : ∀ place t, s.Node place t → (Entries.keys t.ownProperties).Nodup)
    {place : List SchemaStep} : s.toJson.schemaAt? place = some j ↔ ∃ t, s.Node place t ∧ t.toJson = j := by
  induction place generalizing s with
  | nil =>
    constructor
    · rintro ⟨⟩
      exact ⟨s, .root s, rfl⟩
    · rintro ⟨t, ht, rfl⟩
      cases ht
      rfl
  | cons step place ih =>
    simp only [Json.schemaAt?, Option.bind_eq_some_iff, within?_toJson (hkeys [] s (.root s))]
    -- the nodes of a child are nodes of the schema, so their properties have different names as well
    have below {c : Schema} (hc : (step, c) ∈ s.children) :=
      ih (s := c) fun place t ht => hkeys _ t (.inside hc ht)
    constructor
    · rintro ⟨_, ⟨c, hc, rfl⟩, hplace⟩
      obtain ⟨t, ht, rfl⟩ := (below hc).1 hplace
      exact ⟨t, .inside hc ht, rfl⟩
    · rintro ⟨t, ht, rfl⟩
      cases ht with
      | @inside _ c _ _ _ hc ht => exact ⟨_, ⟨c, hc, rfl⟩, (below hc).2 ⟨t, ht, rfl⟩⟩

variable [PatternReader]

theorem Built.nodup_ownProperties (h : Built s) : (Entries.keys s.ownProperties).Nodup := by
  unfold ownProperties
  cases hps : s.properties? with
  | none => exact List.nodup_nil
  | some ps => exact h.nodup_properties hps

/-- The schemas in the written form of a checked schema are those of its nodes. -/
theorem Built.schemaAt?_toJson (hs : Built s) (h : s.check = .ok ()) {place : List SchemaStep} :
    s.toJson.schemaAt? place = some j ↔ ∃ t, s.Node place t ∧ t.toJson = j :=
  Schema.schemaAt?_toJson fun _ _ ht => (hs.of_node h ht).1.nodup_ownProperties

end Schema

end ApiDescription
