import ApiDescription.Document.SchemaObject
import ApiDescription.Proofs.Document.Reference

/-!
# Reading schemas back

A schema is read back without its nulls: the keywords `const`, `default` and `example` take a null for
a missing value. The reader is given a depth that the data must not reach, so the proof is by induction
on that depth, the schemas inside a schema nesting less deep than it does
(`SchemaObject.depth_child_lt`).
-/

set_option autoImplicit false

namespace ApiDescription

/-! ## Types and formats -/

theorem SchemaType.ofName?_name (t : SchemaType) : ofName? t.name = some t := by
  cases t <;> decide

theorem SchemaFormat.ofTag?_tag (f : SchemaFormat) : ofTag? f.tag = some f := by
  cases f <;> decide

/-- One type is written as a name and several as a list, which is no name. -/
theorem SchemaTypes.readsAs (t : SchemaTypes) : ReadsAs ofData? t.toJson t := by
  cases t with
  | single t =>
    refine ⟨nofun, ?_⟩
    simp only [ofData?, toJson, Data.typed?_ofJson, Option.bind_some]
    rw [(ReadsAs.name t.ofName?_name).reads]
  | several ts =>
    have hread := ReadsAs.listOf (f := id) fun t (_ : t ∈ ts) =>
      (ReadsAs.name (SchemaType.ofName?_name t)).reads
    refine ⟨nofun, ?_⟩
    simp only [ofData?, toJson, Data.typed?_ofJson, Option.bind_some]
    rw [hread.reads, List.map_id]
    rfl

/-! ## Keywords -/

namespace SchemaKeywords

/-- No object in a value lists a name twice. -/
def distinct (ks : SchemaKeywords) : Bool :=
  ks.constant.all Json.distinct && ks.enumeration.all (·.all Json.distinct) &&
    ks.default.all Json.distinct && ks.sample.all Json.distinct

/-- The keywords without those that take a null for a missing value. -/
def withoutNulls (ks : SchemaKeywords) : SchemaKeywords :=
  { ks with
    constant := Json.nonNull? ks.constant
    default := Json.nonNull? ks.default
    sample := Json.nonNull? ks.sample }

end SchemaKeywords

namespace SchemaObject

/-! ## Schemas -/

mutual

/-- No map in the schema lists a key twice. -/
def distinct : SchemaObject → Bool
  | .mk ks ps i one all any n =>
    ks.distinct && decide (Entries.keys ps).Nodup && propertiesDistinct ps && childDistinct i &&
      childrenDistinct one && childrenDistinct all && childrenDistinct any && childDistinct n

def refDistinct : OrReference SchemaObject → Bool
  | .reference _ => true
  | .inline s => distinct s

def propertiesDistinct : List (String × OrReference SchemaObject) → Bool
  | [] => true
  | (_, s) :: ps => refDistinct s && propertiesDistinct ps

def childrenDistinct : List (OrReference SchemaObject) → Bool
  | [] => true
  | s :: ss => refDistinct s && childrenDistinct ss

def childDistinct : Option (OrReference SchemaObject) → Bool
  | none => true
  | some s => refDistinct s

end

mutual

/-- The schema without nulls where a value may be missing. -/
def withoutNulls : SchemaObject → SchemaObject
  | .mk ks ps i one all any n =>
    .mk ks.withoutNulls (propertiesWithoutNulls ps) (childWithoutNulls i)
      (childrenWithoutNulls one) (childrenWithoutNulls all) (childrenWithoutNulls any)
      (childWithoutNulls n)

def refWithoutNulls : OrReference SchemaObject → OrReference SchemaObject
  | .reference target => .reference target
  | .inline s => .inline (withoutNulls s)

def propertiesWithoutNulls :
    List (String × OrReference SchemaObject) → List (String × OrReference SchemaObject)
  | [] => []
  | (name, s) :: ps => (name, refWithoutNulls s) :: propertiesWithoutNulls ps

def childrenWithoutNulls : List (OrReference SchemaObject) → List (OrReference SchemaObject)
  | [] => []
  | s :: ss => refWithoutNulls s :: childrenWithoutNulls ss

def childWithoutNulls : Option (OrReference SchemaObject) → Option (OrReference SchemaObject)
  | none => none
  | some s => some (refWithoutNulls s)

end

/-- The schemas and references inside the schema. -/
def children : SchemaObject → List (OrReference SchemaObject)
  | .mk _ ps i one all any n => ps.map Prod.snd ++ i.toList ++ one ++ all ++ any ++ n.toList

theorem mem_children {ks : SchemaKeywords} {ps : List (String × OrReference SchemaObject)}
    {i : Option (OrReference SchemaObject)} {one all any : List (OrReference SchemaObject)}
    {n : Option (OrReference SchemaObject)} {x : OrReference SchemaObject} :
    x ∈ (mk ks ps i one all any n).children ↔
      (∃ k, (k, x) ∈ ps) ∨ i = some x ∨ x ∈ one ∨ x ∈ all ∨ x ∈ any ∨ n = some x := by
  simp [children]

/-! ### The parts as maps over lists -/

theorem refToJson_eq (x : OrReference SchemaObject) : refToJson x = x.toJson toJson := by
  cases x <;> rw [refToJson, OrReference.toJson]

theorem propertiesToJson_eq_map (ps : List (String × OrReference SchemaObject)) :
    propertiesToJson ps = ps.map fun p => (p.1, refToJson p.2) := by
  induction ps with
  | nil => rfl
  | cons p ps ih => rw [propertiesToJson, ih, List.map_cons]

theorem childrenToJson_eq_map (ss : List (OrReference SchemaObject)) :
    childrenToJson ss = ss.map refToJson := by
  induction ss with
  | nil => rfl
  | cons s ss ih => rw [childrenToJson, ih, List.map_cons]

theorem propertiesMember_eq (ps : List (String × OrReference SchemaObject)) :
    propertiesMember ps = Json.mapMember "properties" refToJson ps := by
  cases ps with
  | nil => rfl
  | cons p ps => rw [propertiesMember, propertiesToJson_eq_map]; rfl

theorem childrenMember_eq (name : String) (ss : List (OrReference SchemaObject)) :
    childrenMember name ss = Json.listMember name refToJson ss := by
  cases ss with
  | nil => rfl
  | cons s ss => rw [childrenMember, childrenToJson_eq_map]; rfl

theorem childMember_eq (name : String) (x : Option (OrReference SchemaObject)) :
    childMember name x = Json.member? name refToJson x := by
  cases x <;> rfl

theorem refWithoutNulls_eq (x : OrReference SchemaObject) :
    refWithoutNulls x = x.map withoutNulls := by
  cases x <;> rw [refWithoutNulls, OrReference.map]

theorem propertiesWithoutNulls_eq (ps : List (String × OrReference SchemaObject)) :
    propertiesWithoutNulls ps = Entries.mapValues refWithoutNulls ps := by
  induction ps with
  | nil => rfl
  | cons p ps ih => rw [propertiesWithoutNulls, ih]; rfl

theorem childrenWithoutNulls_eq (ss : List (OrReference SchemaObject)) :
    childrenWithoutNulls ss = ss.map refWithoutNulls := by
  induction ss with
  | nil => rfl
  | cons s ss ih => rw [childrenWithoutNulls, ih, List.map_cons]

theorem childWithoutNulls_eq (x : Option (OrReference SchemaObject)) :
    childWithoutNulls x = x.map refWithoutNulls := by
  cases x <;> rfl

theorem propertiesDistinct_iff (ps : List (String × OrReference SchemaObject)) :
    propertiesDistinct ps = true ↔ ∀ x ∈ ps.map Prod.snd, refDistinct x = true := by
  induction ps with
  | nil => simp [propertiesDistinct]
  | cons p ps ih =>
    rw [propertiesDistinct, Bool.and_eq_true, ih, List.map_cons, List.forall_mem_cons]

theorem childrenDistinct_iff (ss : List (OrReference SchemaObject)) :
    childrenDistinct ss = true ↔ ∀ x ∈ ss, refDistinct x = true := by
  induction ss with
  | nil => simp [childrenDistinct]
  | cons s ss ih => rw [childrenDistinct, Bool.and_eq_true, ih, List.forall_mem_cons]

theorem childDistinct_iff (x : Option (OrReference SchemaObject)) :
    childDistinct x = true ↔ ∀ y ∈ x.toList, refDistinct y = true := by
  cases x <;> simp [childDistinct]

theorem distinct_iff (s : SchemaObject) : s.distinct = true ↔
    s.keywords.distinct = true ∧ (Entries.keys s.properties).Nodup ∧
      ∀ x ∈ s.children, refDistinct x = true := by
  obtain ⟨ks, ps, i, one, all, any, n⟩ := s
  simp only [distinct, children, keywords, properties, Bool.and_eq_true, decide_eq_true_eq,
    propertiesDistinct_iff, childrenDistinct_iff, childDistinct_iff, List.forall_mem_append,
    and_assoc]

/-! ### The fields -/

/-- The fields of a written schema. -/
def fields : SchemaObject → List (String × Option Json)
  | .mk ks ps i one all any n =>
    [("type", ks.type.map SchemaTypes.toJson), ("title", ks.title.map .string),
      ("description", ks.description.map .string),
      ("format", ks.format.map fun f => .string f.tag), ("const", ks.constant),
      ("enum", ks.enumeration.map .array), ("default", ks.default), ("example", ks.sample),
      ("properties", Json.nonEmpty? (Json.mapOf refToJson) ps),
      ("required", Json.nonEmpty? (Json.listOf .string) ks.required),
      ("additionalProperties", ks.additionalProperties.map .bool),
      ("minProperties", ks.minProperties.map countJson),
      ("maxProperties", ks.maxProperties.map countJson), ("items", i.map refToJson),
      ("minItems", ks.minItems.map countJson), ("maxItems", ks.maxItems.map countJson),
      ("uniqueItems", ks.uniqueItems.map .bool), ("minimum", ks.minimum.map .number),
      ("maximum", ks.maximum.map .number), ("exclusiveMinimum", ks.exclusiveMinimum.map .number),
      ("exclusiveMaximum", ks.exclusiveMaximum.map .number),
      ("multipleOf", ks.multipleOf.map .number), ("minLength", ks.minLength.map countJson),
      ("maxLength", ks.maxLength.map countJson), ("pattern", ks.pattern.map .string),
      ("oneOf", Json.nonEmpty? (Json.listOf refToJson) one),
      ("allOf", Json.nonEmpty? (Json.listOf refToJson) all),
      ("anyOf", Json.nonEmpty? (Json.listOf refToJson) any), ("not", n.map refToJson),
      ("deprecated", ks.deprecated.map .bool), ("readOnly", ks.readOnly.map .bool),
      ("writeOnly", ks.writeOnly.map .bool)]

theorem toJson_eq (s : SchemaObject) : s.toJson = Json.record s.fields := by
  obtain ⟨ks, ps, i, one, all, any, n⟩ := s
  simp [toJson, fields, Json.record, Json.present, propertiesMember_eq, childrenMember_eq, childMember_eq]

/-- The written form of a list of schemas nests deeper than theirs. -/
theorem depth_lt_listOf {xs : List (OrReference SchemaObject)} {x : OrReference SchemaObject}
    (h : x ∈ xs) :
    (Data.ofJson (refToJson x)).depth < (Data.ofJson (Json.listOf refToJson xs)).depth :=
  Data.depth_lt_of_mem_array (List.mem_map_of_mem h)

/-- A schema nests deeper than the schemas inside it. -/
theorem depth_child_lt {s : SchemaObject} {x : OrReference SchemaObject} (h : x ∈ s.children) :
    (Data.ofJson (refToJson x)).depth < (Data.ofJson s.toJson).depth := by
  rw [toJson_eq]
  obtain ⟨ks, ps, i, one, all, any, n⟩ := s
  rcases mem_children.1 h with ⟨k, hp⟩ | hi | hone | hall | hany | hn
  · have hmap : (Data.ofJson (refToJson x)).depth <
        (Data.ofJson (Json.mapOf refToJson ps)).depth :=
      Data.depth_lt_of_mem_object (List.mem_map_of_mem (f := fun p => (p.1, refToJson p.2)) hp)
    refine Nat.lt_trans hmap (Json.depth_lt_record "properties" ?_)
    simp [fields, Json.nonEmpty?_of_mem _ hp]
  · refine Json.depth_lt_record "items" ?_
    simp [fields, hi]
  · refine Nat.lt_trans (depth_lt_listOf hone) (Json.depth_lt_record "oneOf" ?_)
    simp [fields, Json.nonEmpty?_of_mem _ hone]
  · refine Nat.lt_trans (depth_lt_listOf hall) (Json.depth_lt_record "allOf" ?_)
    simp [fields, Json.nonEmpty?_of_mem _ hall]
  · refine Nat.lt_trans (depth_lt_listOf hany) (Json.depth_lt_record "anyOf" ?_)
    simp [fields, Json.nonEmpty?_of_mem _ hany]
  · refine Json.depth_lt_record "not" ?_
    simp [fields, hn]

theorem count_readsAs (n : UInt64) : ReadsAs count? (countJson n) n := by
  refine ⟨nofun, ?_⟩
  rw [count?, countJson, Data.count?_ofNat n.toNat_lt, Option.map_some, UInt64.ofNat_toNat]

/-- The plain keywords are read back without their nulls. -/
theorem readKeywords?_of_has {s : SchemaObject} (h : s.keywords.distinct = true) {r : Record}
    (hr : r.Has s.fields) : readKeywords? r = some s.keywords.withoutNulls := by
  obtain ⟨ks, ps, i, one, all, any, n⟩ := s
  obtain ⟨⟨⟨hconst, henum⟩, hdefault⟩, hexample⟩ :
      ((ks.constant.all Json.distinct = true ∧ ks.enumeration.all (·.all Json.distinct) = true) ∧
        ks.default.all Json.distinct = true) ∧ ks.sample.all Json.distinct = true := by
    simpa only [keywords, SchemaKeywords.distinct, Bool.and_eq_true] using h
  have hvalues : ∀ js ∈ ks.enumeration, ∀ j ∈ js, j.distinct = true := fun js hjs =>
    List.all_eq_true.1 ((Option.all_eq_true _ _).1 henum js hjs)
  obtain ⟨type, title, description, format, const, enum, default, sample, -, required, additional,
    minProperties, maxProperties, -, minItems, maxItems, uniqueItems, minimum, maximum,
    exclusiveMinimum, exclusiveMaximum, multipleOf, minLength, maxLength, pattern, -, -, -, -,
    deprecated, readOnly, writeOnly, -⟩ := hr
  have hrequired : r.withDefault? "required" [] (Data.listOf? Data.text?) = some ks.required :=
    Record.withDefault?_of_get? required rfl (.texts _)
  simp only [readKeywords?, keywords, SchemaKeywords.withoutNulls,
    Record.optional?_self type SchemaTypes.readsAs, Record.optional?_text title,
    Record.optional?_text description, Record.optional?_self format fun f => .name f.ofTag?_tag,
    Record.optional?_json const hconst,
    Record.optional?_of_get? enum fun js hjs => .jsons (hvalues js hjs),
    Record.optional?_json default hdefault, Record.optional?_json sample hexample, hrequired,
    Record.optional?_self additional .bool, Record.optional?_self minProperties count_readsAs,
    Record.optional?_self maxProperties count_readsAs, Record.optional?_self minItems count_readsAs,
    Record.optional?_self maxItems count_readsAs, Record.optional?_self uniqueItems .bool,
    Record.optional?_self minimum .number, Record.optional?_self maximum .number,
    Record.optional?_self exclusiveMinimum .number, Record.optional?_self exclusiveMaximum .number,
    Record.optional?_self multipleOf .number, Record.optional?_self minLength count_readsAs,
    Record.optional?_self maxLength count_readsAs, Record.optional?_text pattern,
    Record.optional?_self deprecated .bool, Record.optional?_self readOnly .bool,
    Record.optional?_self writeOnly .bool, Option.map_id', Option.bind_eq_bind, Option.bind_some,
    Option.pure_def]

theorem nodup_names : (fieldNames.map (·.name)).Nodup ∧ "$ref" ∉ fieldNames.map (·.name) := by
  decide

theorem keys_fields (s : SchemaObject) : Entries.keys s.fields = fieldNames.map (·.name) := by
  obtain ⟨ks, ps, i, one, all, any, n⟩ := s
  rfl

/-- A schema is read back without its nulls whenever the depth suffices. -/
theorem readsInPlace_within (depth : Nat) {s : SchemaObject} (h : s.distinct = true)
    (hdepth : (Data.ofJson s.toJson).depth < depth) :
    ReadsInPlace (readWithin? depth) s.toJson s.withoutNulls := by
  induction depth generalizing s with
  | zero => exact absurd hdepth (Nat.not_lt_zero _)
  | succ depth ih =>
    obtain ⟨hkeywords, hkeys, hchildren⟩ := (distinct_iff s).1 h
    -- What stands inside the schema nests less deep, so the induction hypothesis reads it.
    have hchild : ∀ x ∈ s.children,
        ReadsAs (OrReference.ofData? (readWithin? depth)) (refToJson x) (refWithoutNulls x) := by
      intro x hx
      have hlt := Nat.lt_of_lt_of_le (depth_child_lt hx) (Nat.le_of_lt_succ hdepth)
      rw [refToJson_eq, refWithoutNulls_eq]
      refine OrReference.readsAs fun t ht => ?_
      subst ht
      exact ih (hchildren _ hx) hlt
    obtain ⟨ks, ps, i, one, all, any, n⟩ := s
    rw [toJson_eq]
    refine .record (fun _ => rfl) (keys_fields _) nodup_names fun r hr => ?_
    have hks := readKeywords?_of_has hkeywords hr
    obtain ⟨-, -, -, -, -, -, -, -, properties, -, -, -, -, items, -, -, -, -, -, -, -, -, -, -, -,
      oneOf, allOf, anyOf, negated, -⟩ := hr
    have hlist : ∀ {xs : List (OrReference SchemaObject)},
        (∀ x ∈ xs, x ∈ (mk ks ps i one all any n).children) →
          ReadsAs (Data.listOf? (OrReference.ofData? (readWithin? depth)))
            (Json.listOf refToJson xs) (xs.map refWithoutNulls) :=
      fun hxs => .listOf fun x hx => (hchild x (hxs x hx)).reads
    have hmap : ReadsAs (Data.mapOf? (OrReference.ofData? (readWithin? depth)))
        (Json.mapOf refToJson ps) (Entries.mapValues refWithoutNulls ps) :=
      .mapOf hkeys fun k x hx => (hchild x (mem_children.2 (.inl ⟨k, hx⟩))).reads
    simp only [withoutNulls, propertiesWithoutNulls_eq, childrenWithoutNulls_eq,
      childWithoutNulls_eq, hks, Record.withDefault?_of_get? properties rfl hmap,
      Record.optional?_of_get? items fun x hx =>
        hchild x (by simp [mem_children, Option.mem_def.1 hx]),
      Record.withDefault?_of_get? oneOf rfl (hlist fun x hx => by simp [mem_children, hx]),
      Record.withDefault?_of_get? allOf rfl (hlist fun x hx => by simp [mem_children, hx]),
      Record.withDefault?_of_get? anyOf rfl (hlist fun x hx => by simp [mem_children, hx]),
      Record.optional?_of_get? negated fun x hx =>
        hchild x (by simp [mem_children, Option.mem_def.1 hx]),
      Option.bind_eq_bind, Option.bind_some, Option.pure_def]
    rfl

theorem readsInPlace {s : SchemaObject} (h : s.distinct = true) :
    ReadsInPlace ofData? s.toJson s.withoutNulls :=
  have hread := readsInPlace_within _ h (Nat.lt_succ_self _)
  ⟨⟨hread.notNull, hread.reads⟩, hread.notReference⟩

theorem refReadsAs {x : OrReference SchemaObject} (h : refDistinct x = true) :
    ReadsAs refOfData? (refToJson x) (refWithoutNulls x) := by
  rw [refToJson_eq, refWithoutNulls_eq]
  refine OrReference.readsAs fun s hs => ?_
  subst hs
  exact readsInPlace h

end SchemaObject

end ApiDescription
