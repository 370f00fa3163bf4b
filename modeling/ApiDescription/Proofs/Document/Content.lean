import ApiDescription.Document.Content
import ApiDescription.Proofs.Document.SchemaObject

/-!
# Reading contents back

Examples, media types, parameters, headers, links, bodies and responses are read back without their
nulls: a null `value` of an example and a null `example` of a media type or a parameter are taken for
missing. The values of a link's parameters stay as they are, null or not.

Of each type, `distinct` says that no map in a value lists a key twice, and `withoutNulls` is the value
as it is read back.
-/

set_option autoImplicit false

namespace ApiDescription

namespace Example

def distinct (e : Example) : Bool := e.value.all Json.distinct

def withoutNulls (e : Example) : Example := { e with value := Json.nonNull? e.value }

theorem toJson_eq (e : Example) : e.toJson = Json.record [("summary", e.summary.map .string),
    ("description", e.description.map .string), ("value", e.value),
    ("externalValue", e.externalValue.map .string)] := by
  simp [toJson, Json.record, Json.present]

theorem readsInPlace (e : Example) (h : e.distinct = true) :
    ReadsInPlace ofData? e.toJson e.withoutNulls := by
  rw [toJson_eq]
  refine .record (fun _ => rfl) rfl (by decide) ?_
  rintro r ⟨hsummary, hdescription, hvalue, hexternal, -⟩
  simp only [Record.optional?_text hsummary, Record.optional?_text hdescription,
    Record.optional?_json hvalue h, Record.optional?_text hexternal, withoutNulls,
    Option.bind_eq_bind, Option.bind_some, Option.pure_def]

end Example

namespace MediaType

def distinct (m : MediaType) : Bool :=
  m.schema.all SchemaObject.refDistinct && m.sample.all Json.distinct &&
    Entries.distinct (OrReference.all Example.distinct) m.examples

def withoutNulls (m : MediaType) : MediaType where
  schema := m.schema.map SchemaObject.refWithoutNulls
  sample := Json.nonNull? m.sample
  examples := Entries.mapValues (OrReference.map Example.withoutNulls) m.examples

theorem toJson_eq (m : MediaType) : m.toJson = Json.record [
    ("schema", m.schema.map SchemaObject.refToJson), ("example", m.sample),
    ("examples", Json.nonEmpty? (Json.mapOf (OrReference.toJson Example.toJson)) m.examples)] := by
  simp [toJson, Json.record, Json.present]

theorem readsAs (m : MediaType) (h : m.distinct = true) :
    ReadsAs ofData? m.toJson m.withoutNulls := by
  simp only [distinct, Bool.and_eq_true, Option.all_eq_true _ m.schema] at h
  obtain ⟨⟨hschema, hsample⟩, hexamples⟩ := h
  rw [toJson_eq]
  refine .record (fun _ => rfl) rfl (by decide) ?_
  rintro r ⟨schema, sample, examples, -⟩
  simp only [Record.optional?_of_get? schema fun x hx => SchemaObject.refReadsAs (hschema x hx),
    Record.optional?_json sample hsample,
    Record.withDefault?_of_get? examples rfl (.components hexamples Example.readsInPlace),
    withoutNulls, Option.bind_eq_bind, Option.bind_some, Option.pure_def]

end MediaType

/-! ## Parameters -/

theorem ParameterLocation.ofName?_name (l : ParameterLocation) : ofName? l.name = some l := by
  cases l <;> decide

namespace Parameter

def distinct (p : Parameter) : Bool :=
  p.schema.all SchemaObject.refDistinct && p.sample.all Json.distinct &&
    Entries.distinct (OrReference.all Example.distinct) p.examples

def withoutNulls (p : Parameter) : Parameter :=
  { p with
    schema := p.schema.map SchemaObject.refWithoutNulls
    sample := Json.nonNull? p.sample
    examples := Entries.mapValues (OrReference.map Example.withoutNulls) p.examples }

theorem toJson_eq (p : Parameter) : p.toJson = Json.record [("name", some (.string p.name)),
    ("in", some (.string p.location.name)), ("description", p.description.map .string),
    ("required", some (.bool p.required)), ("deprecated", p.deprecated.map .bool),
    ("schema", p.schema.map SchemaObject.refToJson), ("example", p.sample),
    ("examples", Json.nonEmpty? (Json.mapOf (OrReference.toJson Example.toJson)) p.examples)] := by
  simp [toJson, Json.record, Json.present]

theorem readsInPlace (p : Parameter) (h : p.distinct = true) :
    ReadsInPlace ofData? p.toJson p.withoutNulls := by
  simp only [distinct, Bool.and_eq_true, Option.all_eq_true _ p.schema] at h
  obtain ⟨⟨hschema, hsample⟩, hexamples⟩ := h
  rw [toJson_eq]
  refine .record (fun _ => rfl) rfl (by decide) ?_
  rintro r ⟨name, location, description, required, deprecated, schema, sample, examples, -⟩
  simp only [Record.required?_of_get? name (.text _),
    Record.required?_of_get? location (.name p.location.ofName?_name),
    Record.optional?_text description, Record.required?_of_get? required (.bool _),
    Record.optional?_self deprecated .bool,
    Record.optional?_of_get? schema fun x hx => SchemaObject.refReadsAs (hschema x hx),
    Record.optional?_json sample hsample,
    Record.withDefault?_of_get? examples rfl (.components hexamples Example.readsInPlace),
    withoutNulls, Option.bind_eq_bind, Option.bind_some, Option.pure_def]

/-- A list of references and parameters is read back. -/
theorem list_readsAs {ps : List (OrReference Parameter)}
    (h : ps.all (OrReference.all distinct) = true) :
    ReadsAs (Data.listOf? (OrReference.ofData? ofData?))
      (Json.listOf (OrReference.toJson toJson) ps) (ps.map (OrReference.map withoutNulls)) :=
  .listOf fun p hp => (OrReference.readsAs_of_all (List.all_eq_true.1 h p hp) readsInPlace).reads

end Parameter

/-! ## Headers and links -/

namespace Header

def distinct (h : Header) : Bool := h.schema.all SchemaObject.refDistinct

def withoutNulls (h : Header) : Header :=
  { h with schema := h.schema.map SchemaObject.refWithoutNulls }

theorem toJson_eq (h : Header) : h.toJson = Json.record [
    ("description", h.description.map .string), ("required", h.required.map .bool),
    ("schema", h.schema.map SchemaObject.refToJson)] := by
  simp [toJson, Json.record, Json.present]

theorem readsInPlace (h : Header) (hd : h.distinct = true) :
    ReadsInPlace ofData? h.toJson h.withoutNulls := by
  have hschema := (Option.all_eq_true _ _).1 hd
  rw [toJson_eq]
  refine .record (fun _ => rfl) rfl (by decide) ?_
  rintro r ⟨description, required, schema, -⟩
  simp only [Record.optional?_text description, Record.optional?_self required .bool,
    Record.optional?_of_get? schema fun x hx => SchemaObject.refReadsAs (hschema x hx),
    withoutNulls, Option.bind_eq_bind, Option.bind_some, Option.pure_def]

end Header

namespace Link

def distinct (l : Link) : Bool := Entries.distinct Json.distinct l.parameters

theorem toJson_eq (l : Link) : l.toJson = Json.record [
    ("operationRef", l.operationRef.map .string), ("operationId", l.operationId.map .string),
    ("parameters", Json.nonEmpty? (Json.mapOf id) l.parameters),
    ("description", l.description.map .string)] := by
  simp [toJson, Json.record, Json.present]

theorem readsInPlace (l : Link) (h : l.distinct = true) : ReadsInPlace ofData? l.toJson l := by
  obtain ⟨hkeys, hvalues⟩ := (Entries.distinct_iff _ _).1 h
  have hparameters : ReadsAs (Data.mapOf? Data.toJson?) (Json.mapOf id l.parameters)
      (Entries.mapValues (fun j => j) l.parameters) :=
    .mapOf hkeys fun k j hj => Data.toJson?_ofJson (hvalues k j hj)
  rw [Entries.mapValues_id] at hparameters
  rw [toJson_eq]
  refine .record (fun _ => rfl) rfl (by decide) ?_
  rintro r ⟨reference, operationId, parameters, description, -⟩
  simp only [Record.optional?_text reference, Record.optional?_text operationId,
    Record.withDefault?_of_get? parameters rfl hparameters, Record.optional?_text description,
    Option.bind_eq_bind, Option.bind_some, Option.pure_def]

end Link

/-! ## Bodies -/

namespace RequestBody

def distinct (b : RequestBody) : Bool := Entries.distinct MediaType.distinct b.content

def withoutNulls (b : RequestBody) : RequestBody :=
  { b with content := Entries.mapValues MediaType.withoutNulls b.content }

theorem toJson_eq (b : RequestBody) : b.toJson = Json.record [
    ("description", b.description.map .string),
    ("content", some (Json.mapOf MediaType.toJson b.content)),
    ("required", some (.bool b.required))] := by
  simp [toJson, Json.record, Json.present]

theorem readsInPlace (b : RequestBody) (h : b.distinct = true) :
    ReadsInPlace ofData? b.toJson b.withoutNulls := by
  rw [toJson_eq]
  refine .record (fun _ => rfl) rfl (by decide) ?_
  rintro r ⟨description, content, required, -⟩
  simp only [Record.optional?_text description,
    Record.required?_of_get? content (.mapOf_of_distinct h MediaType.readsAs),
    Record.required?_of_get? required (.bool _), withoutNulls, Option.bind_eq_bind,
    Option.bind_some, Option.pure_def]

end RequestBody

namespace Response

def distinct (r : Response) : Bool :=
  Entries.distinct (OrReference.all Header.distinct) r.headers &&
    Entries.distinct MediaType.distinct r.content &&
    Entries.distinct (OrReference.all Link.distinct) r.links

def withoutNulls (r : Response) : Response :=
  { r with
    headers := Entries.mapValues (OrReference.map Header.withoutNulls) r.headers
    content := Entries.mapValues MediaType.withoutNulls r.content }

theorem toJson_eq (r : Response) : r.toJson = Json.record [
    ("description", some (.string r.description)),
    ("headers", Json.nonEmpty? (Json.mapOf (OrReference.toJson Header.toJson)) r.headers),
    ("content", Json.nonEmpty? (Json.mapOf MediaType.toJson) r.content),
    ("links", Json.nonEmpty? (Json.mapOf (OrReference.toJson Link.toJson)) r.links)] := by
  simp [toJson, Json.record, Json.present]

theorem readsInPlace (r : Response) (h : r.distinct = true) :
    ReadsInPlace ofData? r.toJson r.withoutNulls := by
  simp only [distinct, Bool.and_eq_true] at h
  obtain ⟨⟨hheaders, hcontent⟩, hlinks⟩ := h
  rw [toJson_eq]
  refine .record (fun _ => rfl) rfl (by decide) ?_
  rintro r' ⟨description, headers, content, links, -⟩
  simp only [Record.required?_of_get? description (.text _),
    Record.withDefault?_of_get? headers rfl (.components hheaders Header.readsInPlace),
    Record.withDefault?_of_get? content rfl (.mapOf_of_distinct hcontent MediaType.readsAs),
    Record.withDefault?_of_get? links rfl (.components hlinks Link.readsInPlace),
    OrReference.map_id, Entries.mapValues_id, withoutNulls, Option.bind_eq_bind, Option.bind_some,
    Option.pure_def]

end Response

end ApiDescription
