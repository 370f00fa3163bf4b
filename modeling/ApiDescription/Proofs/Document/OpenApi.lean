import ApiDescription.Document.OpenApi
import ApiDescription.Proofs.Document.Content
import ApiDescription.Proofs.Document.Metadata
import ApiDescription.Proofs.Document.SecurityScheme

/-!
# Reading documents back

The written form of a document is read as the document without its nulls
(`OpenApi.ofData?_ofJson_toJson`): what a schema, a media type, a parameter or an example has under
`const`, `default`, `example` or `value` is missing afterwards if it was null, and everything else is as
it was and where it was. The maps of a document are ordered maps, so each holds a key once
(`OpenApi.distinct`).
-/

set_option autoImplicit false

namespace ApiDescription

/-! ## Operations -/

namespace OperationObject

def distinct (o : OperationObject) : Bool :=
  o.parameters.all (OrReference.all Parameter.distinct) &&
    o.requestBody.all (OrReference.all RequestBody.distinct) &&
    Entries.distinct (OrReference.all Response.distinct) o.responses &&
    o.security.all (·.all SecurityRequirement.distinct)

def withoutNulls (o : OperationObject) : OperationObject :=
  { o with
    parameters := o.parameters.map (OrReference.map Parameter.withoutNulls)
    requestBody := o.requestBody.map (OrReference.map RequestBody.withoutNulls)
    responses := Entries.mapValues (OrReference.map Response.withoutNulls) o.responses }

theorem toJson_eq (o : OperationObject) : o.toJson = Json.record [
    ("tags", Json.nonEmpty? (Json.listOf .string) o.tags), ("summary", o.summary.map .string),
    ("description", o.description.map .string),
    ("externalDocs", o.externalDocs.map ExternalDocs.toJson),
    ("operationId", o.operationId.map .string),
    ("parameters", Json.nonEmpty? (Json.listOf (OrReference.toJson Parameter.toJson)) o.parameters),
    ("requestBody", o.requestBody.map (OrReference.toJson RequestBody.toJson)),
    ("responses", some (Json.mapOf (OrReference.toJson Response.toJson) o.responses)),
    ("deprecated", o.deprecated.map .bool),
    ("security", o.security.map (Json.listOf SecurityRequirement.toJson))] := by
  simp [toJson, Json.record, Json.present]

theorem readsAs (o : OperationObject) (h : o.distinct = true) :
    ReadsAs ofData? o.toJson o.withoutNulls := by
  simp only [distinct, Bool.and_eq_true, Option.all_eq_true] at h
  obtain ⟨⟨⟨hparameters, hbody⟩, hresponses⟩, hsecurity⟩ := h
  rw [toJson_eq]
  refine .record (fun _ => rfl) rfl (by decide) ?_
  rintro r ⟨tags, summary, description, docs, operationId, parameters, body, responses, deprecated,
    security, -⟩
  simp only [Record.withDefault?_of_get? tags rfl (.texts _), Record.optional?_text summary,
    Record.optional?_text description, Record.optional?_self docs ExternalDocs.readsAs,
    Record.optional?_text operationId,
    Record.withDefault?_of_get? parameters rfl (Parameter.list_readsAs hparameters),
    Record.optional?_of_get? body fun b hb =>
      OrReference.readsAs_of_all (hbody b hb) RequestBody.readsInPlace,
    Record.withDefault?_of_some responses (.components hresponses Response.readsInPlace),
    Record.optional?_self deprecated .bool,
    Record.optional?_of_get? security fun rs hrs =>
      SecurityRequirement.list_readsAs (hsecurity rs hrs),
    withoutNulls, Option.map_id', Option.bind_eq_bind, Option.bind_some, Option.pure_def]

end OperationObject

/-! ## Path items -/

namespace PathItem

def distinct (p : PathItem) : Bool :=
  (Method.all.all fun m => (p.operation? m).all OperationObject.distinct) &&
    p.parameters.all (OrReference.all Parameter.distinct)

def withoutNulls (p : PathItem) : PathItem :=
  { p with
    get := p.get.map OperationObject.withoutNulls
    put := p.put.map OperationObject.withoutNulls
    post := p.post.map OperationObject.withoutNulls
    delete := p.delete.map OperationObject.withoutNulls
    options := p.options.map OperationObject.withoutNulls
    head := p.head.map OperationObject.withoutNulls
    patch := p.patch.map OperationObject.withoutNulls
    trace := p.trace.map OperationObject.withoutNulls
    parameters := p.parameters.map (OrReference.map Parameter.withoutNulls) }

theorem toJson_eq (p : PathItem) : p.toJson = Json.record [("summary", p.summary.map .string),
    ("description", p.description.map .string), ("get", p.get.map OperationObject.toJson),
    ("put", p.put.map OperationObject.toJson), ("post", p.post.map OperationObject.toJson),
    ("delete", p.delete.map OperationObject.toJson),
    ("options", p.options.map OperationObject.toJson), ("head", p.head.map OperationObject.toJson),
    ("patch", p.patch.map OperationObject.toJson), ("trace", p.trace.map OperationObject.toJson),
    ("parameters",
      Json.nonEmpty? (Json.listOf (OrReference.toJson Parameter.toJson)) p.parameters)] := by
  simp [toJson, Json.record, Json.present]

theorem readsInPlace (p : PathItem) (h : p.distinct = true) :
    ReadsInPlace ofData? p.toJson p.withoutNulls := by
  obtain ⟨hmethods, hparameters⟩ := (Bool.and_eq_true _ _).mp h
  have hoperation : ∀ m, ∀ o ∈ p.operation? m,
      ReadsAs OperationObject.ofData? o.toJson o.withoutNulls := by
    intro m o ho
    have hm := List.all_eq_true.1 hmethods m (by cases m <;> decide)
    exact o.readsAs ((Option.all_eq_true _ _).1 hm o ho)
  rw [toJson_eq]
  refine .record (fun _ => rfl) rfl (by decide) ?_
  rintro r ⟨summary, description, get, put, post, delete, options, head, patch, trace,
    parameters, -⟩
  simp only [Record.optional?_text summary, Record.optional?_text description,
    Record.optional?_of_get? get (hoperation .get), Record.optional?_of_get? put (hoperation .put),
    Record.optional?_of_get? post (hoperation .post),
    Record.optional?_of_get? delete (hoperation .delete),
    Record.optional?_of_get? options (hoperation .options),
    Record.optional?_of_get? head (hoperation .head),
    Record.optional?_of_get? patch (hoperation .patch),
    Record.optional?_of_get? trace (hoperation .trace),
    Record.withDefault?_of_get? parameters rfl (Parameter.list_readsAs hparameters),
    withoutNulls, Option.bind_eq_bind, Option.bind_some, Option.pure_def]

/-- A map of path items is read back. -/
theorem map_readsAs {ps : List (String × PathItem)} (h : Entries.distinct distinct ps = true) :
    ReadsAs (Data.mapOf? ofData?) (Json.mapOf toJson ps) (Entries.mapValues withoutNulls ps) :=
  .mapOf_of_distinct h fun p hp => (p.readsInPlace hp).toReadsAs

end PathItem

namespace Callback

def distinct (c : Callback) : Bool := Entries.distinct PathItem.distinct c

def withoutNulls (c : Callback) : Callback := Entries.mapValues PathItem.withoutNulls c

/-- A callback may send its request to `$ref`, but what it has there is no text. -/
theorem readsInPlace (c : Callback) (h : c.distinct = true) :
    ReadsInPlace ofData? c.toJson c.withoutNulls := by
  refine ⟨PathItem.map_readsAs h, ?_⟩
  have hkeys := ((Entries.distinct_iff _ _).1 h).1
  have hobject : toJson c = .object (Entries.mapValues PathItem.toJson c) := rfl
  rw [hobject, OrReference.target?_object (by rwa [Entries.keys_mapValues]),
    Entries.get?_mapValues]
  cases Entries.get? c "$ref" with
  | none => rfl
  | some p => rfl

end Callback

/-! ## Components -/

namespace Components

def distinct (c : Components) : Bool :=
  Entries.distinct SchemaObject.refDistinct c.schemas &&
    Entries.distinct (OrReference.all Response.distinct) c.responses &&
    Entries.distinct (OrReference.all Parameter.distinct) c.parameters &&
    Entries.distinct (OrReference.all Example.distinct) c.examples &&
    Entries.distinct (OrReference.all RequestBody.distinct) c.requestBodies &&
    Entries.distinct (OrReference.all Header.distinct) c.headers &&
    Entries.distinct (OrReference.all SecurityScheme.distinct) c.securitySchemes &&
    Entries.distinct (OrReference.all Link.distinct) c.links &&
    Entries.distinct (OrReference.all Callback.distinct) c.callbacks &&
    Entries.distinct (OrReference.all PathItem.distinct) c.pathItems

def withoutNulls (c : Components) : Components :=
  { c with
    schemas := Entries.mapValues SchemaObject.refWithoutNulls c.schemas
    responses := Entries.mapValues (OrReference.map Response.withoutNulls) c.responses
    parameters := Entries.mapValues (OrReference.map Parameter.withoutNulls) c.parameters
    examples := Entries.mapValues (OrReference.map Example.withoutNulls) c.examples
    requestBodies := Entries.mapValues (OrReference.map RequestBody.withoutNulls) c.requestBodies
    headers := Entries.mapValues (OrReference.map Header.withoutNulls) c.headers
    callbacks := Entries.mapValues (OrReference.map Callback.withoutNulls) c.callbacks
    pathItems := Entries.mapValues (OrReference.map PathItem.withoutNulls) c.pathItems }

theorem toJson_eq (c : Components) : c.toJson = Json.record [
    ("schemas", Json.nonEmpty? (Json.mapOf SchemaObject.refToJson) c.schemas),
    ("responses", Json.nonEmpty? (Json.mapOf (OrReference.toJson Response.toJson)) c.responses),
    ("parameters", Json.nonEmpty? (Json.mapOf (OrReference.toJson Parameter.toJson)) c.parameters),
    ("examples", Json.nonEmpty? (Json.mapOf (OrReference.toJson Example.toJson)) c.examples),
    ("requestBodies",
      Json.nonEmpty? (Json.mapOf (OrReference.toJson RequestBody.toJson)) c.requestBodies),
    ("headers", Json.nonEmpty? (Json.mapOf (OrReference.toJson Header.toJson)) c.headers),
    ("securitySchemes",
      Json.nonEmpty? (Json.mapOf (OrReference.toJson SecurityScheme.toJson)) c.securitySchemes),
    ("links", Json.nonEmpty? (Json.mapOf (OrReference.toJson Link.toJson)) c.links),
    ("callbacks", Json.nonEmpty? (Json.mapOf (OrReference.toJson Callback.toJson)) c.callbacks),
    ("pathItems",
      Json.nonEmpty? (Json.mapOf (OrReference.toJson PathItem.toJson)) c.pathItems)] := by
  simp [toJson, Json.record, Json.present]

theorem readsAs (c : Components) (h : c.distinct = true) :
    ReadsAs ofData? c.toJson c.withoutNulls := by
  simp only [distinct, Bool.and_eq_true] at h
  obtain ⟨⟨⟨⟨⟨⟨⟨⟨⟨hschemas, hresponses⟩, hparameters⟩, hexamples⟩, hbodies⟩, hheaders⟩, hschemes⟩,
    hlinks⟩, hcallbacks⟩, hitems⟩ := h
  rw [toJson_eq]
  refine .record (fun _ => rfl) rfl (by decide) ?_
  rintro r ⟨schemas, responses, parameters, examples, bodies, headers, schemes, links, callbacks,
    items, -⟩
  simp only [
    Record.withDefault?_of_get? schemas rfl
      (.mapOf_of_distinct hschemas fun _ => SchemaObject.refReadsAs),
    Record.withDefault?_of_get? responses rfl (.components hresponses Response.readsInPlace),
    Record.withDefault?_of_get? parameters rfl (.components hparameters Parameter.readsInPlace),
    Record.withDefault?_of_get? examples rfl (.components hexamples Example.readsInPlace),
    Record.withDefault?_of_get? bodies rfl (.components hbodies RequestBody.readsInPlace),
    Record.withDefault?_of_get? headers rfl (.components hheaders Header.readsInPlace),
    Record.withDefault?_of_get? schemes rfl (.components hschemes SecurityScheme.readsInPlace),
    Record.withDefault?_of_get? links rfl (.components hlinks Link.readsInPlace),
    Record.withDefault?_of_get? callbacks rfl (.components hcallbacks Callback.readsInPlace),
    Record.withDefault?_of_get? items rfl (.components hitems PathItem.readsInPlace),
    withoutNulls, OrReference.map_id, Entries.mapValues_id, Option.bind_eq_bind, Option.bind_some,
    Option.pure_def]

theorem eq_of_isEmpty {c : Components} (h : c.isEmpty = true) : c = {} := by
  obtain ⟨schemas, responses, parameters, examples, bodies, headers, schemes, links, callbacks,
    items⟩ := c
  simpa [isEmpty, and_assoc] using h

end Components

/-! ## The document -/

namespace OpenApi

/-- No map in the document lists a key twice. -/
def distinct (o : OpenApi) : Bool :=
  o.servers.all Server.distinct && Entries.distinct PathItem.distinct o.paths &&
    Entries.distinct PathItem.distinct o.webhooks && o.components.distinct &&
    o.security.all SecurityRequirement.distinct

/-- The document without nulls where a value may be missing. -/
def withoutNulls (o : OpenApi) : OpenApi :=
  { o with
    paths := Entries.mapValues PathItem.withoutNulls o.paths
    webhooks := Entries.mapValues PathItem.withoutNulls o.webhooks
    components := o.components.withoutNulls }

/-- The written components, unless there are none. -/
def componentsField (c : Components) : Option Json := if c.isEmpty then none else some c.toJson

@[simp] theorem member?_componentsField (c : Components) :
    Json.member? "components" id (componentsField c) = componentsMember c := by
  unfold componentsField componentsMember
  split <;> rfl

theorem toJson_eq (o : OpenApi) : o.toJson = Json.record [("openapi", some (.string o.openapi)),
    ("info", some o.info.toJson), ("jsonSchemaDialect", o.jsonSchemaDialect.map .string),
    ("servers", Json.nonEmpty? (Json.listOf Server.toJson) o.servers),
    ("paths", some (Json.mapOf PathItem.toJson o.paths)),
    ("webhooks", Json.nonEmpty? (Json.mapOf PathItem.toJson) o.webhooks),
    ("components", componentsField o.components),
    ("security", Json.nonEmpty? (Json.listOf SecurityRequirement.toJson) o.security),
    ("tags", Json.nonEmpty? (Json.listOf Tag.toJson) o.tags),
    ("externalDocs", o.externalDocs.map ExternalDocs.toJson)] := by
  simp [toJson, Json.record, Json.present]

/-- Components that are left out are none. -/
theorem components_of_get? {c : Components} (h : c.distinct = true) {r : Record}
    (hget : Entries.get? r.fields "components" = (componentsField c).map Data.ofJson) :
    r.withDefault? "components" {} Components.ofData? = some c.withoutNulls := by
  by_cases hempty : c.isEmpty = true
  · obtain rfl := Components.eq_of_isEmpty hempty
    simp only [Record.withDefault?, hget]
    rfl
  · rw [componentsField, if_neg hempty] at hget
    exact Record.withDefault?_of_some hget (c.readsAs h)

/-- Reading a written document back loses nothing but nulls: the reader accepts what the document is
written as, and gives the document with each null under `const`, `default`, `example` and `value`
missing and with everything else as it was. -/
theorem ofData?_ofJson_toJson (d : OpenApi) (h : d.distinct = true) :
    ofData? (Data.ofJson d.toJson) = some d.withoutNulls := by
  simp only [distinct, Bool.and_eq_true] at h
  obtain ⟨⟨⟨⟨hservers, hpaths⟩, hwebhooks⟩, hcomponents⟩, hsecurity⟩ := h
  have hserver := ReadsAs.listOf fun s hs =>
    (Server.readsAs s (List.all_eq_true.1 hservers s hs)).reads
  have htag := ReadsAs.listOf fun t (_ : t ∈ d.tags) => (Tag.readsAs t).reads
  rw [toJson_eq]
  refine (ReadsAs.record (fun _ => rfl) rfl (by decide) ?_).reads
  rintro r ⟨version, info, dialect, servers, paths, webhooks, components, security, tags, docs, -⟩
  simp only [Record.required?_of_get? version (.text _),
    Record.required?_of_get? info (Info.readsAs _), Record.optional?_text dialect,
    Record.withDefault?_of_get? servers rfl hserver,
    Record.withDefault?_of_some paths (PathItem.map_readsAs hpaths),
    Record.withDefault?_of_get? webhooks rfl (PathItem.map_readsAs hwebhooks),
    components_of_get? hcomponents components,
    Record.withDefault?_of_get? security rfl (SecurityRequirement.list_readsAs hsecurity),
    Record.withDefault?_of_get? tags rfl htag, Record.optional?_self docs ExternalDocs.readsAs,
    withoutNulls, List.map_id', Option.bind_eq_bind, Option.bind_some, Option.pure_def]

/-- Orders with `value` in every place where a value may be missing: in a schema, inside its
properties, in a parameter, a media type and an example. -/
def orders (value : Option Json) : OpenApi where
  info := { title := "Orders", version := "1" }
  servers := [{ url := "https://orders.test", placeholders := [("region", { default := "eu" })] }]
  paths := [("/orders", {
    post := some {
      parameters := [.inline
        { name := "dry", location := .query, required := false, sample := value }]
      responses := [("201", .inline {
        description := "Created"
        content := [("application/json", {
          schema := some (.schema "Order")
          sample := value
          examples := [("first", .inline { value := value })] })]
        links := [("next", .inline { parameters := [("cursor", .null)] })] })]
      security := some [[("token", ["write"])], []] } })]
  components := {
    schemas := [("Order", .inline (.mk { enumeration := some [.null], constant := value }
      [("note", .inline (.mk { default := value, sample := value } [] none [] [] [] none)),
        ("buyer", .schema "User")] none [] [] [] none))]
    securitySchemes := [("token", .inline (.oauth2 { implicit := some {} } none))]
    callbacks := [("paid", .inline [("$ref", { get := some {} })])] }
  tags := [{ name := "orders" }]

theorem ofData?_ofJson_toJson_orders : (orders (some .null)).distinct = true ∧
    ofData? (Data.ofJson (orders (some .null)).toJson) = some (orders none) :=
  ⟨by decide, ofData?_ofJson_toJson (orders (some .null)) (by decide)⟩

end OpenApi

end ApiDescription
