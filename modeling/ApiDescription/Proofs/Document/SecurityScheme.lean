import ApiDescription.Document.SecurityScheme
import ApiDescription.Proofs.Document.Reference

/-!
# Reading security back

Requirements, flows and schemes are read back as they were written. A scheme is written with its kind
as the first field, which its reader takes off before it reads the others
(`SecurityScheme.splitKind?_record`).
-/

set_option autoImplicit false

namespace ApiDescription

namespace SecurityRequirement

/-- No scheme is listed twice. -/
def distinct (r : SecurityRequirement) : Bool := decide (Entries.keys r).Nodup

theorem readsAs (r : SecurityRequirement) (h : r.distinct = true) : ReadsAs ofData? r.toJson r := by
  have hread := ReadsAs.mapOf (of_decide_eq_true h) fun _ scopes _ => (ReadsAs.texts scopes).reads
  rw [Entries.mapValues_id] at hread
  exact hread

theorem list_readsAs {rs : List SecurityRequirement} (h : rs.all distinct = true) :
    ReadsAs (Data.listOf? ofData?) (Json.listOf toJson rs) rs := by
  have hread := ReadsAs.listOf fun r hr => (readsAs r (List.all_eq_true.1 h r hr)).reads
  rw [List.map_id'] at hread
  exact hread

end SecurityRequirement

/-! ## Flows -/

namespace OAuthFlow

/-- No scope is listed twice. -/
def distinct (f : OAuthFlow) : Bool := decide (Entries.keys f.scopes).Nodup

theorem toJson_eq (f : OAuthFlow) : f.toJson = Json.record [
    ("authorizationUrl", f.authorizationUrl.map .string), ("tokenUrl", f.tokenUrl.map .string),
    ("refreshUrl", f.refreshUrl.map .string), ("scopes", some (Json.mapOf .string f.scopes))] := by
  simp [toJson, Json.record, Json.present]

theorem readsAs (f : OAuthFlow) (h : f.distinct = true) : ReadsAs ofData? f.toJson f := by
  have hscopes := ReadsAs.mapOf (of_decide_eq_true h) fun _ text _ => (ReadsAs.text text).reads
  rw [Entries.mapValues_id] at hscopes
  rw [toJson_eq]
  refine .record (fun _ => rfl) rfl (by decide) ?_
  rintro r ⟨authorizationUrl, tokenUrl, refreshUrl, scopes, -⟩
  simp only [Record.optional?_text authorizationUrl, Record.optional?_text tokenUrl,
    Record.optional?_text refreshUrl, Record.withDefault?_of_some scopes hscopes,
    Option.bind_eq_bind, Option.bind_some, Option.pure_def]

end OAuthFlow

namespace OAuthFlows

/-- No flow lists a scope twice. -/
def distinct (f : OAuthFlows) : Bool :=
  f.implicit.all OAuthFlow.distinct && f.password.all OAuthFlow.distinct &&
    f.clientCredentials.all OAuthFlow.distinct && f.authorizationCode.all OAuthFlow.distinct

theorem toJson_eq (f : OAuthFlows) : f.toJson = Json.record [
    ("implicit", f.implicit.map OAuthFlow.toJson), ("password", f.password.map OAuthFlow.toJson),
    ("clientCredentials", f.clientCredentials.map OAuthFlow.toJson),
    ("authorizationCode", f.authorizationCode.map OAuthFlow.toJson)] := by
  simp [toJson, Json.record, Json.present]

theorem readsAs (f : OAuthFlows) (h : f.distinct = true) : ReadsAs ofData? f.toJson f := by
  simp only [distinct, Bool.and_eq_true, Option.all_eq_true] at h
  obtain ⟨⟨⟨himplicit, hpassword⟩, hclient⟩, hcode⟩ := h
  rw [toJson_eq]
  refine .record (fun _ => rfl) rfl (by decide) ?_
  rintro r ⟨implicit, password, client, code, -⟩
  simp only [Record.optional?_of_get? implicit fun f hf => f.readsAs (himplicit f hf),
    Record.optional?_of_get? password fun f hf => f.readsAs (hpassword f hf),
    Record.optional?_of_get? client fun f hf => f.readsAs (hclient f hf),
    Record.optional?_of_get? code fun f hf => f.readsAs (hcode f hf),
    Option.map_id', Option.bind_eq_bind, Option.bind_some, Option.pure_def]

end OAuthFlows

/-! ## Schemes -/

theorem ApiKeyLocation.ofName?_name (l : ApiKeyLocation) : ofName? l.name = some l := by
  cases l <;> decide

namespace SecurityScheme

/-- No flow of the scheme lists a scope twice. -/
def distinct : SecurityScheme → Bool
  | .oauth2 flows _ => flows.distinct
  | _ => true

/-- The kind of the scheme, as its written form names it. -/
def kind : SecurityScheme → String
  | .apiKey .. => "apiKey"
  | .http .. => "http"
  | .oauth2 .. => "oauth2"
  | .openIdConnect .. => "openIdConnect"
  | .mutualTls .. => "mutualTLS"

/-- The fields behind the kind. -/
def fields : SecurityScheme → List (String × Option Json)
  | .apiKey name location description => [("name", some (.string name)),
      ("in", some (.string location.name)), ("description", description.map .string)]
  | .http scheme bearerFormat description => [("scheme", some (.string scheme)),
      ("bearerFormat", bearerFormat.map .string), ("description", description.map .string)]
  | .oauth2 flows description =>
    [("flows", some flows.toJson), ("description", description.map .string)]
  | .openIdConnect url description =>
    [("openIdConnectUrl", some (.string url)), ("description", description.map .string)]
  | .mutualTls description => [("description", description.map .string)]

theorem toJson_eq (s : SecurityScheme) :
    s.toJson = Json.record (("type", some (.string s.kind)) :: s.fields) := by
  cases s <;> simp [toJson, Json.record, Json.present, kind, fields]

/-- The names of the fields are distinct, and none is that of the kind or of a reference. -/
theorem nodup_keys_fields (s : SecurityScheme) :
    (Entries.keys (("type", some (.string s.kind)) :: s.fields)).Nodup ∧
      "$ref" ∉ Entries.keys (("type", some (.string s.kind)) :: s.fields) := by
  cases s <;> simp [Entries.keys, fields]

theorem splitKind?_record (kind : String) {fields : List (String × Option Json)}
    (h : "type" ∉ Entries.keys fields) :
    splitKind? (Data.ofJson (Json.record (("type", some (.string kind)) :: fields))) =
      some (kind, Data.ofJson (Json.record fields)) := by
  have hother : ∀ e ∈ Data.ofMembers (Json.present fields),
      (e.1 == some "type") = false := by
    rw [Data.ofMembers_eq_map]
    rintro e he
    obtain ⟨m, hm, rfl⟩ := List.mem_map.1 he
    have hkey := (Json.keys_present_sublist fields).subset (Entries.mem_keys_of_mem hm)
    exact beq_false_of_ne fun heq => h (Option.some.inj heq ▸ hkey)
  have hnone := List.filter_eq_nil_iff.2 fun e he => ne_true_of_eq_false (hother e he)
  have hall := List.filter_eq_self.2 fun e he => congrArg not (hother e he)
  simp only [Json.record, Json.present_cons_some, Data.ofJson, Data.ofMembers, splitKind?,
    beq_self_eq_true, List.filter_cons_of_pos, hnone, hall, Data.text?, Scalar.text?,
    Option.map_some, Bool.not_true, Bool.false_eq_true, not_false_eq_true, List.filter_cons_of_neg]

/-- The fields are read back once the kind is known. -/
theorem ofFields?_fields {s : SecurityScheme} (h : s.distinct = true) :
    ofFields? s.kind (Data.ofJson (Json.record s.fields)) = some s := by
  cases s with
  | apiKey name location description =>
    refine (ReadsAs.record (fun _ => rfl) rfl (by decide) ?_).reads
    rintro r ⟨hname, hlocation, hdescription, -⟩
    simp only [Record.required?_of_get? hname (.text _),
      Record.required?_of_get? hlocation (.name location.ofName?_name),
      Record.optional?_text hdescription, Option.bind_eq_bind, Option.bind_some, Option.pure_def]
  | http scheme bearerFormat description =>
    refine (ReadsAs.record (fun _ => rfl) rfl (by decide) ?_).reads
    rintro r ⟨hscheme, hformat, hdescription, -⟩
    simp only [Record.required?_of_get? hscheme (.text _), Record.optional?_text hformat,
      Record.optional?_text hdescription, Option.bind_eq_bind, Option.bind_some, Option.pure_def]
  | oauth2 flows description =>
    refine (ReadsAs.record (fun _ => rfl) rfl (by decide) ?_).reads
    rintro r ⟨hflows, hdescription, -⟩
    simp only [Record.required?_of_get? hflows (flows.readsAs h),
      Record.optional?_text hdescription, Option.bind_eq_bind, Option.bind_some, Option.pure_def]
  | openIdConnect url description =>
    refine (ReadsAs.record (fun _ => rfl) rfl (by decide) ?_).reads
    rintro r ⟨hurl, hdescription, -⟩
    simp only [Record.required?_of_get? hurl (.text _), Record.optional?_text hdescription,
      Option.bind_eq_bind, Option.bind_some, Option.pure_def]
  | mutualTls description =>
    refine (ReadsAs.record (fun _ => rfl) rfl (by decide) ?_).reads
    rintro r ⟨hdescription, -⟩
    simp only [Record.optional?_text hdescription, Option.bind_eq_bind, Option.bind_some,
      Option.pure_def]

theorem readsInPlace (s : SecurityScheme) (h : s.distinct = true) :
    ReadsInPlace ofData? s.toJson s := by
  obtain ⟨hnodup, href⟩ := s.nodup_keys_fields
  have htype : "type" ∉ Entries.keys s.fields := (List.nodup_cons.1 hnodup).1
  rw [toJson_eq]
  refine ⟨⟨nofun, ?_⟩, OrReference.target?_record hnodup href⟩
  simp only [ofData?, Data.typed?_ofJson, splitKind?_record s.kind htype, ofFields?_fields h,
    Option.bind_eq_bind, Option.bind_some]

end SecurityScheme

end ApiDescription
