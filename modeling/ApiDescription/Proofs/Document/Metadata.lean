import ApiDescription.Document.Metadata
import ApiDescription.Proofs.Data.ReadBack

/-!
# Reading metadata back

The information object, the servers, the tags and the links to further documentation are read back as
they were written.
-/

set_option autoImplicit false

namespace ApiDescription

/-! ## Contact and licence -/

namespace Contact

theorem toJson_eq (c : Contact) : c.toJson = Json.record [("name", c.name.map .string),
    ("url", c.url.map .string), ("email", c.email.map .string)] := by
  simp [toJson, Json.record, Json.present]

theorem readsAs (c : Contact) : ReadsAs ofData? c.toJson c := by
  rw [toJson_eq]
  refine .record (fun _ => rfl) rfl (by decide) ?_
  rintro r ⟨hname, hurl, hemail, -⟩
  simp only [Record.optional?_text hname, Record.optional?_text hurl, Record.optional?_text hemail,
    Option.bind_eq_bind, Option.bind_some, Option.pure_def]

end Contact

namespace License

theorem toJson_eq (l : License) : l.toJson = Json.record [("name", some (.string l.name)),
    ("identifier", l.identifier.map .string), ("url", l.url.map .string)] := by
  simp [toJson, Json.record, Json.present]

theorem readsAs (l : License) : ReadsAs ofData? l.toJson l := by
  rw [toJson_eq]
  refine .record (fun _ => rfl) rfl (by decide) ?_
  rintro r ⟨hname, hidentifier, hurl, -⟩
  simp only [Record.required?_of_get? hname (.text _), Record.optional?_text hidentifier,
    Record.optional?_text hurl, Option.bind_eq_bind, Option.bind_some, Option.pure_def]

end License

/-! ## Further documentation and tags -/

namespace ExternalDocs

theorem toJson_eq (e : ExternalDocs) : e.toJson = Json.record [
    ("description", e.description.map .string), ("url", some (.string e.url))] := by
  simp [toJson, Json.record, Json.present]

theorem readsAs (e : ExternalDocs) : ReadsAs ofData? e.toJson e := by
  rw [toJson_eq]
  refine .record (fun _ => rfl) rfl (by decide) ?_
  rintro r ⟨hdescription, hurl, -⟩
  simp only [Record.optional?_text hdescription, Record.required?_of_get? hurl (.text _),
    Option.bind_eq_bind, Option.bind_some, Option.pure_def]

end ExternalDocs

namespace Tag

theorem toJson_eq (t : Tag) : t.toJson = Json.record [("name", some (.string t.name)),
    ("description", t.description.map .string),
    ("externalDocs", t.externalDocs.map ExternalDocs.toJson)] := by
  simp [toJson, Json.record, Json.present]

theorem readsAs (t : Tag) : ReadsAs ofData? t.toJson t := by
  rw [toJson_eq]
  refine .record (fun _ => rfl) rfl (by decide) ?_
  rintro r ⟨hname, hdescription, hdocs, -⟩
  simp only [Record.required?_of_get? hname (.text _), Record.optional?_text hdescription,
    Record.optional?_self hdocs ExternalDocs.readsAs, Option.bind_eq_bind, Option.bind_some,
    Option.pure_def]

end Tag

/-! ## Information -/

namespace Info

theorem toJson_eq (i : Info) : i.toJson = Json.record [("title", some (.string i.title)),
    ("summary", i.summary.map .string), ("description", i.description.map .string),
    ("termsOfService", i.termsOfService.map .string), ("contact", i.contact.map Contact.toJson),
    ("license", i.license.map License.toJson), ("version", some (.string i.version))] := by
  simp [toJson, Json.record, Json.present]

theorem readsAs (i : Info) : ReadsAs ofData? i.toJson i := by
  rw [toJson_eq]
  refine .record (fun _ => rfl) rfl (by decide) ?_
  rintro r ⟨htitle, hsummary, hdescription, hterms, hcontact, hlicense, hversion, -⟩
  simp only [Record.required?_of_get? htitle (.text _), Record.optional?_text hsummary,
    Record.optional?_text hdescription, Record.optional?_text hterms,
    Record.optional?_self hcontact Contact.readsAs,
    Record.optional?_self hlicense License.readsAs, Record.required?_of_get? hversion (.text _),
    Option.bind_eq_bind, Option.bind_some, Option.pure_def]

end Info

/-! ## Servers -/

namespace ServerVariable

theorem toJson_eq (v : ServerVariable) : v.toJson = Json.record [
    ("enum", v.choices.map (Json.listOf .string)), ("default", some (.string v.default)),
    ("description", v.description.map .string)] := by
  simp [toJson, Json.record, Json.present]

theorem readsAs (v : ServerVariable) : ReadsAs ofData? v.toJson v := by
  rw [toJson_eq]
  refine .record (fun _ => rfl) rfl (by decide) ?_
  rintro r ⟨hchoices, hdefault, hdescription, -⟩
  simp only [Record.optional?_self hchoices .texts, Record.required?_of_get? hdefault (.text _),
    Record.optional?_text hdescription, Option.bind_eq_bind, Option.bind_some, Option.pure_def]

end ServerVariable

namespace Server

/-- No variable is listed twice. -/
def distinct (s : Server) : Bool := Entries.distinct (fun _ => true) s.placeholders

theorem toJson_eq (s : Server) : s.toJson = Json.record [("url", some (.string s.url)),
    ("description", s.description.map .string),
    ("variables", Json.nonEmpty? (Json.mapOf ServerVariable.toJson) s.placeholders)] := by
  simp [toJson, Json.record, Json.present]

theorem readsAs (s : Server) (h : s.distinct = true) : ReadsAs ofData? s.toJson s := by
  rw [toJson_eq]
  refine .record (fun _ => rfl) rfl (by decide) ?_
  rintro r ⟨hurl, hdescription, hvariables, -⟩
  simp only [Record.required?_of_get? hurl (.text _), Record.optional?_text hdescription,
    Record.withDefault?_of_get? hvariables rfl (.mapOf_of_distinct h fun v _ => v.readsAs),
    Entries.mapValues_id, Option.bind_eq_bind, Option.bind_some, Option.pure_def]

end Server

end ApiDescription
