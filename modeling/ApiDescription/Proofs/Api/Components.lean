import Mathlib.Data.List.Perm.Basic
import ApiDescription.Proofs.Api.Emit
import ApiDescription.Proofs.Document.OpenApi
import ApiDescription.Proofs.Json.Table

/-!
# Components in any order

A component is stored under its kind and its key by the first of its registrations, and the later ones are compared
with that one. By content the components are a table whose rows are the kinds (`Components.rows`), and after
registrations that were all accepted the table holds the content of the first one of each kind and key
(`Gathers`). Comparing contents is an equivalence, so it does not matter which one is the first
(`registrable_concat_iff`, `Gathers.sameFound`).
-/

set_option autoImplicit false

namespace ApiDescription

/-! ## Maps that are filled by registrations -/

namespace Entries

variable {α : Type} {write : α → Json} {kind key : String} {value old : α} {es : List (String × α)}

theorem register_of_get?_eq_none (h : get? es key = none) :
    register write kind key value es = .ok (put es key value) := by
  simp only [register, h, put_of_get?_eq_none h]

theorem register_of_get?_eq_some (h : get? es key = some old) : register write kind key value es =
    if (write old).same (write value) = true then .ok es else .error (.divergentComponent kind key) := by
  simp only [register, h]

end Entries

namespace Component

/-- What is written of the component, by which it is compared. -/
def written : Component → Json
  | .schema s => s.toJson
  | .response r => r.toJson
  | .parameter p => p.toJson
  | .example e => e.toJson
  | .requestBody b => b.toJson
  | .header h => h.toJson
  | .securityScheme s => s.toJson
  | .link l => l.toJson
  | .callback c => c.toJson
  | .pathItem p => p.toJson

end Component

/-! ## The table of the components -/

namespace Components

/-- The written components of each kind. -/
def rows (cs : Components) : List (String × List (String × Json)) := [
  ("schemas", Entries.mapValues SchemaObject.refToJson cs.schemas),
  ("responses", Entries.mapValues (OrReference.toJson Response.toJson) cs.responses),
  ("parameters", Entries.mapValues (OrReference.toJson Parameter.toJson) cs.parameters),
  ("examples", Entries.mapValues (OrReference.toJson Example.toJson) cs.examples),
  ("requestBodies", Entries.mapValues (OrReference.toJson RequestBody.toJson) cs.requestBodies),
  ("headers", Entries.mapValues (OrReference.toJson Header.toJson) cs.headers),
  ("securitySchemes", Entries.mapValues (OrReference.toJson SecurityScheme.toJson) cs.securitySchemes),
  ("links", Entries.mapValues (OrReference.toJson Link.toJson) cs.links),
  ("callbacks", Entries.mapValues (OrReference.toJson Callback.toJson) cs.callbacks),
  ("pathItems", Entries.mapValues (OrReference.toJson PathItem.toJson) cs.pathItems)]

/-- The components are written as the table without its empty rows. -/
theorem toJson_eq_ofTable (cs : Components) : cs.toJson = Json.ofTable (Entries.filledRows cs.rows) := by
  have hmember {α : Type} (kind : String) (write : α → Json) (es : List (String × α))
      (table : List (String × List (String × Json))) :
      (Entries.filledRows ((kind, Entries.mapValues write es) :: table)).map
          (fun e => (e.1, Json.object e.2)) =
        Json.mapMember kind write es ++
          (Entries.filledRows table).map fun e => (e.1, Json.object e.2) := by
    cases es <;> rfl
  rw [Json.ofTable, rows]
  simp only [hmember, toJson]
  simp [Entries.filledRows]

variable {cs : Components} {key : String}

/-- The map that a component is put into, and what a put makes of the table. -/
theorem exists_insert_eq (cs : Components) (key : String) (c : Component) :
    ∃ (α : Type) (write : α → Json) (value : α) (es : List (String × α)) (set : List (String × α) → Components),
      cs.insert key c = (Entries.register write c.kind key value es).map set ∧ write value = c.written ∧
        set es = cs ∧ Entries.get? cs.rows c.kind = some (Entries.mapValues write es) ∧
        ∀ es', (set es').rows = Entries.put cs.rows c.kind (Entries.mapValues write es') := by
  cases c <;> exact ⟨_, _, _, _, _, rfl, rfl, rfl, rfl, fun _ => rfl⟩

theorem insert_of_at?_eq_none {c : Component} (h : Entries.at? cs.rows c.kind key = none) :
    ∃ cs', cs.insert key c = .ok cs' ∧ cs'.rows = Entries.putAt cs.rows c.kind key c.written := by
  obtain ⟨α, write, value, es, set, hinsert, hwritten, -, hrow, hput⟩ := exists_insert_eq cs key c
  have hnone : Entries.get? es key = none := by
    rwa [Entries.at?, hrow, Option.bind_some, Entries.get?_mapValues, Option.map_eq_none_iff] at h
  refine ⟨set (Entries.put es key value), ?_, ?_⟩
  · rw [hinsert, Entries.register_of_get?_eq_none hnone]
    rfl
  · rw [hput, Entries.mapValues_put, hwritten, Entries.putAt, hrow, Option.getD_some]

theorem insert_of_at?_eq_some {c : Component} {old : Json} (h : Entries.at? cs.rows c.kind key = some old) :
    cs.insert key c =
      if old.same c.written = true then .ok cs else .error (.divergentComponent c.kind key) := by
  obtain ⟨α, write, value, es, set, hinsert, hwritten, hself, hrow, -⟩ := exists_insert_eq cs key c
  rw [Entries.at?, hrow, Option.bind_some, Entries.get?_mapValues] at h
  obtain ⟨first, hfirst, rfl⟩ := Option.map_eq_some_iff.1 h
  rw [hinsert, Entries.register_of_get?_eq_some hfirst, hwritten]
  split
  · exact congrArg Except.ok hself
  · rfl

theorem eq_nil_of_mem_rows_empty {e : String × List (String × Json)} (h : e ∈ rows {}) : e.2 = [] := by
  simp only [rows, List.mem_cons, List.not_mem_nil, or_false] at h
  rcases h with rfl | rfl | rfl | rfl | rfl | rfl | rfl | rfl | rfl | rfl <;> rfl

theorem tidy_rows_empty : Entries.Tidy (rows {}) := by
  refine ⟨by decide, fun e he => ?_⟩
  rw [eq_nil_of_mem_rows_empty he]
  exact List.nodup_nil

/-- Components whose tables find the same are written the same, up to the order of keys. -/
theorem same_toJson {cs' : Components} (h : Entries.Tidy cs.rows) (h' : Entries.Tidy cs'.rows)
    (hfound : ∀ kind key, Json.SameFound (Entries.at? cs.rows kind key) (Entries.at? cs'.rows kind key)) :
    cs.toJson.same cs'.toJson = true := by
  rw [toJson_eq_ofTable, toJson_eq_ofTable]
  refine Json.same_table h.filledRows h'.filledRows (Entries.filled_filledRows _)
    (Entries.filled_filledRows _) ?_
  intro kind key
  rw [Entries.at?_filledRows h.1, Entries.at?_filledRows h'.1]
  exact hfound kind key

end Components

/-! ## Registrations that can be accepted -/

namespace Component

/-- The character may stand in a key: `[A-Za-z0-9._-]`. -/
def IsKeyChar (c : Char) : Prop :=
  'A' ≤ c ∧ c ≤ 'Z' ∨ 'a' ≤ c ∧ c ≤ 'z' ∨ '0' ≤ c ∧ c ≤ '9' ∨ c = '.' ∨ c = '_' ∨ c = '-'

theorem isValidKey_iff {key : String} :
    isValidKey key = true ↔ key ≠ "" ∧ ∀ c ∈ key.toList, IsKeyChar c := by
  have hchar (c : Char) : (c.isAlphanum || c = '.' || c = '_' || c = '-') = true ↔ IsKeyChar c := by
    have hupper : c.isUpper = true ↔ 'A' ≤ c ∧ c ≤ 'Z' := decide_eq_true_iff
    have hlower : c.isLower = true ↔ 'a' ≤ c ∧ c ≤ 'z' :=
      Bool.and_eq_true_iff.trans (and_congr decide_eq_true_iff decide_eq_true_iff)
    have hdigit : c.isDigit = true ↔ '0' ≤ c ∧ c ≤ '9' :=
      Bool.and_eq_true_iff.trans (and_congr decide_eq_true_iff decide_eq_true_iff)
    have halphanum : c.isAlphanum = (c.isUpper || c.isLower || c.isDigit) := rfl
    simp only [halphanum, Bool.or_eq_true, hupper, hlower, hdigit, decide_eq_true_eq, or_assoc, IsKeyChar]
  rw [isValidKey, Bool.and_eq_true, List.all_eq_true]
  simp only [hchar]
  simp

/-- The component and its key are in order, whatever else is registered. -/
structure Valid (key : String) (c : Component) : Prop where
  key : key ≠ "" ∧ ∀ c ∈ key.toList, IsKeyChar c
  schema : ∀ s, c = .schema s → s.check = .ok ()
  examples : ∀ s, c = .schema s → ∀ place t, s.Node place t →
    ¬ (t.facets.sample ≠ none ∧ t.facets.examples ≠ [])
  scheme : ∀ s, c = .securityScheme s → s.check = .ok ()

theorem valid_iff {key : String} {c : Component} :
    c.Valid key ↔ c.check key = .ok () ∧ isValidKey key = true := by
  have hcheck : c.check key = .ok () ↔ (∀ s, c = .schema s → s.check = .ok ()) ∧
      (∀ s, c = .schema s → s.exampleConflict? = none) ∧ ∀ s, c = .securityScheme s → s.check = .ok () := by
    cases c with
    | schema s =>
      cases hs : s.check <;> cases hexamples : s.exampleConflict? <;> simp [check, hs, hexamples]
    | securityScheme s => cases hs : s.check <;> simp [check, hs]
    | _ => simp [check]
  simp only [hcheck, isValidKey_iff, Schema.exampleConflict?_eq_none_iff,
    Schema.hasBothExamples_eq_false_iff]
  constructor
  · exact fun h => ⟨⟨h.schema, h.examples, h.scheme⟩, h.key⟩
  · exact fun ⟨⟨hschema, hexamples, hscheme⟩, hkey⟩ => ⟨hkey, hschema, hexamples, hscheme⟩

end Component

namespace Components

variable {cs cs' : Components} {key : String} {c : Component}

theorem register_of_valid (h : c.Valid key) : cs.register key c = cs.insert key c := by
  obtain ⟨hcheck, hkey⟩ := Component.valid_iff.1 h
  rw [register, hcheck, hkey]
  rfl

theorem valid_of_register (h : cs.register key c = .ok cs') : c.Valid key := by
  rw [register] at h
  cases hcheck : c.check key with
  | error e =>
    rw [hcheck] at h
    nomatch h
  | ok _ =>
    refine Component.valid_iff.2 ⟨hcheck, ?_⟩
    by_contra hkey
    rw [hcheck, Bool.eq_false_iff.2 hkey] at h
    nomatch h

end Components

/-- Registrations of components with their keys. -/
abbrev Registrations := List (String × Component)

namespace Registrations

variable {rs rs' : Registrations} {kind key : String} {r : String × Component}

/-- The first registration of a kind and a key. -/
def first? (rs : Registrations) (kind key : String) : Option (String × Component) :=
  rs.find? fun r => r.2.kind == kind && r.1 == key

theorem first?_eq_some (h : rs.first? kind key = some r) : r ∈ rs ∧ r.2.kind = kind ∧ r.1 = key := by
  refine ⟨List.mem_of_find?_eq_some h, ?_⟩
  simpa using List.find?_some h

theorem first?_eq_none_iff : rs.first? kind key = none ↔ ∀ r ∈ rs, ¬ (r.2.kind = kind ∧ r.1 = key) := by
  simp [first?]

theorem exists_first? (h : r ∈ rs) : ∃ f, rs.first? r.2.kind r.1 = some f := by
  by_contra hnone
  rw [← Option.ne_none_iff_exists', not_not, first?_eq_none_iff] at hnone
  exact hnone r h ⟨rfl, rfl⟩

theorem first?_concat (rs : Registrations) (r : String × Component) (kind key : String) :
    first? (rs ++ [r]) kind key =
      (rs.first? kind key).or (if r.2.kind = kind ∧ r.1 = key then some r else none) := by
  rw [first?, List.find?_append, List.find?_singleton]
  simp [first?]

/-- No component has a map that holds a key twice, which is so for ordered maps. -/
def Distinct (rs : Registrations) : Prop := ∀ r ∈ rs, r.2.written.distinct = true

/-- Every component and every key is in order, and what is registered under the same kind and key has the same
content. -/
structure Registrable (rs : Registrations) : Prop where
  valid : ∀ r ∈ rs, r.2.Valid r.1
  agree : ∀ r ∈ rs, ∀ r' ∈ rs, r.2.kind = r'.2.kind → r.1 = r'.1 → r.2.written.same r'.2.written = true

theorem registrable_nil : Registrable [] := ⟨by simp, by simp⟩

theorem Registrable.of_perm (h : rs.Registrable) (hperm : rs.Perm rs') : rs'.Registrable where
  valid r hr := h.valid r (hperm.mem_iff.2 hr)
  agree r hr r' hr' := h.agree r (hperm.mem_iff.2 hr) r' (hperm.mem_iff.2 hr')

/-- One more registration agrees with all others when it agrees with the first of its kind and key. -/
theorem registrable_concat_iff (hdistinct : Distinct (rs ++ [r])) : Registrable (rs ++ [r]) ↔
    rs.Registrable ∧ r.2.Valid r.1 ∧
      ∀ f, rs.first? r.2.kind r.1 = some f → f.2.written.same r.2.written = true := by
  have hlast : r ∈ rs ++ [r] := List.mem_append_right _ (List.mem_singleton.2 rfl)
  constructor
  · intro h
    refine ⟨⟨fun r' hr' => h.valid r' (List.mem_append_left _ hr'), ?_⟩, h.valid r hlast, ?_⟩
    · intro r' hr' r'' hr''
      exact h.agree r' (List.mem_append_left _ hr') r'' (List.mem_append_left _ hr'')
    · intro f hf
      obtain ⟨hmem, hkind, hkey⟩ := first?_eq_some hf
      exact h.agree f (List.mem_append_left _ hmem) r hlast hkind hkey
  · rintro ⟨h, hvalid, hfirst⟩
    -- every earlier registration is the same as the first one, and so the same as the new one
    have hsame : ∀ r' ∈ rs, r'.2.kind = r.2.kind → r'.1 = r.1 →
        r'.2.written.same r.2.written = true := by
      intro r' hr' hkind hkey
      obtain ⟨f, hf⟩ := exists_first? hr'
      obtain ⟨hmem, hkind', hkey'⟩ := first?_eq_some hf
      have hback := h.agree r' hr' f hmem hkind'.symm hkey'.symm
      rw [hkind, hkey] at hf
      exact Json.same_trans hback (hfirst f hf)
    constructor
    · intro r' hr'
      rcases List.mem_append.1 hr' with hr' | hr'
      · exact h.valid r' hr'
      · rw [List.mem_singleton.1 hr']
        exact hvalid
    · intro r' hr' r'' hr'' hkind hkey
      rcases List.mem_append.1 hr' with hold | hnew <;> rcases List.mem_append.1 hr'' with hold' | hnew'
      · exact h.agree r' hold r'' hold' hkind hkey
      · obtain rfl := List.mem_singleton.1 hnew'
        exact hsame r' hold hkind hkey
      · obtain rfl := List.mem_singleton.1 hnew
        exact Json.same_symm (hdistinct r'' hr'') (hdistinct r' hlast)
          (hsame r'' hold' hkind.symm hkey.symm)
      · obtain rfl := List.mem_singleton.1 hnew
        obtain rfl := List.mem_singleton.1 hnew'
        exact Json.same_refl (hdistinct r'' hlast)

/-- The components hold the content of the first registration of each kind and key, and no other. -/
structure Gathers (rs : Registrations) (cs : Components) : Prop where
  tidy : Entries.Tidy cs.rows
  at?_eq : ∀ kind key, Entries.at? cs.rows kind key = (rs.first? kind key).map fun r => r.2.written

section Gathers

variable {cs cs' : Components}

theorem gathers_nil : Gathers [] {} := by
  refine ⟨Components.tidy_rows_empty, fun kind key => ?_⟩
  cases hrow : Entries.get? (Components.rows {}) kind with
  | none => simp [Entries.at?, hrow, first?]
  | some row =>
    have hempty : row = [] := Components.eq_nil_of_mem_rows_empty (Entries.mem_of_get?_eq_some hrow)
    simp [Entries.at?, hrow, hempty, first?]

theorem Gathers.agree_of_register (h : rs.Gathers cs) (hr : cs.register r.1 r.2 = .ok cs') :
    r.2.Valid r.1 ∧ ∀ f, rs.first? r.2.kind r.1 = some f → f.2.written.same r.2.written = true := by
  have hvalid := Components.valid_of_register hr
  refine ⟨hvalid, fun f hf => ?_⟩
  have hat := h.at?_eq r.2.kind r.1
  rw [hf, Option.map_some] at hat
  rw [Components.register_of_valid hvalid, Components.insert_of_at?_eq_some hat] at hr
  by_contra hne
  rw [if_neg hne] at hr
  nomatch hr

theorem Gathers.register_of_agree (h : rs.Gathers cs) (hvalid : r.2.Valid r.1)
    (hagree : ∀ f, rs.first? r.2.kind r.1 = some f → f.2.written.same r.2.written = true) :
    ∃ cs', cs.register r.1 r.2 = .ok cs' ∧ Gathers (rs ++ [r]) cs' := by
  rw [Components.register_of_valid hvalid]
  have hat := h.at?_eq r.2.kind r.1
  cases hfirst : rs.first? r.2.kind r.1 with
  | none =>
    -- the new component is the first of its kind and key
    rw [hfirst, Option.map_none] at hat
    obtain ⟨cs', hinsert, hrows⟩ := Components.insert_of_at?_eq_none hat
    refine ⟨cs', hinsert, hrows ▸ h.tidy.putAt _ _ _, fun kind key => ?_⟩
    rw [hrows, first?_concat]
    by_cases hhere : r.2.kind = kind ∧ r.1 = key
    · obtain ⟨rfl, rfl⟩ := hhere
      simp [hfirst]
    · have hthere : (kind, key) ≠ (r.2.kind, r.1) := by
        rintro ⟨⟩
        exact hhere ⟨rfl, rfl⟩
      rw [Entries.at?_putAt_ne _ _ hthere, h.at?_eq, if_neg hhere, Option.or_none]
  | some f =>
    rw [hfirst, Option.map_some] at hat
    have hinsert := Components.insert_of_at?_eq_some hat
    rw [if_pos (hagree f hfirst)] at hinsert
    refine ⟨cs, hinsert, h.tidy, fun kind key => ?_⟩
    rw [h.at?_eq, first?_concat]
    by_cases hhere : r.2.kind = kind ∧ r.1 = key
    · obtain ⟨rfl, rfl⟩ := hhere
      simp [hfirst]
    · rw [if_neg hhere, Option.or_none]

theorem Gathers.exists_register_iff (h : rs.Gathers cs) : (∃ cs', cs.register r.1 r.2 = .ok cs') ↔
    r.2.Valid r.1 ∧ ∀ f, rs.first? r.2.kind r.1 = some f → f.2.written.same r.2.written = true := by
  constructor
  · rintro ⟨cs', hr⟩
    exact h.agree_of_register hr
  · rintro ⟨hvalid, hagree⟩
    obtain ⟨cs', hr, -⟩ := h.register_of_agree hvalid hagree
    exact ⟨cs', hr⟩

theorem Gathers.concat (h : rs.Gathers cs) (hr : cs.register r.1 r.2 = .ok cs') :
    Gathers (rs ++ [r]) cs' := by
  obtain ⟨hvalid, hagree⟩ := h.agree_of_register hr
  obtain ⟨cs'', hr', hgathers⟩ := h.register_of_agree hvalid hagree
  rw [hr] at hr'
  exact Except.ok.inj hr' ▸ hgathers

/-- Under each kind and key the written components have the content of the first registration, if there is any. -/
theorem Gathers.get?_toJson (h : rs.Gathers cs) (kind key : String) :
    (cs.toJson.get? kind).bind (·.get? key) = (rs.first? kind key).map fun r => r.2.written := by
  rw [Components.toJson_eq_ofTable, Json.at?_ofTable, Entries.at?_filledRows h.tidy.1, h.at?_eq]

/-- Which registration is the first makes no difference to the content. -/
theorem Gathers.sameFound (h : rs.Gathers cs) (h' : rs'.Gathers cs') (hrs : rs.Registrable)
    (hperm : rs.Perm rs') (kind key : String) :
    Json.SameFound (Entries.at? cs.rows kind key) (Entries.at? cs'.rows kind key) := by
  rw [h.at?_eq, h'.at?_eq]
  cases hfirst : rs.first? kind key with
  | none =>
    have hnone : rs'.first? kind key = none :=
      first?_eq_none_iff.2 fun r hr => first?_eq_none_iff.1 hfirst r (hperm.mem_iff.2 hr)
    rw [hnone]
    exact .none
  | some f =>
    obtain ⟨hf, rfl, rfl⟩ := first?_eq_some hfirst
    obtain ⟨f', hfirst'⟩ := exists_first? (hperm.mem_iff.1 hf)
    obtain ⟨hf', hkind, hkey⟩ := first?_eq_some hfirst'
    rw [hfirst']
    exact .some (hrs.agree f hf f' (hperm.mem_iff.2 hf') hkind.symm hkey.symm)

end Gathers

end Registrations

/-! ## Steps -/

namespace ApiStep

/-- The component that a step registers, with its key. -/
def component? : ApiStep → Option (String × Component)
  | .component name c => some (name, c)
  | _ => none

/-- The components that the steps register, in order. -/
def registrations (steps : List ApiStep) : Registrations := steps.filterMap component?

/-- The steps that register no component. -/
def others (steps : List ApiStep) : List ApiStep := steps.filter fun step => step.component?.isNone

theorem component?_eq_some {step : ApiStep} {r : String × Component} (h : step.component? = some r) :
    step = .component r.1 r.2 := by
  cases step with
  | component name c =>
    cases h
    rfl
  | _ => nomatch h

theorem registrations_concat (steps : List ApiStep) (step : ApiStep) :
    registrations (steps ++ [step]) = registrations steps ++ step.component?.toList := by
  rw [registrations, List.filterMap_append]
  cases h : step.component? <;> simp [registrations, h]

theorem others_concat (steps : List ApiStep) (step : ApiStep) :
    others (steps ++ [step]) = others steps ++ if step.component?.isNone then [step] else [] := by
  rw [others, List.filter_append, List.filter_singleton, Bool.cond_eq_ite]
  rfl

end ApiStep

namespace ApiDraft

variable {d o : ApiDraft} {steps : List ApiStep}

/-- A step that registers nothing does not look at the components. -/
theorem apply_withComponents {step : ApiStep} (h : step.component? = none) (d : ApiDraft) (cs : Components) :
    ({ d with components := cs } : ApiDraft).apply step = { d.apply step with components := cs } := by
  cases step with
  | component => nomatch h
  | license | server | webhook =>
    simp only [apply]
    split <;> rfl
  | _ => rfl

theorem apply_component_of_ok {r : String × Component} {cs : Components}
    (h : d.components.register r.1 r.2 = .ok cs) :
    d.apply (.component r.1 r.2) = { d with components := cs } := by
  rw [apply, h]

theorem errors_apply_component_iff {r : String × Component} :
    (d.apply (.component r.1 r.2)).errors = [] ↔
      d.errors = [] ∧ ∃ cs, d.components.register r.1 r.2 = .ok cs := by
  rw [apply]
  cases d.components.register r.1 r.2 <;> simp [fail]

/-- A draft after all steps, next to one after the steps that register nothing: they differ in their components
alone, as long as there is no error. -/
structure Follows (steps : List ApiStep) (d o : ApiDraft) : Prop where
  errors_iff : d.errors = [] ↔ o.errors = [] ∧ (ApiStep.registrations steps).Registrable
  gathers : d.errors = [] → (ApiStep.registrations steps).Gathers d.components
  rest : d.errors = [] → d = { o with components := d.components }

theorem Follows.concat_other (h : Follows steps d o) {step : ApiStep} (hstep : step.component? = none) :
    Follows (steps ++ [step]) (d.apply step) (o.apply step) := by
  have hrun (he : d.errors = []) : d.apply step = { o.apply step with components := d.components } := by
    conv_lhs => rw [h.rest he]
    exact apply_withComponents hstep o d.components
  have hregs : ApiStep.registrations (steps ++ [step]) = ApiStep.registrations steps := by
    simp [ApiStep.registrations_concat, hstep]
  refine ⟨?_, ?_, ?_⟩
  · rw [hregs]
    constructor
    · intro he
      have hd := errors_of_apply he
      exact ⟨by simpa [hrun hd] using he, (h.errors_iff.1 hd).2⟩
    · rintro ⟨ho, hrs⟩
      have hd := h.errors_iff.2 ⟨errors_of_apply ho, hrs⟩
      simpa [hrun hd] using ho
  · intro he
    have hd := errors_of_apply he
    rw [hregs, hrun hd]
    exact h.gathers hd
  · intro he
    have hd := errors_of_apply he
    rw [hrun hd]

theorem Follows.concat_component (h : Follows steps d o) {r : String × Component}
    (hdistinct : Registrations.Distinct (ApiStep.registrations steps ++ [r])) :
    Follows (steps ++ [.component r.1 r.2]) (d.apply (.component r.1 r.2)) o := by
  have hregs : ApiStep.registrations (steps ++ [.component r.1 r.2]) = ApiStep.registrations steps ++ [r] :=
    ApiStep.registrations_concat steps _
  refine ⟨?_, ?_, ?_⟩
  · rw [errors_apply_component_iff, hregs, Registrations.registrable_concat_iff hdistinct, ← and_assoc,
      ← h.errors_iff]
    exact and_congr_right fun hd => (h.gathers hd).exists_register_iff
  · intro he
    obtain ⟨hd, cs, hcs⟩ := errors_apply_component_iff.1 he
    rw [hregs, apply_component_of_ok hcs]
    exact (h.gathers hd).concat hcs
  · intro he
    obtain ⟨hd, cs, hcs⟩ := errors_apply_component_iff.1 he
    rw [apply_component_of_ok hcs]
    conv_lhs => rw [h.rest hd]

theorem follows_applyAll (hempty : d.components = {})
    (hdistinct : (ApiStep.registrations steps).Distinct) :
    Follows steps (d.applyAll steps) (d.applyAll (ApiStep.others steps)) := by
  induction steps using List.reverseRecOn with
  | nil =>
    refine ⟨?_, fun _ => ?_, fun _ => rfl⟩
    · exact (and_iff_left Registrations.registrable_nil).symm
    · rw [applyAll, List.foldl_nil, hempty]
      exact Registrations.gathers_nil
  | append_singleton steps step ih =>
    rw [ApiStep.registrations_concat] at hdistinct
    have hprefix : (ApiStep.registrations steps).Distinct :=
      fun r hr => hdistinct r (List.mem_append_left _ hr)
    rw [applyAll_concat, ApiStep.others_concat]
    cases hstep : step.component? with
    | none =>
      rw [if_pos Option.isNone_none, applyAll_concat]
      exact (ih hprefix).concat_other hstep
    | some r =>
      rw [hstep] at hdistinct
      rw [if_neg (by simp), List.append_nil, ApiStep.component?_eq_some hstep]
      exact (ih hprefix).concat_component hdistinct

/-! ## Documents -/

section Documents

variable (title version : String) (os : List Operation) {steps' : List ApiStep}

theorem exists_emit_applyAll_iff (hdistinct : (ApiStep.registrations steps).Distinct) :
    (∃ doc, (((titled title version).applyAll steps).emit os).2 = .ok doc) ↔
      (ApiStep.registrations steps).Registrable ∧
        ∃ doc, (((titled title version).applyAll (ApiStep.others steps)).emit os).2 = .ok doc := by
  have hfollows : Follows steps ((titled title version).applyAll steps) _ := follows_applyAll rfl hdistinct
  rw [exists_emit_iff, exists_emit_iff, hfollows.errors_iff]
  tauto

/-- Components may be registered in any order, and at any time between other steps. There is a document exactly when
all registrations are in order, those of the same kind and key have the same content, and the other steps and the
operations alone have a document. The document then has the content of the first registration under each kind and
key, and nothing else, and the components are the same for every order up to the order of keys. -/
theorem emit_of_perm_registrations (hothers : ApiStep.others steps = ApiStep.others steps')
    (hperm : (ApiStep.registrations steps).Perm (ApiStep.registrations steps'))
    (hdistinct : (ApiStep.registrations steps).Distinct) :
    let described steps := (((titled title version).applyAll steps).emit os).2
    ((∃ doc, described steps = .ok doc) ↔ (ApiStep.registrations steps).Registrable ∧
        ∃ doc, described (ApiStep.others steps) = .ok doc) ∧
      ((∃ doc, described steps = .ok doc) ↔ ∃ doc, described steps' = .ok doc) ∧
      (∀ doc, described steps = .ok doc → ∀ kind key, (doc.components.toJson.get? kind).bind (·.get? key) =
        ((ApiStep.registrations steps).first? kind key).map fun r => r.2.written) ∧
      ∀ doc doc', described steps = .ok doc → described steps' = .ok doc' →
        doc.components.toJson.same doc'.components.toJson = true ∧
          doc' = { doc with components := doc'.components } := by
  intro described
  have hdistinct' : (ApiStep.registrations steps').Distinct := fun r hr => hdistinct r (hperm.mem_iff.2 hr)
  have hiff := exists_emit_applyAll_iff title version os hdistinct
  have hfollows : Follows steps ((titled title version).applyAll steps) _ := follows_applyAll rfl hdistinct
  refine ⟨hiff, ?_, ?_, ?_⟩
  · rw [hiff, exists_emit_applyAll_iff title version os hdistinct', hothers]
    exact and_congr_left' ⟨fun h => h.of_perm hperm, fun h => h.of_perm hperm.symm⟩
  · intro doc hdoc kind key
    have herrors := errors_eq_nil_of_emit hdoc
    obtain ⟨-, -, rfl⟩ := (emit_ok_iff herrors).1 hdoc
    exact (hfollows.gathers herrors).get?_toJson kind key
  · intro doc doc' hdoc hdoc'
    have hfollows' : Follows steps' ((titled title version).applyAll steps') _ :=
      follows_applyAll rfl hdistinct'
    have herrors := errors_eq_nil_of_emit hdoc
    have herrors' := errors_eq_nil_of_emit hdoc'
    obtain ⟨-, -, rfl⟩ := (emit_ok_iff herrors).1 hdoc
    obtain ⟨-, -, rfl⟩ := (emit_ok_iff herrors').1 hdoc'
    have hgathers := hfollows.gathers herrors
    have hgathers' := hfollows'.gathers herrors'
    refine ⟨Components.same_toJson hgathers.tidy hgathers'.tidy ?_, ?_⟩
    · exact hgathers.sameFound hgathers' (hfollows.errors_iff.1 herrors).2 hperm
    · rw [hfollows.rest herrors, hfollows'.rest herrors', hothers]
      rfl

end Documents

/-- A schema is registered twice, its properties in two orders, between a tag and a response of the same key. The
document has the first of the two. -/
theorem emit_of_perm_registrations_ids :
    let text : Schema := .primitive { presence := .optional } .string
    let schema : Component := .schema (.object {} [("from", text), ("to", text)])
    let turned : Component := .schema (.object {} [("to", text), ("from", text)])
    let response : Component := .response { description := "A range" }
    let steps : List ApiStep := [.component "Range" schema, .tag { name := "ranges" },
      .component "Range" response, .component "Range" turned]
    let steps' : List ApiStep := [.component "Range" turned, .component "Range" schema,
      .component "Range" response, .tag { name := "ranges" }]
    (ApiStep.registrations steps).Registrable ∧
      ∃ doc doc', (((titled "Shop" "1").applyAll steps).emit []).2 = .ok doc ∧
        (((titled "Shop" "1").applyAll steps').emit []).2 = .ok doc' ∧
        (doc.components.toJson.get? "schemas").bind (·.get? "Range") = some schema.written ∧
        doc.components.toJson.same doc'.components.toJson = true ∧
        doc.components.toJson = .object
          [("schemas", .object [("Range", .object [("type", .string "object"), ("properties", .object
              [("from", .object [("type", .string "string")]), ("to", .object [("type", .string "string")])])])]),
            ("responses", .object [("Range", .object [("description", .string "A range")])])] := by
  intro text schema turned response steps steps'
  have hperm : (ApiStep.registrations steps).Perm (ApiStep.registrations steps') :=
    .trans (.cons _ (.swap _ _ _)) (.swap _ _ _)
  have hdistinct : (ApiStep.registrations steps).Distinct := by
    have hall : (ApiStep.registrations steps).all (·.2.written.distinct) = true := by decide +kernel
    exact fun r hr => List.all_eq_true.1 hall r hr
  have hothers : ApiStep.others steps = ApiStep.others steps' := rfl
  obtain ⟨haccepted, hverdict, hfirst, hsame⟩ :=
    emit_of_perm_registrations "Shop" "1" [] hothers hperm hdistinct
  have hok : (((titled "Shop" "1").applyAll steps).emit []).2.isOk = true := by decide +kernel
  have hwritten : (((titled "Shop" "1").applyAll steps).emit []).2.toOption.map (·.components.toJson) =
      some (.object
        [("schemas", .object [("Range", .object [("type", .string "object"), ("properties", .object
            [("from", .object [("type", .string "string")]), ("to", .object [("type", .string "string")])])])]),
          ("responses", .object [("Range", .object [("description", .string "A range")])])]) := by
    decide +kernel
  obtain ⟨doc, hdoc⟩ := exists_ok_of_isOk hok
  obtain ⟨doc', hdoc'⟩ := hverdict.1 ⟨doc, hdoc⟩
  rw [hdoc] at hwritten
  exact ⟨(haccepted.1 ⟨doc, hdoc⟩).1, doc, doc', hdoc, hdoc', hfirst doc hdoc "schemas" "Range",
    (hsame doc doc' hdoc hdoc').1, Option.some.inj hwritten⟩

end ApiDraft

end ApiDescription
