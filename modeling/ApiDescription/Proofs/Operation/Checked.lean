import ApiDescription.Operation.Written
import ApiDescription.Proofs.Entries.Table
import ApiDescription.Proofs.Fold
import ApiDescription.Proofs.Operation.Draft
import ApiDescription.Proofs.Operation.PathTemplate
import ApiDescription.Proofs.Schema.Refine

/-!
# What a compiled operation has passed

Compiling a draft runs one check after the other (`compiles_of_compile`). What each of them lets pass is said
first, and `checked_of_compile` puts it together for the operation that comes out, whatever the steps of the
draft were.
-/

set_option autoImplicit false

namespace ApiDescription

namespace OperationDraft

variable {d : OperationDraft}

/-! ## The checks -/

theorem checkErrors_ok_iff : d.checkErrors = .ok () ↔ d.errors = [] := by
  unfold checkErrors
  cases d.errors <;> simp

theorem checkMethod_ok_iff {m : Method} : d.checkMethod = .ok m ↔ d.method = some m := by
  unfold checkMethod
  cases d.method <;> simp

theorem checkPath_ok_iff {names : List String} :
    d.checkPath = .ok names ↔ PathTemplate.IsTemplate d.path names := by
  rw [← PathTemplate.placeholders_ok_iff, checkPath]
  cases PathTemplate.placeholders d.path <;> simp

theorem checkObject_ok_iff {slot : SchemaSlot} {schema : Option Schema} :
    checkObject slot schema = .ok () ↔ ∀ s, schema = some s → s.isObject = true := by
  cases schema with
  | none => simp [checkObject]
  | some s => cases h : s.isObject <;> simp [checkObject, h]

theorem checkCovered_ok_iff {names : List String} : d.checkCovered names = .ok () ↔
    ∀ ps, d.params.bind Schema.properties? = some ps → ∀ name ∈ names, Entries.has ps name = true := by
  unfold checkCovered
  cases d.params.bind Schema.properties? with
  | none => simp
  | some ps =>
    have hall : (names.find? fun name => !Entries.has ps name) = none ↔
        ∀ name ∈ names, Entries.has ps name = true := by
      simp
    simp only [Option.some_inj, forall_eq', ← hall]
    cases names.find? fun name => !Entries.has ps name <;> simp

theorem checkSchemas_ok_iff {method : Method} {path : String} {attached : List (SchemaSlot × Schema)} :
    checkSchemas method path attached = .ok () ↔ ∀ a ∈ attached, a.2.check = .ok () := by
  induction attached with
  | nil => simp [checkSchemas]
  | cons a rest ih =>
    obtain ⟨slot, s⟩ := a
    rw [checkSchemas, List.forall_mem_cons]
    cases s.check with
    | ok _ => simpa using ih
    | error e => simp

/-! ## Responses -/

/-- The response that the schema for the success code stands for. -/
def successResponse (d : OperationDraft) (s : Schema) : ResponseDefinition :=
  { code := d.successCode, description := successDescription, schema := some s }

/-- The success code is a status code, and the schema for it becomes the response under it. -/
theorem withSuccess_ok {rs : List (Nat × ResponseDefinition)} (h : d.withSuccess = .ok rs) :
    isStatusCode d.successCode = true ∧ (d.success = none → rs = d.responses) ∧
      ∀ s, d.success = some s → rs = Sorted.insert d.responses d.successCode (d.successResponse s) := by
  unfold withSuccess at h
  split at h
  · nomatch h
  · next hcode =>
    refine ⟨by simpa using hcode, ?_⟩
    cases hsuccess : d.success with
    | none =>
      rw [hsuccess] at h
      cases h
      exact ⟨fun _ => rfl, by simp⟩
    | some s =>
      rw [hsuccess] at h
      dsimp only at h
      split at h
      · nomatch h
      · cases h
        refine ⟨by simp, ?_⟩
        rintro s' ⟨⟩
        rfl

theorem registered_withSuccess {rs : List (Nat × ResponseDefinition)} (h : d.withSuccess = .ok rs)
    (hd : Registered d.responses) : Registered rs := by
  obtain ⟨hcode, hnone, hsome⟩ := withSuccess_ok h
  cases hsuccess : d.success with
  | none => exact hnone hsuccess ▸ hd
  | some s => exact hsome s hsuccess ▸ hd.insert (r := d.successResponse s) hcode rfl

/-- The headers given for a status code are those of its response. -/
theorem attachHeaders_ok {rs rs' : List (Nat × ResponseDefinition)} {hs : List (Nat × Schema)}
    (hhs : Sorted.Ascending hs) (h : attachHeaders rs hs = .ok rs') :
    (∀ code s, Sorted.get? hs code = some s → s.isObject = true ∧ ∃ r, Sorted.get? rs code = some r) ∧
      ∀ code, Sorted.get? rs' code =
        (Sorted.get? rs code).map fun r => { r with headers := (Sorted.get? hs code).or r.headers } := by
  induction hs generalizing rs with
  | nil =>
    cases h
    simp [Sorted.get?]
  | cons e hs ih =>
    obtain ⟨c, headers⟩ := e
    rw [attachHeaders] at h
    split at h
    · cases h
    · next hobject =>
      split at h
      · cases h
      · next r hr =>
        obtain ⟨hfound, hget⟩ := ih (List.pairwise_cons.1 hhs).2 h
        -- no headers that come later are for the same code
        have hlast : Sorted.get? hs c = none := Sorted.get?_eq_none_of_ascending_cons hhs
        refine ⟨fun code s hs' => ?_, fun code => ?_⟩
        · rw [Sorted.get?] at hs'
          split at hs'
          · next hcode =>
            cases hs'
            exact ⟨by simpa using hobject, r, hcode ▸ hr⟩
          · next hcode =>
            obtain ⟨hobject', r', hr'⟩ := hfound code s hs'
            rw [Sorted.get?_insert_ne _ _ (Ne.symm hcode)] at hr'
            exact ⟨hobject', r', hr'⟩
        · rw [hget, Sorted.get?]
          split
          · next hcode =>
            subst hcode
            simp [hr, hlast]
          · next hcode => rw [Sorted.get?_insert_ne _ _ (Ne.symm hcode)]

theorem ascending_attachHeaders {rs rs' : List (Nat × ResponseDefinition)} {hs : List (Nat × Schema)}
    (hrs : Sorted.Ascending rs) (h : attachHeaders rs hs = .ok rs') : Sorted.Ascending rs' := by
  induction hs generalizing rs with
  | nil =>
    cases h
    exact hrs
  | cons e hs ih =>
    obtain ⟨c, headers⟩ := e
    rw [attachHeaders] at h
    split at h
    · nomatch h
    · split at h
      · nomatch h
      · exact ih (hrs.insert c _) h

/-! ## The whole check -/

/-- The draft passes every check, and the operation is what it becomes. -/
structure Compiles (d : OperationDraft) (o : Operation) : Prop where
  errors : d.errors = []
  method : d.method = some o.method
  path : o.path = d.path
  successCode : o.successCode = d.successCode
  params : o.params = d.params
  query : o.query = d.query
  body : o.body = d.body
  headers : o.headers = d.headers
  success : o.success = d.success
  security : o.security = d.security
  template : ∃ names, PathTemplate.IsTemplate d.path names ∧
    ∀ ps, d.params.bind Schema.properties? = some ps → ∀ name ∈ names, Entries.has ps name = true
  paramsObject : ∀ s, d.params = some s → s.isObject = true
  queryObject : ∀ s, d.query = some s → s.isObject = true
  headersObject : ∀ s, d.headers = some s → s.isObject = true
  responses : ∃ rs, d.withSuccess = .ok rs ∧ attachHeaders rs d.responseHeaders = .ok o.responses
  requestSchemas : ∀ a ∈ d.requestSchemas, a.2.check = .ok ()
  responseSchemas : ∀ a ∈ o.responses.flatMap fun r => r.2.schemas, a.2.check = .ok ()

theorem compiles_of_compile {o : Operation} (h : d.compile = .ok o) : Compiles d o := by
  obtain ⟨⟨⟩, herrors, h⟩ := bind_ok_iff.1 h
  obtain ⟨method, hmethod, h⟩ := bind_ok_iff.1 h
  obtain ⟨names, hpath, h⟩ := bind_ok_iff.1 h
  obtain ⟨⟨⟩, hparams, h⟩ := bind_ok_iff.1 h
  obtain ⟨⟨⟩, hquery, h⟩ := bind_ok_iff.1 h
  obtain ⟨⟨⟩, hheaders, h⟩ := bind_ok_iff.1 h
  obtain ⟨⟨⟩, hcovered, h⟩ := bind_ok_iff.1 h
  obtain ⟨rs, hsuccess, h⟩ := bind_ok_iff.1 h
  obtain ⟨rs', hattach, h⟩ := bind_ok_iff.1 h
  obtain ⟨⟨⟩, hrequest, h⟩ := bind_ok_iff.1 h
  obtain ⟨⟨⟩, hresponse, h⟩ := bind_ok_iff.1 h
  cases h
  exact {
    errors := checkErrors_ok_iff.1 herrors
    method := checkMethod_ok_iff.1 hmethod
    path := rfl
    successCode := rfl
    params := rfl
    query := rfl
    body := rfl
    headers := rfl
    success := rfl
    security := rfl
    template := ⟨names, checkPath_ok_iff.1 hpath, checkCovered_ok_iff.1 hcovered⟩
    paramsObject := checkObject_ok_iff.1 hparams
    queryObject := checkObject_ok_iff.1 hquery
    headersObject := checkObject_ok_iff.1 hheaders
    responses := ⟨rs, hsuccess, hattach⟩
    requestSchemas := checkSchemas_ok_iff.1 hrequest
    responseSchemas := checkSchemas_ok_iff.1 hresponse }

section Compiled

variable {o : Operation} {code : Nat} {s : Schema}

/-- Behind every response of a compiled operation stands a registered one, to which the headers given for its
code were attached. -/
theorem Compiles.response (h : Compiles d o) (hd : d.InOrder) : Sorted.Ascending o.responses ∧
    ∀ code r, (code, r) ∈ o.responses → isStatusCode code = true ∧ r.code = code ∧
      r.headers = Sorted.get? d.responseHeaders code := by
  obtain ⟨rs, hsuccess, hattach⟩ := h.responses
  have hrs := registered_withSuccess hsuccess hd.responses
  have hascending := ascending_attachHeaders hrs.ascending hattach
  refine ⟨hascending, fun code r hr => ?_⟩
  obtain ⟨-, hget⟩ := attachHeaders_ok hd.headers hattach
  have hfound := hascending.mem_iff.1 hr
  rw [hget, Option.map_eq_some_iff] at hfound
  obtain ⟨r₀, hr₀, rfl⟩ := hfound
  obtain ⟨hcode, hown, hheaders⟩ := hrs.entries code r₀ (Sorted.mem_of_get? hr₀)
  exact ⟨hcode, hown, by rw [hheaders, Option.or_none]⟩

/-- The schema for the success code is the body of the response under it. -/
theorem Compiles.exists_successResponse (h : Compiles d o) (hd : d.InOrder) (hs : d.success = some s) :
    ∃ r, (o.successCode, r) ∈ o.responses ∧ r.schema = some s := by
  obtain ⟨rs, hsuccess, hattach⟩ := h.responses
  obtain ⟨-, -, hput⟩ := withSuccess_ok hsuccess
  obtain ⟨-, hget⟩ := attachHeaders_ok hd.headers hattach
  have hresponse : Sorted.get? rs d.successCode = some (d.successResponse s) := by
    rw [hput s hs, Sorted.get?_insert_self]
  refine ⟨{ d.successResponse s with headers := (Sorted.get? d.responseHeaders d.successCode).or none },
    Sorted.mem_of_get? ?_, rfl⟩
  rw [h.successCode, hget, hresponse]
  rfl

/-- Headers that were given are for objects, and attached to a response. -/
theorem Compiles.exists_attached (h : Compiles d o) (hd : d.InOrder)
    (hs : Sorted.get? d.responseHeaders code = some s) :
    s.isObject = true ∧ ∃ r, (code, r) ∈ o.responses ∧ r.headers = some s := by
  obtain ⟨rs, -, hattach⟩ := h.responses
  obtain ⟨hfound, hget⟩ := attachHeaders_ok hd.headers hattach
  obtain ⟨hobject, r, hr⟩ := hfound code s hs
  refine ⟨hobject, { r with headers := some s }, Sorted.mem_of_get? ?_, rfl⟩
  rw [hget, hr, hs]
  rfl

/-- The schemas of a compiled operation are those that were checked. -/
theorem Compiles.check_of_mem (h : Compiles d o) {slot : SchemaSlot}
    (hs : (slot, s) ∈ o.schemas) : s.check = .ok () := by
  rw [Operation.schemas, h.params, h.query, h.headers, h.body] at hs
  rcases List.mem_append.1 hs with hs | hs
  · have hperm := (((List.Perm.swap (SchemaSlot.body, d.body) (.headers, d.headers) []).cons
      (.query, d.query)).cons (.params, d.params)).filterMap fun a => a.2.map (a.1, ·)
    exact h.requestSchemas _ (hperm.mem_iff.1 hs)
  · exact h.responseSchemas _ hs

/-- If there are params, each placeholder of the path is one of them. -/
theorem Compiles.covered (h : Compiles d o) : ∃ names, PathTemplate.IsTemplate o.path names ∧
    ∀ s, o.params = some s → ∃ ps, s.properties? = some ps ∧ ∀ name ∈ names, name ∈ ps.map Prod.fst := by
  obtain ⟨names, htemplate, hcovered⟩ := h.template
  refine ⟨names, h.path ▸ htemplate, fun s hs => ?_⟩
  rw [h.params] at hs
  have hobject := h.paramsObject s hs
  cases s with
  | object f ps =>
    have hhas : ∀ name ∈ names, Entries.has ps name = true := hcovered ps (by rw [hs]; rfl)
    refine ⟨ps, rfl, fun name hname => ?_⟩
    obtain ⟨c, hc⟩ := Option.isSome_iff_exists.1 (hhas name hname)
    exact List.mem_map_of_mem (Entries.mem_of_get?_eq_some hc)
  | _ => nomatch hobject

theorem Compiles.isStatusCode_successCode (h : Compiles d o) : isStatusCode o.successCode = true := by
  obtain ⟨rs, hsuccess, -⟩ := h.responses
  exact h.successCode ▸ (withSuccess_ok hsuccess).1

theorem isStatusCode_iff : isStatusCode code = true ↔ 100 ≤ code ∧ code ≤ 599 := by
  simp [isStatusCode]

end Compiled

end OperationDraft

/-! ## Checked operations -/

/-- What is sure of an operation that was compiled after the steps. -/
structure Operation.Checked (o : Operation) (steps : List OperationStep) : Prop where
  /-- The path is a template, and if there are params, each of its placeholders is one of them. -/
  path : ∃ names, PathTemplate.IsTemplate o.path names ∧
    ∀ s, o.params = some s → ∃ ps, s.properties? = some ps ∧ ∀ name ∈ names, name ∈ ps.map Prod.fst
  params : ∀ s, o.params = some s → s.kind = .object
  query : ∀ s, o.query = some s → s.kind = .object
  headers : ∀ s, o.headers = some s → s.kind = .object
  responseHeaders : ∀ code r s, (code, r) ∈ o.responses → r.headers = some s → s.kind = .object
  successCode : 100 ≤ o.successCode ∧ o.successCode ≤ 599
  status : ∀ code r, (code, r) ∈ o.responses → 100 ≤ code ∧ code ≤ 599
  code : ∀ code r, (code, r) ∈ o.responses → r.code = code
  /-- No status code has two responses. -/
  ascending : Sorted.Ascending o.responses
  success : ∀ s, OperationStep.last OperationStep.success? steps = some s →
    ∃ r, (o.successCode, r) ∈ o.responses ∧ r.schema = some s
  attached : ∀ code s, OperationStep.last (OperationStep.headersOf? code) steps = some s →
    ∃ r, (code, r) ∈ o.responses ∧ r.headers = some s
  schemas : ∀ slot s, (slot, s) ∈ o.schemas → s.check = .ok ()

namespace OperationDraft

/-- An operation that was compiled after any steps is checked. -/
theorem checked_of_compile {steps : List OperationStep} {o : Operation}
    (h : (({} : OperationDraft).applyAll steps).compile = .ok o) : o.Checked steps := by
  have hpassed := compiles_of_compile h
  have hd := inOrder_empty.applyAll steps
  have hsuccess := success_applyAll {} steps
  have hheaders := responseHeaders_applyAll {} steps
  -- the steps count only for the order of the draft and for what was given last
  generalize ({} : OperationDraft).applyAll steps = d at hpassed hd hsuccess hheaders
  obtain ⟨hascending, hresponse⟩ := hpassed.response hd
  constructor
  case path => exact hpassed.covered
  case params => exact fun s hs => Schema.kind_of_isObject (hpassed.paramsObject s (hpassed.params ▸ hs))
  case query => exact fun s hs => Schema.kind_of_isObject (hpassed.queryObject s (hpassed.query ▸ hs))
  case headers => exact fun s hs => Schema.kind_of_isObject (hpassed.headersObject s (hpassed.headers ▸ hs))
  case responseHeaders =>
    intro code r s hr hs
    obtain ⟨-, -, hgiven⟩ := hresponse code r hr
    exact Schema.kind_of_isObject (hpassed.exists_attached hd (hgiven ▸ hs)).1
  case successCode => exact isStatusCode_iff.1 hpassed.isStatusCode_successCode
  case status => exact fun code r hr => isStatusCode_iff.1 (hresponse code r hr).1
  case code => exact fun code r hr => (hresponse code r hr).2.1
  case ascending => exact hascending
  case success =>
    intro s hs
    rw [hs] at hsuccess
    exact hpassed.exists_successResponse hd hsuccess
  case attached =>
    intro code s hs
    have hgiven : Sorted.get? d.responseHeaders code = some s := by rw [hheaders, hs]; rfl
    exact (hpassed.exists_attached hd hgiven).2
  case schemas => exact fun slot s hs => hpassed.check_of_mem hs

attribute [local instance] PatternReader.lenient

/-- An operation whose body and headers are given before its success code, and once more behind it. -/
theorem checked_of_compile_user :
    let user := Schema.ofProperties [("id", Schema.string.refine .required)]
    let limits := Schema.ofProperties [("X-Limit", Schema.primitive {} .integer)]
    let steps : List OperationStep := [.responseHeaders 201 user, .success Schema.string, .params user,
      .standardErrors StandardError.crudCodes, .route .put "/users/\x7bid\x7d", .successCode 201,
      .responseHeaders 404 limits, .success user, .responseHeaders 201 limits]
    ∃ o, (({} : OperationDraft).applyAll steps).compile = .ok o ∧ o.Checked steps := by
  intro user limits steps
  have hok : (({} : OperationDraft).applyAll steps).compile.isOk = true := by decide +kernel
  obtain ⟨o, ho⟩ := exists_ok_of_isOk hok
  exact ⟨o, ho, checked_of_compile ho⟩

end OperationDraft

end ApiDescription
