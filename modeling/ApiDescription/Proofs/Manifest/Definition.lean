import ApiDescription.Manifest.Operation
import ApiDescription.Proofs.Operation.Codes
import ApiDescription.Proofs.Pointwise

/-!
# Operations of definitions

Every step of a draft is about one subject, and what a draft holds of it depends on no other steps
(`AgreeOn.applyAll_filter`). The steps of a definition come subject by subject (`exists_of_steps`), so each field of the
operation follows from the few steps that are about it.
-/

set_option autoImplicit false

namespace ApiDescription

/-! ## Subjects of steps -/

/-- What a step of a draft is about. -/
inductive OperationStep.Subject where
  | route
  | successCode
  | success
  | responses
  | security
  | other
  deriving DecidableEq

namespace OperationStep

def subject : OperationStep → Subject
  | .route _ _ => .route
  | .successCode _ => .successCode
  | .success _ => .success
  | .respond _ _ _ | .respondSuccess _ _ _ | .respondError _ _ _ | .standardErrors _
  | .responseHeaders _ _ => .responses
  | .secure _ | .makePublic => .security
  | _ => .other

/-- All steps are about the subject. -/
def About (t : Subject) (steps : List OperationStep) : Prop := ∀ step ∈ steps, step.subject = t

theorem About.append {t : Subject} {steps steps' : List OperationStep} (h : About t steps) (h' : About t steps') :
    About t (steps ++ steps') := by
  intro step hstep
  exact (List.mem_append.1 hstep).elim (h step) (h' step)

theorem about_toList {α : Type} {t : Subject} (make : α → OperationStep) (h : ∀ a, (make a).subject = t)
    (a : Option α) : About t (a.map make).toList := by
  cases a <;> simp [About, h]

theorem About.filter {t : Subject} {steps : List OperationStep} (h : About t steps) (t' : Subject) :
    steps.filter (·.subject = t') = if t = t' then steps else [] := by
  split
  · next heq => exact List.filter_eq_self.2 fun step hstep => by simp [h step hstep, heq]
  · next hne => exact List.filter_eq_nil_iff.2 fun step hstep => by simp [h step hstep, hne]

theorem About.codes_eq_nil {t : Subject} {steps : List OperationStep} (h : About t steps) (ht : t ≠ .responses) :
    steps.flatMap codes = [] := by
  refine List.flatMap_eq_nil_iff.2 fun step hstep => ?_
  have hstep := h step hstep
  cases step <;> first | rfl | exact absurd hstep.symm ht

end OperationStep

namespace OperationDraft

variable {d d' d'' : OperationDraft} {t : OperationStep.Subject} {step : OperationStep}

/-- Two drafts hold the same of a subject. -/
def AgreeOn : OperationStep.Subject → OperationDraft → OperationDraft → Prop
  | .route, d, d' => d.method = d'.method ∧ d.path = d'.path
  | .successCode, d, d' => d.successCode = d'.successCode
  | .success, d, d' => d.success = d'.success
  | .security, d, d' => d.security = d'.security
  | .responses, _, _ | .other, _, _ => True

theorem agreeOn_refl (t : OperationStep.Subject) (d : OperationDraft) : AgreeOn t d d := by
  cases t <;> simp [AgreeOn]

theorem AgreeOn.trans (h : AgreeOn t d d') (h' : AgreeOn t d' d'') : AgreeOn t d d'' := by
  cases t with
  | route => exact ⟨h.1.trans h'.1, h.2.trans h'.2⟩
  | responses | other => trivial
  | _ => exact Eq.trans h h'

theorem agreeOn_apply_self (d : OperationDraft) (h : step.subject ≠ t) : AgreeOn t (d.apply step) d := by
  cases step with
  | respond | respondSuccess | respondError | standardErrors =>
    rw [(registers_apply d rfl).frame]
    cases t <;> first | exact rfl | exact ⟨rfl, rfl⟩ | trivial
  | _ => cases t <;> first | exact absurd rfl h | exact rfl | exact ⟨rfl, rfl⟩ | trivial

theorem AgreeOn.apply (h : AgreeOn t d d') (hstep : step.subject = t) : AgreeOn t (d.apply step) (d'.apply step) := by
  subst hstep
  cases step with
  | route => exact ⟨rfl, rfl⟩
  | successCode | success | makePublic => exact rfl
  | secure rs => exact congrArg (fun s => some (Option.getD s [] ++ rs)) h
  | _ => trivial

/-- What a draft holds of a subject depends on the steps about it alone. -/
theorem AgreeOn.applyAll_filter (h : AgreeOn t d d') (steps : List OperationStep) :
    AgreeOn t (d.applyAll steps) (d'.applyAll (steps.filter (·.subject = t))) := by
  induction steps generalizing d d' with
  | nil => exact h
  | cons step steps ih =>
    by_cases hstep : step.subject = t
    · rw [List.filter_cons_of_pos (by simpa using hstep)]
      exact ih (h.apply hstep)
    · rw [List.filter_cons_of_neg (by simpa using hstep)]
      exact ih ((agreeOn_apply_self d hstep).trans h)

end OperationDraft

/-! ## Steps of a definition -/

namespace OperationDefinition

open OperationStep (About)

variable {o : OperationDefinition} {steps : List OperationStep}

theorem about_securitySteps (o : OperationDefinition) : About .security o.securitySteps := by
  unfold securitySteps
  split
  · simp [About, OperationStep.subject]
  · exact OperationStep.about_toList .secure (fun _ => rfl) o.security

variable [PatternReader]

theorem schemaStep_ok {slot : String} {make : Schema → OperationStep} {definition : Option SchemaDefinition}
    (h : o.schemaStep slot make definition = .ok steps) :
    ∃ s : Option Schema, s.isSome = definition.isSome ∧ steps = (s.map make).toList := by
  unfold schemaStep at h
  cases definition with
  | none =>
    cases h
    exact ⟨none, rfl, rfl⟩
  | some d =>
    dsimp only at h
    split at h
    · next s _ =>
      cases h
      exact ⟨some s, rfl, rfl⟩
    · nomatch h

/-- The steps of an entry register one response, under the code that its text spells. -/
theorem responseSteps_ok {response : String × ResponseEntry} (h : o.responseSteps response = .ok steps) :
    About .responses steps ∧ ∃ code, statusCode? response.1 = some code ∧
      steps.flatMap OperationStep.codes = [code] := by
  obtain ⟨text, r⟩ := response
  unfold responseSteps at h
  dsimp only at h
  split at h
  · nomatch h
  · next code hcode =>
    have hcut : ∃ schema description, ∃ headers : Option Schema,
        steps = [.respond code schema description] ++ (headers.map (.responseHeaders code)).toList := by
      cases hr : r.schema with
      | none =>
        rw [hr] at h
        obtain ⟨body, ⟨⟩, h⟩ := bind_ok_iff.1 h
        obtain ⟨headers, hheaders, ⟨⟩⟩ := bind_ok_iff.1 h
        obtain ⟨given, -, rfl⟩ := schemaStep_ok hheaders
        exact ⟨none, _, given, rfl⟩
      | some d =>
        rw [hr] at h
        obtain ⟨body, hbody, h⟩ := bind_ok_iff.1 h
        obtain ⟨headers, hheaders, ⟨⟩⟩ := bind_ok_iff.1 h
        obtain ⟨s, hs, rfl⟩ := schemaStep_ok hbody
        obtain ⟨s, rfl⟩ := Option.isSome_iff_exists.1 hs
        obtain ⟨given, -, rfl⟩ := schemaStep_ok hheaders
        exact ⟨some s, _, given, rfl⟩
    obtain ⟨schema, description, headers, rfl⟩ := hcut
    have hrespond : About .responses [.respond code schema description] := by simp [About, OperationStep.subject]
    have hheaders := OperationStep.about_toList (.responseHeaders code) (fun _ => rfl) headers
    refine ⟨hrespond.append hheaders, code, hcode, ?_⟩
    cases headers <;> rfl

/-- The codes of the responses that a definition lists. -/
def listedCodes (o : OperationDefinition) : List Nat := o.responses.filterMap fun r => statusCode? r.1

theorem responses_ok {groups : List (List OperationStep)} (h : o.responses.mapM o.responseSteps = .ok groups) :
    About .responses groups.flatten ∧ groups.flatten.flatMap OperationStep.codes = o.listedCodes ∧
      ∀ r ∈ o.responses, (statusCode? r.1).isSome = true := by
  have hgroups := mapM_ok_iff.1 h
  unfold listedCodes
  clear h
  generalize o.responses = rs at hgroups
  induction hgroups with
  | nil => simp [About]
  | @cons r group rs groups hgroup _ ih =>
    obtain ⟨habout, code, hcode, hcodes⟩ := responseSteps_ok hgroup
    obtain ⟨habouts, hcodess, hparsed⟩ := ih
    refine ⟨habout.append habouts, ?_, List.forall_mem_cons.2 ⟨by simp [hcode], hparsed⟩⟩
    have hlist : (r :: rs).filterMap (fun r => statusCode? r.1) =
        code :: rs.filterMap fun r => statusCode? r.1 := List.filterMap_cons_some hcode
    rw [List.flatten_cons, List.flatMap_append, hcodes, hcodess, hlist, List.singleton_append]

/-- The steps of a definition come subject by subject. -/
theorem exists_of_steps (h : o.steps = .ok steps) :
    ∃ (details details' answers : List OperationStep) (success : Option Schema),
      steps = [.route o.method o.path] ++ details ++ (o.successCode.map .successCode).toList ++ details' ++
        (success.map .success).toList ++ answers ++ o.securitySteps ∧
      About .other details ∧ About .other details' ∧ success.isSome = o.response.isSome ∧
      About .responses answers ∧ answers.flatMap OperationStep.codes = o.listedCodes ++ o.errors ∧
      ∀ r ∈ o.responses, (statusCode? r.1).isSome = true := by
  obtain ⟨_, hparams, h⟩ := bind_ok_iff.1 h
  obtain ⟨_, hquery, h⟩ := bind_ok_iff.1 h
  obtain ⟨_, hbody, h⟩ := bind_ok_iff.1 h
  obtain ⟨_, hheaders, h⟩ := bind_ok_iff.1 h
  obtain ⟨_, hresponse, h⟩ := bind_ok_iff.1 h
  obtain ⟨groups, hgroups, ⟨⟩⟩ := bind_ok_iff.1 h
  obtain ⟨params, -, rfl⟩ := schemaStep_ok hparams
  obtain ⟨query, -, rfl⟩ := schemaStep_ok hquery
  obtain ⟨body, -, rfl⟩ := schemaStep_ok hbody
  obtain ⟨headers, -, rfl⟩ := schemaStep_ok hheaders
  obtain ⟨response, hsome, rfl⟩ := schemaStep_ok hresponse
  obtain ⟨habout, hcodes, hparsed⟩ := responses_ok hgroups
  have htags : About .other (if o.tags.isEmpty then [] else [.tags o.tags]) := by
    split <;> simp [About, OperationStep.subject]
  have hdeprecated : About .other (if o.deprecated then [.deprecated] else []) := by
    split <;> simp [About, OperationStep.subject]
  have herrors : About .responses (if o.errors.isEmpty then [] else [.standardErrors o.errors]) ∧
      (if o.errors.isEmpty then [] else [OperationStep.standardErrors o.errors]).flatMap OperationStep.codes =
        o.errors := by
    cases o.errors <;> simp [About, OperationStep.subject, OperationStep.codes]
  have hdetails := ((((OperationStep.about_toList .summary (fun _ => rfl) o.summary).append
    (OperationStep.about_toList .description (fun _ => rfl) o.description)).append
    (OperationStep.about_toList .operationId (fun _ => rfl) o.operationId)).append htags).append hdeprecated
  have hrequest := (((OperationStep.about_toList .params (fun _ => rfl) params).append
    (OperationStep.about_toList .query (fun _ => rfl) query)).append
    (OperationStep.about_toList .body (fun _ => rfl) body)).append
    (OperationStep.about_toList .headers (fun _ => rfl) headers)
  refine ⟨_, _, _, response, ?_, hdetails, hrequest, hsome, habout.append herrors.1, ?_, hparsed⟩
  · simp only [List.append_assoc]
  · rw [List.flatMap_append, hcodes, herrors.2]

/-- What the steps say of each subject is what the definition says. -/
structure Said (o : OperationDefinition) (steps : List OperationStep) : Prop where
  route : steps.filter (·.subject = .route) = [.route o.method o.path]
  successCode : steps.filter (·.subject = .successCode) = (o.successCode.map .successCode).toList
  success : ∃ s : Option Schema, s.isSome = o.response.isSome ∧
    steps.filter (·.subject = .success) = (s.map .success).toList
  security : steps.filter (·.subject = .security) = o.securitySteps
  codes : steps.flatMap OperationStep.codes = o.listedCodes ++ o.errors
  parsed : ∀ r ∈ o.responses, (statusCode? r.1).isSome = true

theorem said_of_steps (h : o.steps = .ok steps) : o.Said steps := by
  obtain ⟨details, request, answers, success, hcut, hdetails, hrequest, hsome, hanswers, hcodes, hparsed⟩ :=
    exists_of_steps h
  have hroute : About .route [.route o.method o.path] := by simp [About, OperationStep.subject]
  have hcode : About .successCode (o.successCode.map .successCode).toList :=
    OperationStep.about_toList .successCode (fun _ => rfl) o.successCode
  have hsuccess : About .success (success.map .success).toList :=
    OperationStep.about_toList .success (fun _ => rfl) success
  have hsecurity := o.about_securitySteps
  -- each part of the list is kept for its own subject and dropped for the others
  have hfilter (t : OperationStep.Subject) : steps.filter (·.subject = t) =
      (if .route = t then [.route o.method o.path] else []) ++ (if .other = t then details else []) ++
        (if .successCode = t then (o.successCode.map .successCode).toList else []) ++
        (if .other = t then request else []) ++ (if .success = t then (success.map .success).toList else []) ++
        (if .responses = t then answers else []) ++ (if .security = t then o.securitySteps else []) := by
    rw [hcut]
    simp only [List.filter_append, hroute.filter, hdetails.filter, hcode.filter, hrequest.filter, hsuccess.filter,
      hanswers.filter, hsecurity.filter]
  constructor
  case route => simp [hfilter]
  case successCode => simp [hfilter]
  case success => exact ⟨success, hsome, by simp [hfilter]⟩
  case security => simp [hfilter]
  case codes =>
    rw [hcut]
    simp only [List.flatMap_append, hroute.codes_eq_nil nofun, hdetails.codes_eq_nil nofun,
      hcode.codes_eq_nil nofun, hrequest.codes_eq_nil nofun, hsuccess.codes_eq_nil nofun,
      hsecurity.codes_eq_nil nofun, hcodes, List.nil_append, List.append_nil]
  case parsed => exact hparsed

/-- The code of a success, which is the usual one when none is given. -/
def successStatus (o : OperationDefinition) : Nat := o.successCode.getD 200

/-- The draft holds what the definition says. -/
structure Drafts (o : OperationDefinition) (d : OperationDraft) : Prop where
  method : d.method = some o.method
  path : d.path = o.path
  successCode : d.successCode = o.successStatus
  success : d.success.isSome = o.response.isSome
  security : d.security = if o.isPublic then some [] else o.security
  responses : d.errors = [] → ∀ code, d.hasResponse code = true ↔ code ∈ o.listedCodes ++ o.errors
  parsed : ∀ r ∈ o.responses, (statusCode? r.1).isSome = true
  inOrder : d.InOrder

theorem drafts_of_draft {d : OperationDraft} (h : o.draft = .ok d) : o.Drafts d := by
  obtain ⟨steps, hsteps, rfl⟩ : ∃ steps, o.steps = .ok steps ∧ ({} : OperationDraft).applyAll steps = d := by
    rw [draft] at h
    cases hs : o.steps with
    | error e =>
      rw [hs] at h
      nomatch h
    | ok steps =>
      rw [hs] at h
      exact ⟨steps, rfl, Except.ok.inj h⟩
  have hsaid := said_of_steps hsteps
  have hagree (t : OperationStep.Subject) := (OperationDraft.agreeOn_refl t {}).applyAll_filter steps
  have hroute := hagree .route
  have hcode := hagree .successCode
  have hsuccess := hagree .success
  have hsecurity := hagree .security
  rw [hsaid.route] at hroute
  rw [hsaid.successCode] at hcode
  rw [hsaid.security] at hsecurity
  constructor
  case method => exact hroute.1
  case path => exact hroute.2
  case successCode =>
    refine Eq.trans hcode ?_
    rw [successStatus]
    cases o.successCode <;> rfl
  case success =>
    obtain ⟨success, hsome, hfilter⟩ := hsaid.success
    rw [hfilter] at hsuccess
    refine (congrArg Option.isSome hsuccess).trans ?_
    rw [← hsome]
    cases success <;> rfl
  case security =>
    refine Eq.trans hsecurity ?_
    rw [securitySteps]
    cases o.isPublic <;> cases o.security <;> rfl
  case responses =>
    intro herrors code
    rw [OperationDraft.hasResponse_applyAll_iff herrors, hsaid.codes]
  case parsed => exact hsaid.parsed
  case inOrder => exact OperationDraft.inOrder_empty.applyAll steps

end OperationDefinition

end ApiDescription
