import ApiDescription.Proofs.Api.Emit

/-!
# Webhooks of a document

Every webhook is put where an earlier one of the same name and method may stand already. A document has, under each
name and method, the webhook that was described last, and what earlier ones said is lost (`webhooks_of_emit`,
`webhook_replaced`).
-/

set_option autoImplicit false

namespace ApiDescription

namespace ApiStep

/-- The operation that a step describes as the webhook of a name and a method. -/
def webhook? (name : String) (m : Method) : ApiStep → Option Operation
  | .webhook n o => if n = name ∧ o.method = m then some o else none
  | _ => none

/-- The operation that was described last as the webhook of a name and a method. -/
def lastWebhook? (name : String) (m : Method) (steps : List ApiStep) : Option Operation :=
  steps.reverse.findSome? (webhook? name m)

variable {name : String} {m : Method} {o : Operation} {steps : List ApiStep}

theorem webhook?_eq_some_iff {step : ApiStep} :
    step.webhook? name m = some o ↔ step = .webhook name o ∧ o.method = m := by
  cases step with
  | webhook n p =>
    simp only [webhook?, ApiStep.webhook.injEq]
    split
    · next h =>
      obtain ⟨rfl, rfl⟩ := h
      constructor
      · rintro ⟨⟩
        exact ⟨⟨rfl, rfl⟩, rfl⟩
      · rintro ⟨⟨-, rfl⟩, -⟩
        rfl
    · next h =>
      simp only [reduceCtorEq, false_iff]
      rintro ⟨⟨rfl, rfl⟩, rfl⟩
      exact h ⟨rfl, rfl⟩
  | _ => simp [webhook?]

theorem lastWebhook?_concat (steps : List ApiStep) (step : ApiStep) :
    lastWebhook? name m (steps ++ [step]) = (step.webhook? name m).or (lastWebhook? name m steps) := by
  rw [lastWebhook?, List.reverse_append, List.reverse_singleton, List.singleton_append, List.findSome?_cons]
  cases step.webhook? name m <;> rfl

theorem mem_of_lastWebhook? (h : lastWebhook? name m steps = some o) :
    .webhook name o ∈ steps ∧ o.method = m := by
  obtain ⟨step, hstep, hfound⟩ := List.exists_of_findSome?_eq_some h
  obtain ⟨rfl, hm⟩ := webhook?_eq_some_iff.1 hfound
  exact ⟨List.mem_reverse.1 hstep, hm⟩

theorem exists_lastWebhook? (h : .webhook name o ∈ steps) :
    ∃ last, lastWebhook? name o.method steps = some last := by
  rw [← Option.isSome_iff_exists, lastWebhook?, List.findSome?_isSome_iff]
  have hfound : (ApiStep.webhook name o).webhook? name o.method = some o := webhook?_eq_some_iff.2 ⟨rfl, rfl⟩
  exact ⟨_, List.mem_reverse.2 h, by rw [hfound]; rfl⟩

end ApiStep

namespace ApiDraft

variable {d : ApiDraft} {name : String} {m : Method}

/-! ## Steps -/

theorem apply_webhook {o : Operation} (h : o.checkExamples = .ok ()) (name : String) :
    d.apply (.webhook name o) =
      { d with webhooks := PathItem.putOperation d.webhooks name o.method o.toObject } := by
  rw [apply, h]

/-- A step without an error leaves the webhooks alone, or puts its own. -/
theorem at?_webhooks_apply {step : ApiStep} (h : (d.apply step).errors = []) :
    PathItem.at? (d.apply step).webhooks name m =
      ((step.webhook? name m).map Operation.toObject).or (PathItem.at? d.webhooks name m) := by
  cases step with
  | webhook n o =>
    cases hexamples : o.checkExamples with
    | error e =>
      rw [apply, hexamples] at h
      simp [fail] at h
    | ok _ =>
      rw [apply_webhook hexamples, PathItem.at?_putOperation, ApiStep.webhook?]
      by_cases hhere : n = name ∧ o.method = m
      · obtain ⟨rfl, rfl⟩ := hhere
        simp
      · have hthere : ¬ (name = n ∧ m = o.method) := fun he => hhere ⟨he.1.symm, he.2.symm⟩
        rw [if_neg hhere, if_neg hthere]
        rfl
  | license | server | component =>
    rw [apply]
    split <;> rfl
  | _ => rfl

/-- After a run without an error, the last webhook of a name and a method is found. -/
theorem at?_webhooks_applyAll {steps : List ApiStep} (h : (d.applyAll steps).errors = []) :
    PathItem.at? (d.applyAll steps).webhooks name m =
      ((ApiStep.lastWebhook? name m steps).map Operation.toObject).or (PathItem.at? d.webhooks name m) := by
  induction steps using List.reverseRecOn with
  | nil => rfl
  | append_singleton steps step ih =>
    rw [applyAll_concat] at h ⊢
    rw [at?_webhooks_apply h, ih (errors_of_apply h), ApiStep.lastWebhook?_concat]
    cases step.webhook? name m <;> rfl

theorem webhooks_emit {os : List Operation} {doc : OpenApi} (h : (d.emit os).2 = .ok doc) :
    doc.webhooks = d.webhooks := by
  obtain ⟨-, -, rfl⟩ := (emit_ok_iff (errors_eq_nil_of_emit h)).1 h
  rfl

/-- A webhook whose examples do not clash makes no difference to whether there is a document. -/
theorem exists_emit_webhook_iff {o : Operation} (h : o.checkExamples = .ok ()) (name : String)
    (os : List Operation) : (∃ doc, ((d.apply (.webhook name o)).emit os).2 = .ok doc) ↔
      ∃ doc, (d.emit os).2 = .ok doc := by
  rw [exists_emit_iff, exists_emit_iff, apply_webhook h]

/-! ## Documents -/

/-- A document has under each name and method the webhook described last, and no other. So all webhooks that were
described are in it exactly when any two of the same name and method have the same content; a second one never
stands in the way of the document, and replaces the first. -/
theorem webhooks_of_emit {title version : String} {steps : List ApiStep} {os : List Operation} {doc : OpenApi}
    (h : (((titled title version).applyAll steps).emit os).2 = .ok doc) :
    (∀ name m, PathItem.at? doc.webhooks name m =
        (ApiStep.lastWebhook? name m steps).map Operation.toObject) ∧
      ((∀ name o, .webhook name o ∈ steps → PathItem.at? doc.webhooks name o.method = some o.toObject) ↔
        ∀ name o o', .webhook name o ∈ steps → .webhook name o' ∈ steps → o.method = o'.method →
          o.toObject = o'.toObject) ∧
      ∀ name o, o.checkExamples = .ok () → ∃ doc',
        (((titled title version).applyAll (steps ++ [.webhook name o])).emit os).2 = .ok doc' ∧
          PathItem.at? doc'.webhooks name o.method = some o.toObject := by
  have hlast {steps : List ApiStep} {doc : OpenApi}
      (h : (((titled title version).applyAll steps).emit os).2 = .ok doc) (name : String) (m : Method) :
      PathItem.at? doc.webhooks name m = (ApiStep.lastWebhook? name m steps).map Operation.toObject := by
    rw [webhooks_emit h, at?_webhooks_applyAll (errors_eq_nil_of_emit h)]
    exact Option.or_none
  refine ⟨hlast h, ⟨?_, ?_⟩, ?_⟩
  · intro hkept name o o' ho ho' hm
    have hfound := hkept name o ho
    rw [hm, hkept name o' ho'] at hfound
    exact (Option.some_inj.1 hfound).symm
  · intro hagree name o ho
    obtain ⟨last, hfound⟩ := ApiStep.exists_lastWebhook? ho
    obtain ⟨hmem, hm⟩ := ApiStep.mem_of_lastWebhook? hfound
    rw [hlast h, hfound, Option.map_some, hagree name last o hmem ho hm]
  · intro name o hexamples
    rw [applyAll_concat]
    obtain ⟨doc', hdoc'⟩ := (exists_emit_webhook_iff hexamples name os).2 ⟨doc, h⟩
    refine ⟨doc', hdoc', ?_⟩
    rw [← applyAll_concat] at hdoc'
    rw [hlast hdoc', ApiStep.lastWebhook?_concat, ApiStep.webhook?_eq_some_iff.2 ⟨rfl, rfl⟩]
    rfl

/-- Two webhooks of one name, and one of them described twice. -/
theorem webhooks_of_emit_orders :
    let created : Operation := { (default : Operation) with method := .post, summary := some "created" }
    let read : Operation := { (default : Operation) with method := .get, summary := some "read" }
    let steps : List ApiStep := [.webhook "order" created, .webhook "order" read, .webhook "order" created]
    ∃ doc, (((titled "Shop" "1").applyAll steps).emit []).2 = .ok doc ∧
      PathItem.at? doc.webhooks "order" .post = some created.toObject ∧
      PathItem.at? doc.webhooks "order" .get = some read.toObject := by
  intro created read steps
  have hok : (((titled "Shop" "1").applyAll steps).emit []).2.isOk = true := by decide +kernel
  obtain ⟨doc, hdoc⟩ := exists_ok_of_isOk hok
  obtain ⟨hlast, -, -⟩ := webhooks_of_emit hdoc
  exact ⟨doc, hdoc, hlast "order" .post, hlast "order" .get⟩

/-- A webhook can be lost: a second one of the same name and method takes its place. -/
theorem webhook_replaced :
    ¬ ∀ (title version : String) (steps : List ApiStep) (os : List Operation) (doc : OpenApi),
      (((titled title version).applyAll steps).emit os).2 = .ok doc →
        ∀ name o, .webhook name o ∈ steps → PathItem.at? doc.webhooks name o.method = some o.toObject := by
  intro h
  let created : Operation := { (default : Operation) with method := .post, summary := some "created" }
  let paid : Operation := { created with summary := some "paid" }
  have hok : (((titled "Shop" "1").applyAll [.webhook "order" created, .webhook "order" paid]).emit []).2.isOk =
      true := by decide +kernel
  obtain ⟨doc, hdoc⟩ := exists_ok_of_isOk hok
  have hfirst := h _ _ _ _ _ hdoc "order" created (by simp)
  have hsecond := h _ _ _ _ _ hdoc "order" paid (by simp)
  have hsame : some created.toObject = some paid.toObject := hfirst.symm.trans hsecond
  have hsummary : some "created" = some "paid" := congrArg (·.bind OperationObject.summary) hsame
  exact absurd hsummary (by decide)

end ApiDraft

end ApiDescription
