import ApiDescription.Operation.Compile
import ApiDescription.Proofs.Entries.Sorted
import Mathlib.Data.List.Induction

/-!
# What the steps of a draft leave

A step that registers responses changes nothing else but the errors (`Registers.frame`), and any other step
leaves the responses alone. So a draft stays in order whatever the steps are (`InOrder.applyAll`), and of what a
step overwrites, the last one given counts (`success_applyAll`, `responseHeaders_applyAll`).
-/

set_option autoImplicit false

namespace ApiDescription

/-- The step registers responses. -/
def OperationStep.registers : OperationStep → Bool
  | .respond _ _ _ | .respondSuccess _ _ _ | .respondError _ _ _ | .standardErrors _ => true
  | _ => false

namespace OperationDraft

variable {d d' d'' : OperationDraft}

/-! ## Registering responses -/

/-- Responses were put under free status codes and errors were kept, in any order. -/
inductive Registers (d : OperationDraft) : OperationDraft → Prop
  | unchanged : Registers d d
  | refused {d' : OperationDraft} (h : Registers d d') (e : OperationError) : Registers d (d'.fail e)
  | added {d' : OperationDraft} (h : Registers d d') (r : ResponseDefinition)
      (hcode : isStatusCode r.code = true) (hfree : d'.hasResponse r.code = false)
      (hheaders : r.headers = none) :
      Registers d { d' with responses := Sorted.insert d'.responses r.code r }

theorem Registers.trans (h : Registers d d') (h' : Registers d' d'') : Registers d d'' := by
  induction h' with
  | unchanged => exact h
  | refused _ e ih => exact .refused ih e
  | added _ r hcode hfree hheaders ih => exact .added ih r hcode hfree hheaders

/-- Nothing but the responses and the errors changes. -/
theorem Registers.frame (h : Registers d d') :
    d' = { d with responses := d'.responses, errors := d'.errors } := by
  induction h with
  | unchanged => rfl
  | @refused d' _ e ih =>
    rw [fail, ih]
  | @added d' _ r _ _ _ ih => rw [ih]

theorem Registers.success (h : Registers d d') : d'.success = d.success := by
  rw [h.frame]

theorem Registers.responseHeaders (h : Registers d d') : d'.responseHeaders = d.responseHeaders := by
  rw [h.frame]

theorem registers_respond (d : OperationDraft) (code : Nat) (schema : Option Schema) (description : String) :
    Registers d (d.respond code schema description) := by
  unfold respond
  cases hcode : isStatusCode code with
  | false => exact .refused .unchanged _
  | true =>
    cases hfree : d.hasResponse code with
    | true => exact .refused .unchanged _
    | false => exact .added .unchanged ⟨code, description, schema, none⟩ hcode hfree rfl

theorem registers_respondSuccess (d : OperationDraft) (code : Nat) (schema : Option Schema)
    (description : String) : Registers d (d.respondSuccess code schema description) := by
  unfold respondSuccess
  split
  · exact registers_respond d code schema description
  · exact .refused .unchanged _

theorem registers_respondError (d : OperationDraft) (code : Nat) (schema : Option Schema)
    (description : String) : Registers d (d.respondError code schema description) := by
  unfold respondError
  split
  · exact .refused .unchanged _
  · exact registers_respond d code schema description

theorem registers_respondStandard (d : OperationDraft) (code : Nat) :
    Registers d (d.respondStandard code) := by
  unfold respondStandard
  split
  · exact .unchanged
  · split
    · exact registers_respondError d code _ _
    · exact .refused .unchanged _

theorem registers_respondStandards (codes : List Nat) (d : OperationDraft) :
    Registers d (d.respondStandards codes) := by
  induction codes generalizing d with
  | nil => exact .unchanged
  | cons code codes ih => exact (registers_respondStandard d code).trans (ih (d.respondStandard code))

theorem registers_apply (d : OperationDraft) {step : OperationStep} (h : step.registers = true) :
    Registers d (d.apply step) := by
  cases step with
  | respond code schema description => exact registers_respond d code schema description
  | respondSuccess code schema description => exact registers_respondSuccess d code schema description
  | respondError code schema description => exact registers_respondError d code schema description
  | standardErrors codes => exact registers_respondStandards codes d
  | _ => nomatch h

theorem applyAll_concat (d : OperationDraft) (steps : List OperationStep) (step : OperationStep) :
    d.applyAll (steps ++ [step]) = (d.applyAll steps).apply step := by
  rw [applyAll, List.foldl_append]
  rfl

/-! ## Drafts in order -/

/-- The responses stand by ascending status code, each under its own, and have no headers yet. -/
structure Registered (rs : List (Nat × ResponseDefinition)) : Prop where
  ascending : Sorted.Ascending rs
  entries : ∀ code r, (code, r) ∈ rs → isStatusCode code = true ∧ r.code = code ∧ r.headers = none

theorem Registered.insert {rs : List (Nat × ResponseDefinition)} (h : Registered rs)
    {r : ResponseDefinition} (hcode : isStatusCode r.code = true) (hheaders : r.headers = none) :
    Registered (Sorted.insert rs r.code r) where
  ascending := h.ascending.insert r.code r
  entries code r' hr' := by
    obtain heq | hr' := Sorted.mem_insert hr'
    · cases heq
      exact ⟨hcode, rfl, hheaders⟩
    · exact h.entries code r' hr'

theorem Registers.registered (h : Registers d d') (hd : Registered d.responses) : Registered d'.responses := by
  induction h with
  | unchanged => exact hd
  | refused _ e ih => exact ih
  | added _ r hcode _ hheaders ih => exact ih.insert hcode hheaders

/-- The responses of the draft and the headers given for them are in order. -/
structure InOrder (d : OperationDraft) : Prop where
  responses : Registered d.responses
  headers : Sorted.Ascending d.responseHeaders

theorem Registers.inOrder (h : Registers d d') (hd : d.InOrder) : d'.InOrder :=
  ⟨h.registered hd.responses, h.responseHeaders ▸ hd.headers⟩

theorem inOrder_empty : InOrder {} := ⟨⟨.nil, by simp⟩, .nil⟩

theorem InOrder.apply (h : d.InOrder) (step : OperationStep) : (d.apply step).InOrder := by
  cases step with
  | respond | respondSuccess | respondError | standardErrors =>
    exact (registers_apply d rfl).inOrder h
  | responseHeaders code s => exact ⟨h.responses, h.headers.insert code s⟩
  | _ => exact ⟨h.responses, h.headers⟩

/-- Whatever the steps were, the draft is in order. -/
theorem InOrder.applyAll (h : d.InOrder) (steps : List OperationStep) : (d.applyAll steps).InOrder := by
  induction steps generalizing d with
  | nil => exact h
  | cons step steps ih => exact ih (h.apply step)

end OperationDraft

/-! ## The last one given -/

/-- The last value that the steps give. -/
def OperationStep.last {α : Type} (give : OperationStep → Option α) (steps : List OperationStep) : Option α :=
  steps.reverse.findSome? give

/-- The schema for the success code that a step gives. -/
def OperationStep.success? : OperationStep → Option Schema
  | .success s => some s
  | _ => none

/-- The headers of the response under a status code that a step gives. -/
def OperationStep.headersOf? (code : Nat) : OperationStep → Option Schema
  | .responseHeaders c s => if c = code then some s else none
  | _ => none

namespace OperationDraft

/-- What every step overwrites by what it gives is in the end the last one given. -/
theorem last_applyAll {α : Type} (give : OperationStep → Option α) (kept : OperationDraft → Option α)
    (hstep : ∀ d step, kept (d.apply step) = (give step).or (kept d)) (d : OperationDraft)
    (steps : List OperationStep) : kept (d.applyAll steps) = (OperationStep.last give steps).or (kept d) := by
  induction steps using List.reverseRecOn with
  | nil => rfl
  | append_singleton steps step ih =>
    have hlast : OperationStep.last give (steps ++ [step]) =
        (give step).or (OperationStep.last give steps) := by
      rw [OperationStep.last, List.reverse_append, List.reverse_singleton, List.singleton_append,
        List.findSome?_cons]
      cases give step <;> rfl
    rw [applyAll_concat, hstep, ih, hlast, Option.or_assoc]

theorem success_applyAll (d : OperationDraft) (steps : List OperationStep) :
    (d.applyAll steps).success = (OperationStep.last OperationStep.success? steps).or d.success := by
  refine last_applyAll _ (fun d => d.success) (fun d step => ?_) d steps
  cases step with
  | respond | respondSuccess | respondError | standardErrors => exact (registers_apply d rfl).success
  | _ => rfl

theorem responseHeaders_applyAll (d : OperationDraft) (steps : List OperationStep) (code : Nat) :
    Sorted.get? (d.applyAll steps).responseHeaders code =
      (OperationStep.last (OperationStep.headersOf? code) steps).or (Sorted.get? d.responseHeaders code) := by
  refine last_applyAll _ (fun d => Sorted.get? d.responseHeaders code) (fun d step => ?_) d steps
  cases step with
  | respond | respondSuccess | respondError | standardErrors =>
    exact congrArg (Sorted.get? · code) (registers_apply d rfl).responseHeaders
  | responseHeaders c s =>
    by_cases hc : c = code
    · subst hc
      simp [apply, OperationStep.headersOf?]
    · simp [apply, OperationStep.headersOf?, hc, Sorted.get?_insert_ne _ _ (Ne.symm hc)]
  | _ => rfl

end OperationDraft

end ApiDescription
