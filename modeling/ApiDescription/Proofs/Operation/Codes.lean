import ApiDescription.Operation.Written
import ApiDescription.Proofs.Entries.Table
import ApiDescription.Proofs.Operation.Checked
import Mathlib.Data.List.Nodup

/-!
# Status codes that have a response

The steps of a draft name status codes, and unless one of them fails there is a response for each and for no other
(`hasResponse_applyAll_iff`). Compiling adds the success code, if a schema was given for it
(`Compiles.hasResponse_iff`). In a document each code is written in decimal, and an operation without responses has
the usual ones (`mem_keys_responseObjects_iff`).
-/

set_option autoImplicit false

namespace ApiDescription

/-! ## Keys -/

theorem Sorted.has_insert_iff {α : Type} {es : List (Nat × α)} {key code : Nat} {value : α} :
    has (insert es key value) code = true ↔ has es code = true ∨ code = key := by
  by_cases h : code = key
  · simp [has, h]
  · simp [has, h, get?_insert_ne]

theorem Sorted.has_iff_of_ascending {α : Type} {es : List (Nat × α)} (h : Ascending es) {code : Nat} :
    has es code = true ↔ code ∈ es.map Prod.fst := by
  rw [has, Option.isSome_iff_exists, List.mem_map]
  constructor
  · rintro ⟨value, hvalue⟩
    exact ⟨(code, value), mem_of_get? hvalue, rfl⟩
  · rintro ⟨e, he, rfl⟩
    exact ⟨e.2, h.mem_iff.1 he⟩

theorem Sorted.nodup_of_ascending {α : Type} {es : List (Nat × α)} (h : Ascending es) :
    (es.map Prod.fst).Nodup :=
  List.pairwise_map.2 (h.imp Nat.ne_of_lt)

/-- Different codes are written differently. -/
theorem eq_of_toString_eq {a b : Nat} (h : toString a = toString b) : a = b := by
  have hdigits : Nat.toDigits 10 a = Nat.toDigits 10 b := by
    rw [← Nat.toList_repr, ← Nat.toList_repr]
    exact congrArg String.toList h
  rw [← Nat.ofDigitChars_ten_toDigits (n := a), hdigits, Nat.ofDigitChars_ten_toDigits]

/-! ## Steps -/

/-- The status codes for which a step registers responses. -/
def OperationStep.codes : OperationStep → List Nat
  | .respond code _ _ | .respondSuccess code _ _ | .respondError code _ _ => [code]
  | .standardErrors codes => codes
  | _ => []

namespace OperationDraft

variable {d d' d'' : OperationDraft}

/-- Unless it has errors, the second draft has the responses of the first one and those for the codes. -/
def Extends (d : OperationDraft) (codes : List Nat) (d' : OperationDraft) : Prop :=
  d'.errors = [] → d.errors = [] ∧
    ∀ code, d'.hasResponse code = true ↔ d.hasResponse code = true ∨ code ∈ codes

theorem extends_nil (herrors : d'.errors = d.errors) (hresponses : d'.responses = d.responses) :
    Extends d [] d' := by
  intro h
  refine ⟨herrors ▸ h, fun code => ?_⟩
  rw [hasResponse, hresponses]
  simp [hasResponse]

theorem extends_fail (d : OperationDraft) (e : OperationError) (codes : List Nat) :
    Extends d codes (d.fail e) := by
  intro h
  simp [fail] at h

theorem Extends.trans {codes codes' : List Nat} (h : Extends d codes d') (h' : Extends d' codes' d'') :
    Extends d (codes ++ codes') d'' := by
  intro herrors
  obtain ⟨herrors', hcodes'⟩ := h' herrors
  obtain ⟨hnone, hcodes⟩ := h herrors'
  refine ⟨hnone, fun code => ?_⟩
  rw [hcodes', hcodes, List.mem_append, or_assoc]

theorem extends_respond (d : OperationDraft) (code : Nat) (schema : Option Schema) (description : String) :
    Extends d [code] (d.respond code schema description) := by
  unfold respond
  split
  · exact extends_fail d _ _
  · split
    · exact extends_fail d _ _
    · intro h
      refine ⟨h, fun code' => ?_⟩
      rw [List.mem_singleton]
      exact Sorted.has_insert_iff

theorem extends_respondError (d : OperationDraft) (code : Nat) (schema : Option Schema) (description : String) :
    Extends d [code] (d.respondError code schema description) := by
  unfold respondError
  split
  · exact extends_fail d _ _
  · exact extends_respond d code schema description

theorem extends_respondStandard (d : OperationDraft) (code : Nat) :
    Extends d [code] (d.respondStandard code) := by
  unfold respondStandard
  split
  · next hhas =>
    intro h
    refine ⟨h, fun code' => ?_⟩
    rw [List.mem_singleton]
    exact ⟨.inl, fun h => h.elim id fun heq => heq ▸ hhas⟩
  · split
    · exact extends_respondError d code _ _
    · exact extends_fail d _ _

theorem extends_respondStandards (codes : List Nat) (d : OperationDraft) :
    Extends d codes (d.respondStandards codes) := by
  induction codes generalizing d with
  | nil => exact extends_nil rfl rfl
  | cons code codes ih => exact (extends_respondStandard d code).trans (ih (d.respondStandard code))

theorem extends_apply (d : OperationDraft) (step : OperationStep) : Extends d step.codes (d.apply step) := by
  cases step with
  | respond code schema description => exact extends_respond d code schema description
  | respondSuccess code schema description =>
    rw [apply, respondSuccess]
    split
    · exact extends_respond d code schema description
    · exact extends_fail d _ _
  | respondError code schema description => exact extends_respondError d code schema description
  | standardErrors codes => exact extends_respondStandards codes d
  | _ => exact extends_nil rfl rfl

theorem extends_applyAll (d : OperationDraft) (steps : List OperationStep) :
    Extends d (steps.flatMap OperationStep.codes) (d.applyAll steps) := by
  induction steps generalizing d with
  | nil => exact extends_nil rfl rfl
  | cons step steps ih => exact (extends_apply d step).trans (ih (d.apply step))

/-- If no step failed, there are responses for the codes that the steps name. -/
theorem hasResponse_applyAll_iff {steps : List OperationStep}
    (h : (({} : OperationDraft).applyAll steps).errors = []) (code : Nat) :
    (({} : OperationDraft).applyAll steps).hasResponse code = true ↔ code ∈ steps.flatMap OperationStep.codes := by
  rw [(extends_applyAll {} steps h).2]
  simp [hasResponse, Sorted.has, Sorted.get?]

/-- A compiled operation has the responses of the draft, and one for the success code if there is a schema for
it. -/
theorem Compiles.hasResponse_iff {o : Operation} (h : Compiles d o) (hd : d.InOrder) (code : Nat) :
    Sorted.has o.responses code = true ↔
      d.hasResponse code = true ∨ (d.success.isSome = true ∧ code = d.successCode) := by
  obtain ⟨rs, hsuccess, hattach⟩ := h.responses
  obtain ⟨-, hget⟩ := attachHeaders_ok hd.headers hattach
  obtain ⟨-, hnone, hput⟩ := withSuccess_ok hsuccess
  have hsame : Sorted.has o.responses code = Sorted.has rs code := by
    rw [Sorted.has, hget, Option.isSome_map, Sorted.has]
  rw [hsame]
  cases hs : d.success with
  | none => simp [hnone hs, hasResponse]
  | some s => simp [hput s hs, Sorted.has_insert_iff, hasResponse]

end OperationDraft

/-! ## Written responses -/

namespace Operation

/-- The codes of the responses that an operation is written with. -/
def writtenCodes (o : Operation) : List Nat :=
  if o.responses = [] then o.successCode :: stubErrorCodes else o.responses.map Prod.fst

theorem keys_stubResponses (o : Operation) :
    Entries.keys o.stubResponses =
      (stubErrorCodes.map toString).foldl Entries.reach [toString o.successCode] := by
  simp only [stubResponses, stubErrorCodes, List.foldl_cons, List.foldl_nil, Entries.keys_putNew, List.map_cons,
    List.map_nil]
  rfl

theorem keys_responseObjects {o : Operation} (h : o.responses ≠ []) :
    Entries.keys o.responseObjects = (o.responses.map Prod.fst).map toString := by
  rw [responseObjects, if_neg (by simpa using h), Entries.keys, List.map_map, List.map_map]
  rfl

theorem mem_keys_responseObjects_iff (o : Operation) (key : String) :
    key ∈ Entries.keys o.responseObjects ↔ ∃ code ∈ o.writtenCodes, key = toString code := by
  by_cases h : o.responses = []
  · have hstub : o.responseObjects = o.stubResponses := by simp [responseObjects, h]
    rw [hstub, keys_stubResponses, Entries.mem_foldl_reach_iff, ← List.mem_append, List.singleton_append,
      ← List.map_cons, writtenCodes, if_pos h]
    simp only [List.mem_map, eq_comm]
  · rw [keys_responseObjects h, writtenCodes, if_neg h]
    simp only [List.mem_map, eq_comm]

/-- No code is written twice. -/
theorem nodup_keys_responseObjects {o : Operation} (h : Sorted.Ascending o.responses) :
    (Entries.keys o.responseObjects).Nodup := by
  by_cases hnone : o.responses = []
  · have hstub : o.responseObjects = o.stubResponses := by simp [responseObjects, hnone]
    rw [hstub, keys_stubResponses]
    exact Entries.nodup_foldl_reach (List.nodup_singleton _) _
  · rw [keys_responseObjects hnone]
    exact (Sorted.nodup_of_ascending h).map fun _ _ => eq_of_toString_eq

/-- An operation is written with a response. -/
theorem responseObjects_ne_nil (o : Operation) : o.responseObjects ≠ [] := by
  have hcodes : o.writtenCodes ≠ [] := by
    unfold writtenCodes
    split
    · exact List.cons_ne_nil _ _
    · next h => simpa using h
  obtain ⟨code, hcode⟩ := List.exists_mem_of_ne_nil _ hcodes
  have hkey := (o.mem_keys_responseObjects_iff (toString code)).2 ⟨code, hcode, rfl⟩
  rintro hnil
  simp [hnil, Entries.keys] at hkey

end Operation

end ApiDescription
