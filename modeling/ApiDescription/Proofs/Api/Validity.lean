import ApiDescription.Proofs.Api.Emit
import ApiDescription.Proofs.Combine.Validity
import ApiDescription.Proofs.Document.OpenApi
import ApiDescription.Proofs.Operation.Codes

/-!
# What can be wrong with an emitted document

Every path item that an operation is put into has an operation, and every operation is written with a response
(`PathItem.Filled.putOperation`). So the check of a written document can only miss what the draft was given: its
title, its version and its operations (`passes_of_emit`).
-/

set_option autoImplicit false

namespace ApiDescription

/-! ## Path items -/

namespace PathItem

variable {items : List (String × PathItem)}

theorem mem_operations_iff {p : PathItem} {a : Method × OperationObject} :
    a ∈ p.operations ↔ p.operation? a.1 = some a.2 := by
  have hall : a.1 ∈ Method.all := by cases a.1 <;> decide
  rw [operations, List.mem_filterMap]
  constructor
  · rintro ⟨m, -, hm⟩
    obtain ⟨o, ho, rfl⟩ := Option.map_eq_some_iff.1 hm
    exact ho
  · intro h
    exact ⟨a.1, hall, by rw [h]; rfl⟩

/-- Every item has an operation, and every operation a response. -/
def Filled (items : List (String × PathItem)) : Prop :=
  ∀ e ∈ items, e.2.operations ≠ [] ∧ ∀ a ∈ e.2.operations, a.2.responses ≠ []

theorem filled_nil : Filled [] := by simp [Filled]

theorem Filled.putOperation (h : Filled items) (key : String) (m : Method) {o : OperationObject}
    (ho : o.responses ≠ []) : Filled (putOperation items key m o) := by
  intro e he
  rcases Entries.mem_put he with rfl | he
  · have hput : (m, o) ∈ (((Entries.get? items key).getD {}).setOperation m o).operations := by
      rw [mem_operations_iff, operation?_setOperation, if_pos rfl]
    refine ⟨List.ne_nil_of_mem hput, fun a ha => ?_⟩
    rw [mem_operations_iff, operation?_setOperation] at ha
    split at ha
    · exact Option.some_inj.1 ha ▸ ho
    · -- any other operation was there before
      cases hget : Entries.get? items key with
      | none =>
        rw [hget] at ha
        cases hm : a.1 <;> rw [hm] at ha <;> nomatch ha
      | some p =>
        rw [hget] at ha
        exact (h _ (Entries.mem_of_get?_eq_some hget)).2 a (mem_operations_iff.2 ha)
  · exact h e he

theorem filled_putOperations (h : Filled items) (os : List Operation) : Filled (putOperations items os) := by
  induction os generalizing items with
  | nil => exact h
  | cons o os ih => exact ih (h.putOperation o.path o.method o.responseObjects_ne_nil)

theorem putOperations_eq_nil_iff {os : List Operation} : putOperations [] os = [] ↔ os = [] := by
  induction os using List.reverseRecOn with
  | nil => exact iff_of_true rfl rfl
  | append_singleton os o =>
    have hput : putOperations [] (os ++ [o]) =
        putOperation (putOperations [] os) o.path o.method o.toObject := List.foldl_append
    rw [hput]
    exact iff_of_false (Entries.put_ne_nil _ _ _) (by simp)

/-! ### Written forms -/

/-- The check sees the operations of the item. -/
theorem operationsOf_toJson (p : PathItem) :
    DocumentFault.operationsOf p.toJson = p.operations.map fun a => (a.1.name, a.2.toJson) := by
  have hmethods : DocumentFault.operationsOf p.toJson = Json.present
      (Method.all.map fun m => (m.name, (p.operation? m).map OperationObject.toJson)) := by
    rw [toJson_eq]
    exact Json.filter_present DocumentFault.isMethod _
  have hpresent (ms : List Method) :
      Json.present (ms.map fun m => (m.name, (p.operation? m).map OperationObject.toJson)) =
        (ms.filterMap fun m => (p.operation? m).map (m, ·)).map fun a => (a.1.name, a.2.toJson) := by
    induction ms with
    | nil => rfl
    | cons m ms ih =>
      cases h : p.operation? m <;> simpa [Json.present, Json.member?, h] using ih
  exact hmethods.trans (hpresent Method.all)

theorem hasResponses_toJson_iff (o : OperationObject) :
    DocumentFault.hasResponses o.toJson = true ↔ o.responses ≠ [] := by
  have hfield : o.toJson.get? "responses" =
      some (Json.mapOf (OrReference.toJson Response.toJson) o.responses) := by
    simp [OperationObject.toJson_eq, Json.record, Json.get?, Json.get?_present_cons]
  rw [DocumentFault.hasResponses_iff, hfield]
  simp [Json.mapOf]

/-- The paths of a document are in order when they are filled. -/
theorem checkPaths_ok_iff_filled :
    DocumentFault.checkPaths (items.map fun e => (e.1, e.2.toJson)) = .ok () ↔ Filled items := by
  simp only [DocumentFault.checkPaths_ok_iff, List.forall_mem_map, operationsOf_toJson, hasResponses_toJson_iff,
    ne_eq, List.map_eq_nil_iff]
  rfl

end PathItem

/-! ## Documents -/

/-- The check of a written document looks at its title, its version and its paths. -/
theorem OpenApi.check_toJson {doc : OpenApi} (hversion : doc.openapi = openApiVersion) :
    DocumentFault.check doc.toJson =
      if Text.isBlank doc.info.title = true then .error .noTitle
      else if Text.isBlank doc.info.version = true then .error .noInfoVersion
      else if doc.paths = [] then .error .noPaths
      else DocumentFault.checkPaths (doc.paths.map fun e => (e.1, e.2.toJson)) := by
  have hopenapi : doc.toJson.get? "openapi" = some (.string doc.openapi) := by
    simp [OpenApi.toJson_eq, Json.record, Json.get?, Json.get?_present_cons]
  have hinfo : doc.toJson.get? "info" = some doc.info.toJson := by
    simp [OpenApi.toJson_eq, Json.record, Json.get?, Json.get?_present_cons]
  have hpaths : doc.toJson.get? "paths" = some (Json.mapOf PathItem.toJson doc.paths) := by
    simp [OpenApi.toJson_eq, Json.record, Json.get?, Json.get?_present_cons]
  have htitle : doc.info.toJson.get? "title" = some (.string doc.info.title) := by
    simp [Info.toJson_eq, Json.record, Json.get?, Json.get?_present_cons]
  have hnumber : doc.info.toJson.get? "version" = some (.string doc.info.version) := by
    simp [Info.toJson_eq, Json.record, Json.get?, Json.get?_present_cons]
  have hfilled : Text.isBlank openApiVersion = false := by decide
  simp [DocumentFault.check, hopenapi, hinfo, hpaths, htitle, hnumber, hversion, hfilled, DocumentFault.isFilled,
    Json.mapOf, Json.members?]

/-- What is wrong with the document is what was wrong with the title, the version and the operations that it was
emitted for. -/
structure OpenApi.Sound (doc : OpenApi) (title version : String) (os : List Operation) : Prop where
  valid_iff : DocumentFault.check doc.toJson = .ok () ↔
    Text.isBlank title = false ∧ Text.isBlank version = false ∧ os ≠ []
  fault : ∀ fault, DocumentFault.check doc.toJson = .error fault →
    fault = .noTitle ∨ fault = .noInfoVersion ∨ fault = .noPaths
  /-- Every operation of the document has a response, those of the webhooks included. -/
  paths : PathItem.Filled doc.paths
  webhooks : PathItem.Filled doc.webhooks

namespace ApiDraft

variable {d : ApiDraft} {title version : String} {os : List Operation} {doc : OpenApi}

/-- The draft has the title and the version, and every operation of its webhooks has a response. -/
structure Begun (d : ApiDraft) (title version : String) : Prop where
  title : d.info.title = title
  version : d.info.version = version
  webhooks : PathItem.Filled d.webhooks

theorem begun_titled (title version : String) : (titled title version).Begun title version :=
  ⟨rfl, rfl, PathItem.filled_nil⟩

theorem Begun.apply (h : d.Begun title version) (step : ApiStep) : (d.apply step).Begun title version := by
  cases step with
  | license | server | component =>
    rw [ApiDraft.apply]
    split <;> exact ⟨h.title, h.version, h.webhooks⟩
  | webhook name o =>
    rw [ApiDraft.apply]
    split
    · exact ⟨h.title, h.version, h.webhooks.putOperation name o.method o.responseObjects_ne_nil⟩
    · exact ⟨h.title, h.version, h.webhooks⟩
  | _ => exact ⟨h.title, h.version, h.webhooks⟩

theorem Begun.applyAll (h : d.Begun title version) (steps : List ApiStep) :
    (d.applyAll steps).Begun title version := by
  induction steps generalizing d with
  | nil => exact h
  | cons step steps ih => exact ih (h.apply step)

theorem Begun.sound (h : d.Begun title version) (hemit : (d.emit os).2 = .ok doc) : doc.Sound title version os := by
  have herrors := errors_eq_nil_of_emit hemit
  obtain ⟨-, -, rfl⟩ := (emit_ok_iff herrors).1 hemit
  have hfilled := PathItem.filled_putOperations PathItem.filled_nil os
  -- with the paths in order, the check ends where the title, the version and the paths are looked at
  have hcheck : DocumentFault.check (d.toDocument (PathItem.putOperations [] os)).toJson =
      if Text.isBlank title = true then .error .noTitle
      else if Text.isBlank version = true then .error .noInfoVersion
      else if os = [] then .error .noPaths else .ok () := by
    rw [OpenApi.check_toJson rfl]
    simp only [toDocument, h.title, h.version, PathItem.putOperations_eq_nil_iff,
      PathItem.checkPaths_ok_iff_filled.2 hfilled]
  constructor
  case valid_iff =>
    rw [hcheck]
    split_ifs with htitle hversion hos
    · simp [htitle]
    · simp [hversion]
    · simp [hos]
    · simp [htitle, hversion, hos]
  case fault =>
    intro fault hfault
    rw [hcheck] at hfault
    split_ifs at hfault <;> cases hfault <;> simp
  case paths => exact hfilled
  case webhooks => exact h.webhooks

/-- The check finds no fault in an emitted document, whatever the draft has been told, but a blank title, a blank
version or that there are no operations. -/
theorem sound_of_emit {steps : List ApiStep}
    (h : (((titled title version).applyAll steps).emit os).2 = .ok doc) : doc.Sound title version os :=
  ((begun_titled title version).applyAll steps).sound h

/-- A document with a webhook and two operations under one path, one of which has no response of its own. -/
theorem sound_of_emit_items :
    let add : Operation := { (default : Operation) with path := "/items", method := .post, successCode := 201 }
    let list : Operation := { add with method := .get, responses := [(204, { code := 204, description := "none" })] }
    let steps : List ApiStep := [.webhook "added" add, .tag { name := "items" }, .server { url := "/v1" }]
    ∃ doc, (((titled "Shop" "1").applyAll steps).emit [list, add]).2 = .ok doc ∧
      doc.Sound "Shop" "1" [list, add] ∧ DocumentFault.check doc.toJson = .ok () := by
  intro add list steps
  have hok : (((titled "Shop" "1").applyAll steps).emit [list, add]).2.isOk = true := by decide +kernel
  obtain ⟨doc, hdoc⟩ := exists_ok_of_isOk hok
  have hsound : doc.Sound "Shop" "1" [list, add] := sound_of_emit hdoc
  have hfilled : Text.isBlank "Shop" = false ∧ Text.isBlank "1" = false := by decide
  exact ⟨doc, hdoc, hsound, hsound.valid_iff.2 ⟨hfilled.1, hfilled.2, by simp⟩⟩

end ApiDraft

end ApiDescription
