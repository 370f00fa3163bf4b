import ApiDescription.Api.Emit
import ApiDescription.Proofs.Api.Paths
import ApiDescription.Proofs.Fold
import ApiDescription.Proofs.Schema.Node

/-!
# Documents hold the operations that they are emitted for

A document is emitted exactly when no two operations share their route or their identifier and no attached
schema has examples of both kinds (`emitPaths_ok_iff`). Then it holds each operation where it belongs, and no
other (`describesAll_of_emit`).
-/

set_option autoImplicit false

namespace ApiDescription

open scoped List

namespace Operation

/-! ## Operations that differ -/

/-- The method and the path. -/
def route (o : Operation) : Method × String := (o.method, o.path)

/-- No two operations share their route, and no two their identifier. -/
structure Distinct (os : List Operation) : Prop where
  routes : (os.map route).Nodup
  ids : (os.filterMap (·.operationId)).Nodup

theorem distinct_nil : Distinct [] := ⟨List.nodup_nil, List.nodup_nil⟩

theorem Distinct.of_append {os ps : List Operation} (h : Distinct (os ++ ps)) : Distinct os where
  routes := (List.nodup_append.1 (List.map_append ▸ h.routes)).1
  ids := (List.nodup_append.1 (List.filterMap_append ▸ h.ids)).1

theorem sameRoute_iff {o p : Operation} : o.sameRoute p = true ↔ p.route = o.route := by
  simp only [sameRoute, route, Bool.and_eq_true, beq_iff_eq, Prod.mk.injEq]
  exact and_congr eq_comm eq_comm

theorem checkUnique_ok_iff {before : List Operation} {o : Operation} :
    o.checkUnique before = .ok () ↔ o.route ∉ before.map route ∧
      ∀ id, o.operationId = some id → id ∉ before.filterMap (·.operationId) := by
  have hroute : before.any o.sameRoute = true ↔ o.route ∈ before.map route := by
    simp only [List.any_eq_true, sameRoute_iff, List.mem_map]
  have hid (id : String) : (before.any fun p => p.operationId == some id) = true ↔
      id ∈ before.filterMap (·.operationId) := by
    simp only [List.any_eq_true, beq_iff_eq, List.mem_filterMap]
  simp only [← hroute, ← hid, checkUnique]
  cases before.any o.sameRoute with
  | true => simp
  | false =>
    cases o.operationId with
    | none => simp
    | some id =>
      simp only [Option.some_inj, forall_eq']
      cases before.any fun p => p.operationId == some id <;> simp

theorem distinct_concat_iff {before : List Operation} {o : Operation} :
    Distinct (before ++ [o]) ↔ Distinct before ∧ o.checkUnique before = .ok () := by
  have hroutes : ((before ++ [o]).map route).Nodup ↔
      (before.map route).Nodup ∧ o.route ∉ before.map route := by
    rw [List.map_append, List.nodup_append]
    simp
  have hids : ((before ++ [o]).filterMap (·.operationId)).Nodup ↔
      (before.filterMap (·.operationId)).Nodup ∧
        ∀ id, o.operationId = some id → id ∉ before.filterMap (·.operationId) := by
    rw [List.filterMap_append, List.nodup_append]
    cases hid : o.operationId with
    | none => simp [hid]
    | some id => simp [hid, List.forall_mem_ne', -List.mem_filterMap]
  rw [checkUnique_ok_iff]
  constructor
  · rintro ⟨h, h'⟩
    obtain ⟨hr, hnew⟩ := hroutes.1 h
    obtain ⟨hi, hfree⟩ := hids.1 h'
    exact ⟨⟨hr, hi⟩, hnew, hfree⟩
  · rintro ⟨⟨hr, hi⟩, hnew, hfree⟩
    exact ⟨hroutes.2 ⟨hr, hnew⟩, hids.2 ⟨hi, hfree⟩⟩

/-! ## Examples -/

theorem checkExamples_ok_iff {o : Operation} : o.checkExamples = .ok () ↔
    ∀ a ∈ o.schemas, ∀ place t, a.2.Node place t → Schema.hasBothExamples t.facets = false := by
  have hclash : ∀ a : SchemaSlot × Schema, a.2.exampleConflict? = none ↔
      ∀ place t, a.2.Node place t → Schema.hasBothExamples t.facets = false :=
    fun a => a.2.exampleConflict?_eq_none_iff
  simp only [← hclash]
  unfold checkExamples
  split
  · next slot location h =>
    obtain ⟨a, ha, hfound⟩ := List.exists_of_findSome?_eq_some h
    simp only [reduceCtorEq, false_iff]
    intro hnone
    simp [hnone a ha] at hfound
  · next h => simpa using h

end Operation

/-! ## Path items of operations -/

/-- The path items with each of the operations put into them, in order. -/
def PathItem.putOperations (items : List (String × PathItem)) (os : List Operation) :
    List (String × PathItem) :=
  os.foldl (fun items o => putOperation items o.path o.method o.toObject) items

namespace ApiDraft

variable {d : ApiDraft}

/-- Behind operations that differ, the path items of more operations are emitted exactly when all of them differ
and have no examples of both kinds. -/
theorem emitPaths_ok_iff {before os : List Operation} (hbefore : Operation.Distinct before)
    (items : List (String × PathItem)) {items' : List (String × PathItem)} :
    (d.emitPaths before items os).2 = .ok items' ↔
      Operation.Distinct (before ++ os) ∧ (∀ o ∈ os, o.checkExamples = .ok ()) ∧
        PathItem.putOperations items os = items' := by
  induction os generalizing before items with
  | nil => simp [emitPaths, PathItem.putOperations, hbefore]
  | cons o os ih =>
    have happend : before ++ o :: os = before ++ [o] ++ os := by simp
    rw [happend, emitPaths]
    cases hunique : o.checkUnique before with
    | error e =>
      have hshared : ¬ Operation.Distinct (before ++ [o]) := by
        intro h
        have hok := (Operation.distinct_concat_iff.1 h).2
        rw [hunique] at hok
        nomatch hok
      -- what fails for the first operation fails for all of them
      have hall : ¬ Operation.Distinct (before ++ [o] ++ os) := fun h => hshared h.of_append
      simp only [hall, false_and, iff_false]
      exact nofun
    | ok _ =>
      have hdistinct := Operation.distinct_concat_iff.2 ⟨hbefore, hunique⟩
      cases hexamples : o.checkExamples with
      | error e => simp [hexamples]
      | ok _ =>
        have hrest := ih hdistinct (PathItem.putOperation items o.path o.method o.toObject)
        have hput : PathItem.putOperations items (o :: os) = PathItem.putOperations
            (PathItem.putOperation items o.path o.method o.toObject) os := rfl
        simpa [hexamples, hput] using hrest

end ApiDraft

namespace PathItem

/-- The path items hold each of the operations under its path and method, and no other. -/
structure Holds (items : List (String × PathItem)) (os : List Operation) : Prop where
  operations : PathItem.located items ~ os.map fun o => (o.path, o.method, o.toObject)
  found : ∀ path m object, PathItem.at? items path m = some object ↔
    ∃ o ∈ os, o.path = path ∧ o.method = m ∧ o.toObject = object
  keys : Entries.keys items = (os.map (·.path)).eraseDups

theorem holds_nil : Holds [] [] := ⟨.nil, by simp [PathItem.at?], rfl⟩

/-- An operation with a route of its own is held as well once it is put. -/
theorem Holds.concat {items : List (String × PathItem)} {os : List Operation} (h : Holds items os)
    {o : Operation} (hroute : o.route ∉ os.map Operation.route) :
    Holds (PathItem.putOperation items o.path o.method o.toObject) (os ++ [o]) := by
  have hother : ∀ p ∈ os, ¬ (p.path = o.path ∧ p.method = o.method) := by
    rintro p hp ⟨hpath, hmethod⟩
    exact hroute (List.mem_map.2 ⟨p, hp, by rw [Operation.route, hpath, hmethod]; rfl⟩)
  have hfree : PathItem.at? items o.path o.method = none := by
    rw [Option.eq_none_iff_forall_ne_some]
    intro object hobject
    obtain ⟨p, hp, hpath, hmethod, -⟩ := (h.found _ _ _).1 hobject
    exact hother p hp ⟨hpath, hmethod⟩
  constructor
  case operations =>
    calc PathItem.located (PathItem.putOperation items o.path o.method o.toObject)
        ~ (o.path, o.method, o.toObject) :: PathItem.located items := PathItem.located_putOperation hfree
      _ ~ (o.path, o.method, o.toObject) :: os.map fun o => (o.path, o.method, o.toObject) :=
        h.operations.cons _
      _ ~ (os ++ [o]).map fun o => (o.path, o.method, o.toObject) := by
        rw [List.map_append]
        exact (List.perm_append_singleton _ _).symm
  case found =>
    intro path m object
    rw [PathItem.at?_putOperation]
    split
    · next hhere =>
      obtain ⟨rfl, rfl⟩ := hhere
      constructor
      · intro hobject
        exact ⟨o, by simp, rfl, rfl, Option.some_inj.1 hobject⟩
      · rintro ⟨p, hp, hpath, hmethod, rfl⟩
        rcases List.mem_append.1 hp with hp | hp
        · exact absurd ⟨hpath, hmethod⟩ (hother p hp)
        · rw [List.mem_singleton.1 hp]
    · next hthere =>
      rw [h.found]
      constructor
      · rintro ⟨p, hp, hp'⟩
        exact ⟨p, List.mem_append_left _ hp, hp'⟩
      · rintro ⟨p, hp, hpath, hmethod, hobject⟩
        rcases List.mem_append.1 hp with hp | hp
        · exact ⟨p, hp, hpath, hmethod, hobject⟩
        · cases List.mem_singleton.1 hp
          exact absurd ⟨hpath.symm, hmethod.symm⟩ hthere
  case keys =>
    rw [PathItem.keys_putOperation, h.keys, List.map_append, List.map_singleton,
      Entries.eraseDups_append_singleton]

/-- Path items that operations of different routes were put into hold these. -/
theorem holds_putOperations {os : List Operation} (h : (os.map Operation.route).Nodup) :
    Holds (PathItem.putOperations [] os) os := by
  induction os using List.reverseRecOn with
  | nil => exact holds_nil
  | append_singleton os o ih =>
    rw [List.map_append, List.nodup_append] at h
    obtain ⟨hos, -, hnew⟩ := h
    have hroute : o.route ∉ os.map Operation.route := fun hmem => hnew _ hmem _ (by simp) rfl
    rw [PathItem.putOperations, List.foldl_append]
    exact (ih hos).concat hroute

end PathItem

/-! ## Steps -/

namespace ApiDraft

variable {d : ApiDraft}

theorem applyAll_concat (d : ApiDraft) (steps : List ApiStep) (step : ApiStep) :
    d.applyAll (steps ++ [step]) = (d.applyAll steps).apply step := by
  rw [applyAll, List.foldl_append]
  rfl

/-- An error stays. -/
theorem errors_of_apply {step : ApiStep} (h : (d.apply step).errors = []) : d.errors = [] := by
  cases step with
  | license | server | component | webhook =>
    rw [apply] at h
    split at h
    · exact h
    · simp [fail] at h
  | _ => exact h

end ApiDraft

/-! ## Documents -/

/-- The document has the operations under its paths, and no other. -/
structure OpenApi.DescribesAll (doc : OpenApi) (os : List Operation) : Prop where
  holds : PathItem.Holds doc.paths os
  count : doc.operationCount = os.length
  ids : ((PathItem.located doc.paths).filterMap fun a => a.2.2.operationId).Nodup

theorem OpenApi.operationCount_eq (doc : OpenApi) :
    doc.operationCount = (PathItem.located doc.paths).length := by
  rw [operationCount, PathItem.located, List.length_flatMap, List.length_flatMap]
  simp only [List.length_map]

namespace ApiDraft

/-- An attached schema has, somewhere inside it, both a single example and named ones. -/
def ExamplesClash (os : List Operation) : Prop :=
  ∃ o ∈ os, ∃ a ∈ o.schemas, ∃ place t, a.2.Node place t ∧ t.facets.sample ≠ none ∧ t.facets.examples ≠ []

theorem checkExamples_ok_iff_not_clash {os : List Operation} :
    (∀ o ∈ os, o.checkExamples = .ok ()) ↔ ¬ ExamplesClash os := by
  simp only [ExamplesClash, not_exists, not_and, Operation.checkExamples_ok_iff,
    Schema.hasBothExamples_eq_false_iff]

theorem emit_ok_iff {d : ApiDraft} (hd : d.errors = []) {os : List Operation} {doc : OpenApi} :
    (d.emit os).2 = .ok doc ↔ Operation.Distinct os ∧ ¬ ExamplesClash os ∧
      d.toDocument (PathItem.putOperations [] os) = doc := by
  have hemit : (d.emit os).2 = .ok doc ↔
      ∃ items, (d.emitPaths [] [] os).2 = .ok items ∧ d.toDocument items = doc := by
    rw [emit, hd]
    dsimp only
    cases (d.emitPaths [] [] os).2 <;> simp [Except.map]
  rw [hemit, ← checkExamples_ok_iff_not_clash]
  simp only [emitPaths_ok_iff Operation.distinct_nil, List.nil_append]
  constructor
  · rintro ⟨items, ⟨hdistinct, hexamples, rfl⟩, hdoc⟩
    exact ⟨hdistinct, hexamples, hdoc⟩
  · rintro ⟨hdistinct, hexamples, hdoc⟩
    exact ⟨_, ⟨hdistinct, hexamples, rfl⟩, hdoc⟩

theorem errors_eq_nil_of_emit {d : ApiDraft} {os : List Operation} {doc : OpenApi}
    (h : (d.emit os).2 = .ok doc) : d.errors = [] := by
  cases he : d.errors with
  | nil => rfl
  | cons e es =>
    rw [emit, he] at h
    nomatch h

/-- Apart from the errors of the draft, whether there is a document hangs on the operations alone. -/
theorem exists_emit_iff {d : ApiDraft} {os : List Operation} : (∃ doc, (d.emit os).2 = .ok doc) ↔
    d.errors = [] ∧ Operation.Distinct os ∧ ¬ ExamplesClash os := by
  constructor
  · rintro ⟨doc, h⟩
    have hd := errors_eq_nil_of_emit h
    obtain ⟨hdistinct, hexamples, -⟩ := (emit_ok_iff hd).1 h
    exact ⟨hd, hdistinct, hexamples⟩
  · rintro ⟨hd, hdistinct, hexamples⟩
    exact ⟨_, (emit_ok_iff hd).2 ⟨hdistinct, hexamples, rfl⟩⟩

theorem describesAll_of_emit {d : ApiDraft} {os : List Operation} {doc : OpenApi}
    (h : (d.emit os).2 = .ok doc) : doc.DescribesAll os := by
  have hd := errors_eq_nil_of_emit h
  obtain ⟨hdistinct, -, rfl⟩ := (emit_ok_iff hd).1 h
  have hholds : PathItem.Holds (PathItem.putOperations [] os) os :=
    PathItem.holds_putOperations hdistinct.routes
  refine ⟨hholds, ?_, ?_⟩
  · rw [OpenApi.operationCount_eq]
    exact hholds.operations.length_eq.trans (List.length_map _)
  · have hids : (os.map fun o => (o.path, o.method, o.toObject)).filterMap (fun a => a.2.2.operationId) =
        os.filterMap (·.operationId) := by
      rw [List.filterMap_map]
      rfl
    exact ((hholds.operations.filterMap _).nodup_iff).2 (hids ▸ hdistinct.ids)

/-- A document that is emitted has the operations that it is emitted for, and no other. Without an error in the
draft there is one, unless operations share their route or their identifier or examples clash. -/
theorem emit_keeps_operations (d : ApiDraft) (os : List Operation) :
    (∀ doc, (d.emit os).2 = .ok doc → doc.DescribesAll os) ∧
      (d.errors = [] → ((∃ e, (d.emit os).2 = .error e) ↔
        ¬ (os.map fun o => (o.method, o.path)).Nodup ∨ ¬ (os.filterMap (·.operationId)).Nodup ∨
          ExamplesClash os)) := by
  refine ⟨fun doc h => describesAll_of_emit h, fun hd => ?_⟩
  have hok : (∃ doc, (d.emit os).2 = .ok doc) ↔ Operation.Distinct os ∧ ¬ ExamplesClash os := by
    simp only [emit_ok_iff hd, exists_and_left, exists_eq', and_true]
  have herror : (∃ e, (d.emit os).2 = .error e) ↔ ¬ ∃ doc, (d.emit os).2 = .ok doc := by
    cases (d.emit os).2 <;> simp
  have hdistinct : Operation.Distinct os ↔ (os.map fun o => (o.method, o.path)).Nodup ∧
      (os.filterMap (·.operationId)).Nodup := ⟨fun h => ⟨h.routes, h.ids⟩, fun h => ⟨h.1, h.2⟩⟩
  rw [herror, hok, hdistinct]
  tauto

/-- Three operations under two paths are emitted, and the same operation twice is not. -/
theorem emit_keeps_operations_items :
    let d := titled "Shop" "1"
    let list : Operation := { (default : Operation) with path := "/items", operationId := some "list" }
    let add : Operation := { list with method := .post, operationId := some "add" }
    let read : Operation := { list with path := "/items/\x7bid\x7d", operationId := none }
    (∃ doc, (d.emit [list, read, add]).2 = .ok doc ∧ doc.DescribesAll [list, read, add]) ∧
      d.errors = [] ∧ ∃ e, (d.emit [read, list, read]).2 = .error e := by
  intro d list add read
  have hok : (d.emit [list, read, add]).2.isOk = true := by decide +kernel
  obtain ⟨doc, hdoc⟩ := exists_ok_of_isOk hok
  have herrors : d.errors = [] := rfl
  have hshared : ¬ ([read, list, read].map fun o => (o.method, o.path)).Nodup := by decide
  exact ⟨⟨doc, hdoc, (emit_keeps_operations d _).1 doc hdoc⟩, herrors,
    ((emit_keeps_operations d _).2 herrors).2 (.inl hshared)⟩

end ApiDraft

end ApiDescription
