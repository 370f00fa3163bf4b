import ApiDescription.Proofs.Operation.Checked
import ApiDescription.Proofs.Operation.Codes
import Mathlib.Data.List.Sort

/-!
# Bundles of standard errors

A bundle puts the standard response under each of its codes that is free (`get?_respondStandards`), and records
an error for each code that is neither standard nor has a response (`errors_respondStandards`). What a bundle
leaves so depends on the codes in it and not on their order, and bundles commute (`respondStandards_comm`).
-/

set_option autoImplicit false

namespace ApiDescription

/-! ## Maps with ascending keys -/

/-- Maps in which every key finds the same are equal. -/
theorem Sorted.Ascending.ext {α : Type} {es fs : List (Nat × α)} (hes : Ascending es) (hfs : Ascending fs)
    (h : ∀ key, get? es key = get? fs key) : es = fs := by
  have hmem : ∀ e, e ∈ es ↔ e ∈ fs := by
    rintro ⟨key, value⟩
    rw [hes.mem_iff, hfs.mem_iff, h key]
  have hnodup {gs : List (Nat × α)} (hgs : Ascending gs) : gs.Nodup := by
    have hkeys := Sorted.nodup_of_ascending hgs
    exact hkeys.of_map Prod.fst
  have hperm : es.Perm fs := (List.perm_ext_iff_of_nodup (hnodup hes) (hnodup hfs)).2 hmem
  refine hperm.eq_of_pairwise ?_ hes hfs
  intro a b _ _ hab hba
  omega

/-! ## Standard errors -/

namespace StandardError

/-- The response that a standard error is registered with. -/
def definition (e : StandardError) : ResponseDefinition :=
  { code := e.code, description := e.description, schema := some body }

theorem mem_all_of_ofCode? {code : Nat} {e : StandardError} (h : ofCode? code = some e) :
    e ∈ all ∧ e.code = code := by
  have hcode := List.find?_some h
  exact ⟨List.mem_of_find?_eq_some h, by simpa using hcode⟩

theorem code_range {e : StandardError} (h : e ∈ all) : 400 ≤ e.code ∧ e.code ≤ 599 := by
  have hall : ∀ e ∈ all, 400 ≤ e.code ∧ e.code ≤ 599 := by decide
  exact hall e h

end StandardError

namespace OperationDraft

variable {d : OperationDraft} {xs ys : List Nat}

/-! ## One code -/

/-- The response that the bundles give a code. -/
def standard? (code : Nat) : Option ResponseDefinition := (StandardError.ofCode? code).map StandardError.definition

/-- A bundle with the code fails: it has no response, and there is no standard one. -/
def isUnknown (d : OperationDraft) (code : Nat) : Bool :=
  !d.hasResponse code && (StandardError.ofCode? code).isNone

theorem respondStandard_of_hasResponse {code : Nat} (h : d.hasResponse code = true) :
    d.respondStandard code = d := by
  rw [respondStandard, if_pos h]

theorem respondStandard_of_unknown {code : Nat} (h : d.isUnknown code = true) :
    d.respondStandard code = d.fail (.unknownStandardError code) := by
  simp only [isUnknown, Bool.and_eq_true, Bool.not_eq_true', Option.isNone_iff_eq_none] at h
  rw [respondStandard, if_neg (by simp [h.1]), h.2]

theorem respondStandard_of_free {code : Nat} {e : StandardError} (hfree : d.hasResponse code = false)
    (he : StandardError.ofCode? code = some e) :
    d.respondStandard code = { d with responses := Sorted.insert d.responses code e.definition } := by
  obtain ⟨hmem, rfl⟩ := StandardError.mem_all_of_ofCode? he
  have hrange := StandardError.code_range hmem
  have hstatus : isStatusCode e.code = true := isStatusCode_iff.2 ⟨by omega, hrange.2⟩
  have herror : ¬ e.code < 400 := by omega
  rw [respondStandard, if_neg (by simp [hfree]), he]
  simp only [respondError, if_neg herror, respond, hstatus, hfree, Bool.not_true, Bool.false_eq_true, if_false]
  rfl

/-- A code that has no response is unknown or standard. -/
theorem respondStandard_cases (d : OperationDraft) (code : Nat) :
    d.hasResponse code = true ∧ d.respondStandard code = d ∨
      d.isUnknown code = true ∧ d.respondStandard code = d.fail (.unknownStandardError code) ∨
      ∃ e, d.hasResponse code = false ∧ StandardError.ofCode? code = some e ∧
        d.respondStandard code = { d with responses := Sorted.insert d.responses code e.definition } := by
  cases hhas : d.hasResponse code with
  | true => exact .inl ⟨rfl, respondStandard_of_hasResponse hhas⟩
  | false =>
    cases he : StandardError.ofCode? code with
    | none =>
      have hunknown : d.isUnknown code = true := by simp [isUnknown, hhas, he]
      exact .inr (.inl ⟨hunknown, respondStandard_of_unknown hunknown⟩)
    | some e => exact .inr (.inr ⟨e, rfl, rfl, respondStandard_of_free hhas he⟩)

theorem get?_respondStandard (d : OperationDraft) (code c : Nat) :
    Sorted.get? (d.respondStandard code).responses c =
      (Sorted.get? d.responses c).or (if c = code then standard? code else none) := by
  by_cases hc : c = code
  · subst hc
    rw [if_pos rfl]
    obtain ⟨hhas, heq⟩ | ⟨hunknown, heq⟩ | ⟨e, hfree, he, heq⟩ := d.respondStandard_cases c
    · obtain ⟨r, hr⟩ := Option.isSome_iff_exists.1 hhas
      rw [heq, hr]
      rfl
    · simp only [isUnknown, Bool.and_eq_true, Option.isNone_iff_eq_none] at hunknown
      rw [heq, standard?, hunknown.2]
      exact (Option.or_none).symm
    · have hnone : Sorted.get? d.responses c = none := by simpa [hasResponse, Sorted.has] using hfree
      rw [heq, hnone, standard?, he]
      exact Sorted.get?_insert_self _ _ _
  · rw [if_neg hc, Option.or_none]
    obtain ⟨-, heq⟩ | ⟨-, heq⟩ | ⟨e, -, -, heq⟩ := d.respondStandard_cases code
    · rw [heq]
    · rw [heq]
      rfl
    · rw [heq]
      exact Sorted.get?_insert_ne _ _ hc

theorem errors_respondStandard (d : OperationDraft) (code : Nat) :
    (d.respondStandard code).errors =
      d.errors ++ if d.isUnknown code = true then [.unknownStandardError code] else [] := by
  obtain ⟨hhas, heq⟩ | ⟨hunknown, heq⟩ | ⟨e, hfree, he, heq⟩ := d.respondStandard_cases code
  · rw [heq, if_neg (by simp [isUnknown, hhas]), List.append_nil]
  · rw [heq, if_pos hunknown]
    rfl
  · rw [heq, if_neg (by simp [isUnknown, he]), List.append_nil]

/-- What is unknown stays so: the bundles register standard codes only. -/
theorem isUnknown_respondStandard (d : OperationDraft) (code c : Nat) :
    (d.respondStandard code).isUnknown c = d.isUnknown c := by
  have hget := d.get?_respondStandard code c
  unfold isUnknown hasResponse Sorted.has
  rw [hget]
  cases he : StandardError.ofCode? c with
  | some e => simp
  | none =>
    by_cases hc : c = code
    · subst hc
      simp [standard?, he]
    · simp [hc]

/-! ## Bundles -/

theorem respondStandards_append (d : OperationDraft) (xs ys : List Nat) :
    d.respondStandards (xs ++ ys) = (d.respondStandards xs).respondStandards ys := List.foldl_append

/-- A code keeps its response, and else has the standard one if it is in the bundle. -/
theorem get?_respondStandards (d : OperationDraft) (xs : List Nat) (c : Nat) :
    Sorted.get? (d.respondStandards xs).responses c =
      (Sorted.get? d.responses c).or (if c ∈ xs then standard? c else none) := by
  induction xs generalizing d with
  | nil => simp [respondStandards]
  | cons code xs ih =>
    have hstep := ih (d.respondStandard code)
    rw [get?_respondStandard, Option.or_assoc] at hstep
    refine hstep.trans (congrArg _ ?_)
    by_cases hc : c = code
    · subst hc
      by_cases hxs : c ∈ xs <;> simp [hxs]
    · simp [hc]

theorem errors_respondStandards (d : OperationDraft) (xs : List Nat) :
    (d.respondStandards xs).errors =
      d.errors ++ (xs.filter d.isUnknown).map OperationError.unknownStandardError := by
  induction xs generalizing d with
  | nil => simp [respondStandards]
  | cons code xs ih =>
    have hstep := ih (d.respondStandard code)
    have hsame : (d.respondStandard code).isUnknown = d.isUnknown :=
      funext (d.isUnknown_respondStandard code)
    rw [errors_respondStandard, hsame, List.append_assoc] at hstep
    refine hstep.trans (congrArg _ ?_)
    cases hunknown : d.isUnknown code <;> simp [hunknown]

/-- Bundles of the same codes leave the same responses. -/
theorem responses_respondStandards_congr (hd : d.InOrder) (h : ∀ c, c ∈ xs ↔ c ∈ ys) :
    (d.respondStandards xs).responses = (d.respondStandards ys).responses := by
  have hascending (zs : List Nat) : Sorted.Ascending (d.respondStandards zs).responses :=
    ((registers_respondStandards zs d).inOrder hd).responses.ascending
  refine (hascending xs).ext (hascending ys) fun c => ?_
  simp only [get?_respondStandards, h c]

/-- Bundles of the same codes are accepted together or not. -/
theorem errors_respondStandards_eq_nil_congr (h : ∀ c, c ∈ xs ↔ c ∈ ys) :
    (d.respondStandards xs).errors = [] ↔ (d.respondStandards ys).errors = [] := by
  simp only [errors_respondStandards, List.append_eq_nil_iff, List.map_eq_nil_iff, List.filter_eq_nil_iff, h]

/-- Bundles of the same codes make no difference to what is compiled. -/
theorem compile_respondStandards_congr (hd : d.InOrder) (h : ∀ c, c ∈ xs ↔ c ∈ ys) (o : Operation) :
    (d.respondStandards xs).compile = .ok o ↔ (d.respondStandards ys).compile = .ok o := by
  have hresponses := responses_respondStandards_congr hd h
  have herrors := errors_respondStandards_eq_nil_congr (d := d) h
  by_cases hnone : (d.respondStandards xs).errors = []
  · -- without errors the two drafts are one and the same
    have hframe := (registers_respondStandards xs d).frame
    have hframe' := (registers_respondStandards ys d).frame
    rw [hnone] at hframe
    rw [herrors.1 hnone, ← hresponses] at hframe'
    rw [hframe.trans hframe'.symm]
  · have hfail {d : OperationDraft} (hd : d.errors ≠ []) : d.compile ≠ .ok o :=
      fun hok => hd (compiles_of_compile hok).errors
    exact iff_of_false (hfail hnone) (hfail fun hnil => hnone (herrors.2 hnil))

/-- Two bundles of standard errors in either order, once or twice, register the same responses, whatever the
operation was told before: what was registered stays, each standard code in them has a response, and what is
compiled is the same. -/
theorem respondStandards_comm (steps : List OperationStep) (xs ys : List Nat) :
    let d := ({} : OperationDraft).applyAll steps
    let both := (d.respondStandards xs).respondStandards ys
    let swapped := (d.respondStandards ys).respondStandards xs
    swapped.responses = both.responses ∧
      ((both.respondStandards xs).respondStandards ys).responses = both.responses ∧
      ((swapped.respondStandards ys).respondStandards xs).responses = both.responses ∧
      (∀ code r, Sorted.get? d.responses code = some r → Sorted.get? both.responses code = some r) ∧
      (∀ code ∈ xs ++ ys, ∀ e, StandardError.ofCode? code = some e →
        Sorted.get? both.responses code = some ((Sorted.get? d.responses code).getD e.definition)) ∧
      ∀ o, both.compile = .ok o ↔ swapped.compile = .ok o := by
  intro d both swapped
  have hd : d.InOrder := inOrder_empty.applyAll steps
  have hboth : both = d.respondStandards (xs ++ ys) := (respondStandards_append d xs ys).symm
  have hswapped : swapped = d.respondStandards (ys ++ xs) := (respondStandards_append d ys xs).symm
  have hget (code : Nat) : Sorted.get? both.responses code =
      (Sorted.get? d.responses code).or (if code ∈ xs ++ ys then standard? code else none) := by
    rw [hboth, get?_respondStandards]
  refine ⟨?swapped, ?bothTwice, ?swappedTwice, ?kept, ?registered, ?compiled⟩
  case swapped =>
    rw [hboth, hswapped]
    exact responses_respondStandards_congr hd fun c => by simp [or_comm]
  case bothTwice =>
    rw [hboth, ← respondStandards_append, ← respondStandards_append]
    exact responses_respondStandards_congr hd fun c => by simp; tauto
  case swappedTwice =>
    rw [hboth, hswapped, ← respondStandards_append, ← respondStandards_append]
    exact responses_respondStandards_congr hd fun c => by simp; tauto
  case kept =>
    intro code r hr
    rw [hget, hr]
    rfl
  case registered =>
    intro code hcode e he
    rw [hget, if_pos hcode, standard?, he]
    cases Sorted.get? d.responses code <;> rfl
  case compiled =>
    intro o
    rw [hboth, hswapped]
    exact compile_respondStandards_congr hd (fun c => by simp [or_comm]) o

/-- Two bundles that overlap each other and a response with a description of its own. -/
theorem respondStandards_comm_gone :
    let gone : ResponseDefinition := { code := 404, description := "Gone" }
    let forbidden : ResponseDefinition :=
      { code := 403, description := "Forbidden", schema := some StandardError.body }
    let d := ({} : OperationDraft).applyAll [.route .get "/items", .respondError 404 none "Gone"]
    let both := (d.respondStandards [404, 500]).respondStandards [500, 403, 404]
    let swapped := (d.respondStandards [500, 403, 404]).respondStandards [404, 500]
    swapped.responses = both.responses ∧ Sorted.get? d.responses 404 = some gone ∧
      Sorted.get? both.responses 404 = some gone ∧ Sorted.get? both.responses 403 = some forbidden ∧
      ∃ o, both.compile = .ok o ∧ swapped.compile = .ok o := by
  intro gone forbidden d both swapped
  obtain ⟨hswapped, -, -, hkept, hregistered, hcompiled⟩ :=
    respondStandards_comm [.route .get "/items", .respondError 404 none "Gone"] [404, 500] [500, 403, 404]
  have hgone : Sorted.get? d.responses 404 = some gone := rfl
  have hok : both.compile.isOk = true := by decide +kernel
  obtain ⟨o, ho⟩ := exists_ok_of_isOk hok
  exact ⟨hswapped, hgone, hkept 404 gone hgone, hregistered 403 (by decide) ⟨403, "Forbidden"⟩ rfl, o, ho,
    (hcompiled o).1 ho⟩

end OperationDraft

end ApiDescription
