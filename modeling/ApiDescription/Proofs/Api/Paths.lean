import ApiDescription.Api.Draft
import ApiDescription.Proofs.Entries.Table
import Mathlib.Data.List.Perm.Basic

/-!
# Operations in the path items of a document

`PathItem.located` lists the operations of path items with their paths and methods, and `PathItem.at?` finds
one. Putting an operation where there was none adds it to the list (`located_putOperation`), and nothing else
is found afterwards than what was found before (`at?_putOperation`).
-/

set_option autoImplicit false

namespace ApiDescription.PathItem

variable {items : List (String × PathItem)} {path : String} {m : Method} {o : OperationObject}

/-- All operations of the path items, each with its path and method. -/
def located (items : List (String × PathItem)) : List (String × Method × OperationObject) :=
  items.flatMap fun e => e.2.operations.map fun a => (e.1, a)

/-- The operation under a path and a method. -/
def at? (items : List (String × PathItem)) (path : String) (m : Method) : Option OperationObject :=
  (Entries.get? items path).bind (·.operation? m)

/-! ## One path item -/

/-- One more value under a key that had none. -/
theorem filterMap_perm_cons {α β : Type} {f g : α → Option β} {a : α} {b : β} {l : List α}
    (hnodup : l.Nodup) (ha : a ∈ l) (hf : f a = none) (hg : g a = some b)
    (hsame : ∀ x, x ≠ a → g x = f x) : (l.filterMap g).Perm (b :: l.filterMap f) := by
  induction l with
  | nil => nomatch ha
  | cons x l ih =>
    obtain ⟨hx, hl⟩ := List.nodup_cons.1 hnodup
    by_cases hxa : x = a
    · subst hxa
      have hrest : l.filterMap g = l.filterMap f :=
        List.filterMap_congr fun y hy => hsame y (ne_of_mem_of_not_mem hy hx)
      rw [List.filterMap_cons_some hg, List.filterMap_cons_none hf, hrest]
    · have hmem : a ∈ l := (List.mem_cons.1 ha).resolve_left (Ne.symm hxa)
      rw [List.filterMap_cons, List.filterMap_cons, hsame x hxa]
      cases f x with
      | none => exact ih hl hmem
      | some c => exact ((ih hl hmem).cons c).trans (.swap b c _)

theorem operations_setOperation (p : PathItem) (m : Method) (o : OperationObject)
    (h : p.operation? m = none) : (p.setOperation m o).operations.Perm ((m, o) :: p.operations) := by
  refine filterMap_perm_cons (a := m) (by decide) (by cases m <;> decide) (by rw [h]; rfl) ?_ fun n hn => ?_
  · rw [operation?_setOperation, if_pos rfl]
    rfl
  · rw [operation?_setOperation, if_neg hn]

theorem operations_empty : ({} : PathItem).operations = [] := rfl

/-! ## Path items under their paths -/

theorem at?_putOperation (items : List (String × PathItem)) (path path' : String) (m m' : Method)
    (o : OperationObject) : at? (putOperation items path m o) path' m' =
      if path' = path ∧ m' = m then some o else at? items path' m' := by
  by_cases hpath : path' = path
  · subst hpath
    have hold : at? items path' m' = (((Entries.get? items path').getD {}).operation? m') := by
      unfold at?
      cases Entries.get? items path' with
      | none => cases m' <;> rfl
      | some p => rfl
    rw [hold, at?, putOperation, Entries.get?_put_self, Option.bind_some, operation?_setOperation]
    simp
  · rw [at?, putOperation, Entries.get?_put_ne _ _ hpath, if_neg fun h => hpath h.1]
    rfl

theorem keys_putOperation (items : List (String × PathItem)) (path : String) (m : Method)
    (o : OperationObject) :
    Entries.keys (putOperation items path m o) = Entries.reach (Entries.keys items) path :=
  Entries.keys_put _ _ _

open scoped List in
/-- An operation that is put where there was none is one operation more. -/
theorem located_putOperation (h : at? items path m = none) :
    located (putOperation items path m o) ~ (path, m, o) :: located items := by
  have hold : ((Entries.get? items path).map fun p => p.operations.map fun a => (path, a)).getD [] =
      ((Entries.get? items path).getD {}).operations.map fun a => (path, a) := by
    cases Entries.get? items path <;> simp [operations_empty]
  have hput := Entries.flatMap_put_perm (fun path (p : PathItem) => p.operations.map fun a => (path, a)) items path
    (((Entries.get? items path).getD {}).setOperation m o)
  rw [hold] at hput
  have hfree : ((Entries.get? items path).getD {}).operation? m = none := by
    rw [at?] at h
    cases hget : Entries.get? items path with
    | none => cases m <;> rfl
    | some p => simpa [hget] using h
  rw [putOperation]
  generalize (Entries.get? items path).getD {} = p at hput hfree ⊢
  refine (List.perm_append_right_iff (p.operations.map fun a => (path, a))).1 ?_
  calc located (Entries.put items path (p.setOperation m o)) ++ p.operations.map (fun a => (path, a))
      ~ located items ++ (p.setOperation m o).operations.map fun a => (path, a) := hput
    _ ~ located items ++ (path, m, o) :: p.operations.map fun a => (path, a) :=
      ((operations_setOperation p m o hfree).map _).append_left _
    _ ~ (path, m, o) :: located items ++ p.operations.map fun a => (path, a) := List.perm_middle

end ApiDescription.PathItem
