/-!
# Going on until something fails

`collect` goes through a list with a step that may fail, and keeps what it gave before it failed.
-/

set_option autoImplicit false

namespace ApiDescription

variable {α β ε : Type}

/-- What a step gives for the first items of a list, up to the one for which it fails. -/
def collect (step : α → Except ε β) : List α → List β × Except ε Unit
  | [] => ([], .ok ())
  | a :: rest =>
    match step a with
    | .error e => ([], .error e)
    | .ok b =>
      let (bs, result) := collect step rest
      (b :: bs, result)

@[simp] theorem collect_nil (step : α → Except ε β) : collect step [] = ([], .ok ()) := rfl

theorem collect_cons_ok {step : α → Except ε β} {a : α} {b : β} (h : step a = .ok b)
    (rest : List α) : collect step (a :: rest) = (b :: (collect step rest).1, (collect step rest).2) := by
  simp [collect, h]

theorem collect_cons_error {step : α → Except ε β} {a : α} {e : ε} (h : step a = .error e)
    (rest : List α) : collect step (a :: rest) = ([], .error e) := by
  simp [collect, h]

theorem exists_of_mem_collect {step : α → Except ε β} {l : List α} {b : β}
    (h : b ∈ (collect step l).1) : ∃ a ∈ l, step a = .ok b := by
  induction l with
  | nil => cases h
  | cons a rest ih =>
    cases hs : step a with
    | error e =>
      rw [collect_cons_error hs] at h
      cases h
    | ok b' =>
      rw [collect_cons_ok hs] at h
      rcases List.mem_cons.1 h with rfl | h
      · exact ⟨a, List.mem_cons_self, hs⟩
      · obtain ⟨a', ha', hb⟩ := ih h
        exact ⟨a', List.mem_cons_of_mem a ha', hb⟩

end ApiDescription
