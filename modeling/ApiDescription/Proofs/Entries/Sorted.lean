import ApiDescription.Sorted

/-!
# Sorted maps with ascending keys

A map filled by insertions has ascending keys (`Ascending.insert`), so its entries are what look-ups find
(`Ascending.mem_iff`).
-/

set_option autoImplicit false

namespace ApiDescription.Sorted

variable {α : Type} {es : List (Nat × α)}

/-- The keys ascend, so none stands twice. -/
def Ascending (es : List (Nat × α)) : Prop := es.Pairwise fun e e' => e.1 < e'.1

theorem mem_insert {key : Nat} {value : α} {e : Nat × α} (h : e ∈ insert es key value) :
    e = (key, value) ∨ e ∈ es := by
  induction es with
  | nil => simpa [insert] using h
  | cons e' es ih =>
    rw [insert] at h
    split at h
    · exact (List.mem_cons.1 h).imp_right (List.mem_cons_of_mem e')
    · split at h
      · exact List.mem_cons.1 h
      · rcases List.mem_cons.1 h with rfl | h
        · exact .inr List.mem_cons_self
        · exact (ih h).imp_right (List.mem_cons_of_mem e')

theorem Ascending.insert (h : Ascending es) (key : Nat) (value : α) :
    Ascending (Sorted.insert es key value) := by
  induction es with
  | nil => simp [Ascending, Sorted.insert]
  | cons e es ih =>
    obtain ⟨hbelow, hes⟩ := List.pairwise_cons.1 h
    rw [Sorted.insert]
    split
    · next hkey => exact List.pairwise_cons.2 ⟨hkey ▸ hbelow, hes⟩
    · split
      · next hlt =>
        refine List.pairwise_cons.2 ⟨fun e' he' => ?_, h⟩
        rcases List.mem_cons.1 he' with rfl | he'
        · exact hlt
        · exact Nat.lt_trans hlt (hbelow e' he')
      · next hne hnotlt =>
        refine List.pairwise_cons.2 ⟨fun e' he' => ?_, ih hes⟩
        rcases mem_insert he' with rfl | he'
        · exact Nat.lt_of_le_of_ne (Nat.not_lt.1 hnotlt) hne
        · exact hbelow e' he'

theorem mem_of_get? {key : Nat} {value : α} (h : get? es key = some value) : (key, value) ∈ es := by
  induction es with
  | nil => nomatch h
  | cons e es ih =>
    obtain ⟨k, v⟩ := e
    rw [get?] at h
    split at h
    · next hkey =>
      cases h
      exact hkey ▸ List.mem_cons_self
    · exact List.mem_cons_of_mem _ (ih h)

/-- Entries are what look-ups find. -/
theorem Ascending.mem_iff (h : Ascending es) {key : Nat} {value : α} :
    (key, value) ∈ es ↔ get? es key = some value := by
  refine ⟨fun hmem => ?_, mem_of_get?⟩
  induction es with
  | nil => nomatch hmem
  | cons e es ih =>
    obtain ⟨k, v⟩ := e
    obtain ⟨hbelow, hes⟩ := List.pairwise_cons.1 h
    rcases List.mem_cons.1 hmem with heq | hmem
    · cases heq
      simp [get?]
    · have hlt : k < key := hbelow _ hmem
      rw [get?, if_neg (Nat.ne_of_lt hlt)]
      exact ih hes hmem

/-- The look-ups of what stands behind an entry leave its key alone. -/
theorem get?_eq_none_of_ascending_cons {key : Nat} {value : α} (h : Ascending ((key, value) :: es)) :
    get? es key = none := by
  obtain ⟨hbelow, -⟩ := List.pairwise_cons.1 h
  cases hget : get? es key with
  | none => rfl
  | some v => exact absurd (hbelow _ (mem_of_get? hget)) (Nat.lt_irrefl key)

end ApiDescription.Sorted
