import Mathlib.Data.List.Induction

/-!
# Folds that may fail

A run goes through a list with a step that may fail. `foldlM_append_ok` cuts a run that succeeds,
`foldlM_induct` proves what holds after every part of such a run, and `exists_foldlM_ok` that a run whose
steps succeed does so itself.
-/

set_option autoImplicit false

namespace ApiDescription

variable {σ α β ε : Type}

theorem bind_ok_iff {x : Except ε α} {f : α → Except ε β} {b : β} :
    x >>= f = .ok b ↔ ∃ a, x = .ok a ∧ f a = .ok b := by
  cases x with
  | error e => simp [bind, Except.bind]
  | ok a => simp [bind, Except.bind]

theorem exists_ok_of_isOk {x : Except ε α} (h : x.isOk = true) : ∃ a, x = .ok a := by
  cases x with
  | error e => cases h
  | ok a => exact ⟨a, rfl⟩

variable {step : σ → α → Except ε σ}

theorem foldlM_cons_ok {a : α} {rest : List α} {s t : σ} :
    (a :: rest).foldlM step s = .ok t ↔ ∃ u, step s a = .ok u ∧ rest.foldlM step u = .ok t := by
  rw [List.foldlM_cons]
  exact bind_ok_iff

theorem foldlM_append_ok {l l' : List α} {s t : σ} :
    (l ++ l').foldlM step s = .ok t ↔ ∃ u, l.foldlM step s = .ok u ∧ l'.foldlM step u = .ok t := by
  rw [List.foldlM_append]
  exact bind_ok_iff

theorem foldlM_concat_ok {l : List α} {a : α} {s t : σ} :
    (l ++ [a]).foldlM step s = .ok t ↔ ∃ u, l.foldlM step s = .ok u ∧ step u a = .ok t := by
  rw [foldlM_append_ok]
  refine exists_congr fun u => and_congr_right' ?_
  rw [foldlM_cons_ok]
  constructor
  · rintro ⟨v, hv, hr⟩
    cases hr
    exact hv
  · intro h
    exact ⟨t, h, rfl⟩

theorem foldlM_concat_option (f : σ → α → Option σ) (l : List α) (a : α) (s : σ) :
    (l ++ [a]).foldlM f s = (l.foldlM f s).bind (f · a) := by
  rw [List.foldlM_append]
  congr 1
  funext t
  exact bind_pure (f t a)

/-- What holds at the start, and is handed on by every step of a run, holds after the run. -/
theorem foldlM_induct {motive : List α → σ → Prop} {s : σ} (nil : motive [] s)
    (concat : ∀ done a u v, done.foldlM step s = .ok u → motive done u → step u a = .ok v →
      motive (done ++ [a]) v) :
    ∀ {l : List α} {t : σ}, l.foldlM step s = .ok t → motive l t := by
  intro l
  induction l using List.reverseRecOn with
  | nil =>
    intro t h
    cases h
    exact nil
  | append_singleton done a ih =>
    intro t h
    obtain ⟨u, hu, hv⟩ := foldlM_concat_ok.1 h
    exact concat done a u t hu (ih hu) hv

theorem foldlM_invariant {P : σ → Prop} {l : List α} {s t : σ} (h : l.foldlM step s = .ok t)
    (start : P s) (hand : ∀ a ∈ l, ∀ u v, P u → step u a = .ok v → P v) : P t := by
  induction l generalizing s with
  | nil =>
    cases h
    exact start
  | cons a rest ih =>
    obtain ⟨u, hu, hr⟩ := foldlM_cons_ok.1 h
    exact ih hr (hand a List.mem_cons_self s u start hu)
      fun b hb => hand b (List.mem_cons_of_mem _ hb)

/-- Two runs over one list keep up with each other when each step does. -/
theorem foldlM_related {σ' : Type} {step' : σ' → α → Except ε σ'} {R : σ → σ' → Prop} {l : List α}
    {s t : σ} {s' t' : σ'} (h : l.foldlM step s = .ok t) (h' : l.foldlM step' s' = .ok t') (start : R s s')
    (hand : ∀ a ∈ l, ∀ u u' v v', R u u' → step u a = .ok v → step' u' a = .ok v' → R v v') : R t t' := by
  induction l generalizing s s' with
  | nil =>
    cases h
    cases h'
    exact start
  | cons a rest ih =>
    obtain ⟨u, hu, hr⟩ := foldlM_cons_ok.1 h
    obtain ⟨u', hu', hr'⟩ := foldlM_cons_ok.1 h'
    have hnext := hand a List.mem_cons_self s s' u u' start hu hu'
    exact ih hr hr' hnext fun b hb => hand b (List.mem_cons_of_mem _ hb)

theorem exists_foldlM_ok (l : List α) (h : ∀ a ∈ l, ∀ s, ∃ t, step s a = .ok t) (s : σ) :
    ∃ t, l.foldlM step s = .ok t := by
  induction l generalizing s with
  | nil => exact ⟨s, rfl⟩
  | cons a rest ih =>
    obtain ⟨u, hu⟩ := h a List.mem_cons_self s
    obtain ⟨t, ht⟩ := ih (fun b hb => h b (List.mem_cons_of_mem _ hb)) u
    exact ⟨t, foldlM_cons_ok.2 ⟨u, hu, ht⟩⟩

/-- A run succeeds when each of its steps does behind the part of the run before it. -/
theorem exists_foldlM_ok_behind {l : List α} {s : σ}
    (h : ∀ done a rest u, l = done ++ a :: rest → done.foldlM step s = .ok u →
      ∃ v, step u a = .ok v) : ∃ t, l.foldlM step s = .ok t := by
  induction l using List.reverseRecOn with
  | nil => exact ⟨s, rfl⟩
  | append_singleton l a ih =>
    obtain ⟨u, hu⟩ := ih fun done b rest u hl => h done b (rest ++ [a]) u (by simp [hl])
    obtain ⟨v, hv⟩ := h l a [] u rfl hu
    exact ⟨v, foldlM_concat_ok.2 ⟨u, hu, hv⟩⟩

end ApiDescription
