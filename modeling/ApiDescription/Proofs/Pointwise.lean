import ApiDescription.Collect
import ApiDescription.Proofs.Fold
import Mathlib.Data.List.Forall2

/-!
# Lists taken item by item

A step that may fail takes a list to the list of what it gives for each item (`mapM_ok_iff`, `collect_ok_iff`).
-/

set_option autoImplicit false

namespace ApiDescription

variable {α β γ ε : Type} {R : α → β → Prop} {l : List α} {l' : List β}

theorem mapM_ok_iff {step : α → Except ε β} :
    l.mapM step = .ok l' ↔ List.Forall₂ (fun a b => step a = .ok b) l l' := by
  induction l generalizing l' with
  | nil =>
    rw [List.mapM_nil, List.forall₂_nil_left_iff]
    exact ⟨fun h => (Except.ok.inj h).symm, fun h => h ▸ rfl⟩
  | cons a l ih =>
    simp only [List.mapM_cons, bind_ok_iff, List.forall₂_cons_left_iff, ih]
    constructor
    · rintro ⟨b, hb, bs, hbs, ⟨⟩⟩
      exact ⟨b, bs, hb, hbs, rfl⟩
    · rintro ⟨b, bs, hb, hbs, rfl⟩
      exact ⟨b, hb, bs, hbs, rfl⟩

theorem collect_ok_iff {step : α → Except ε β} :
    collect step l = (l', .ok ()) ↔ List.Forall₂ (fun a b => step a = .ok b) l l' := by
  induction l generalizing l' with
  | nil => simp [eq_comm]
  | cons a l ih =>
    rw [List.forall₂_cons_left_iff]
    cases h : step a with
    | error e => simp [collect_cons_error h]
    | ok b =>
      rw [collect_cons_ok h]
      constructor
      · intro hl
        obtain ⟨rfl, hok⟩ := Prod.mk.inj hl
        exact ⟨b, (collect step l).1, rfl, ih.1 (Prod.ext rfl hok), rfl⟩
      · rintro ⟨b', bs, hb', hbs, rfl⟩
        rw [ih.2 hbs, Except.ok.inj hb']

theorem map_eq_map_of_forall₂ {f : α → γ} {g : β → γ} (h : List.Forall₂ R l l')
    (hR : ∀ a b, R a b → f a = g b) : l.map f = l'.map g := by
  induction h with
  | nil => rfl
  | cons hab _ ih => rw [List.map_cons, List.map_cons, hR _ _ hab, ih]

theorem exists_of_mem_forall₂ (h : List.Forall₂ R l l') {a : α} (ha : a ∈ l) : ∃ b ∈ l', R a b := by
  induction h with
  | nil => nomatch ha
  | cons hab _ ih =>
    rcases List.mem_cons.1 ha with rfl | ha
    · exact ⟨_, List.mem_cons_self, hab⟩
    · obtain ⟨b, hb, hr⟩ := ih ha
      exact ⟨b, List.mem_cons_of_mem _ hb, hr⟩

end ApiDescription
