import ApiDescription.Proofs.Json.Distinct

/-!
# Objects with the same members

Two objects are the same when every name finds the same in both (`same_object_of_get?`), and so are two
tables of objects when this holds for every two keys (`same_table`).
-/

set_option autoImplicit false

namespace ApiDescription.Json

/-- Two look-ups find the same value, or both find none. -/
def SameFound (a b : Option Json) : Prop := Option.Rel (fun v w => v.same w = true) a b

theorem sameFound_self {a : Option Json} (h : ∀ v, a = some v → v.distinct = true) : SameFound a a := by
  cases a with
  | none => exact .none
  | some v => exact .some (same_refl (h v rfl))

theorem SameFound.eq_none_iff {a b : Option Json} (h : SameFound a b) : a = none ↔ b = none := by
  cases h with
  | none => exact Iff.rfl
  | some => simp

theorem same_object_of_get? {ms ns : List (String × Json)} (hm : (Entries.keys ms).Nodup)
    (hn : (Entries.keys ns).Nodup)
    (h : ∀ name, SameFound (Entries.get? ms name) (Entries.get? ns name)) :
    (Json.object ms).same (.object ns) = true := by
  have hkeys : (Entries.keys ms).Perm (Entries.keys ns) := by
    refine (List.perm_ext_iff_of_nodup hm hn).2 fun name => ?_
    have hnone := (h name).eq_none_iff
    rw [Entries.get?_eq_none_iff, Entries.get?_eq_none_iff] at hnone
    exact not_iff_not.1 hnone
  refine (same_object_iff _ _).2 ⟨ns, rfl, ?_, ?_⟩
  · have hlength := hkeys.length_eq
    simpa [Entries.keys] using hlength
  · intro m hmem
    have hfound := h m.1
    rw [Entries.get?_eq_some_of_mem hm hmem] at hfound
    cases hget : Entries.get? ns m.1 with
    | none =>
      rw [hget] at hfound
      cases hfound
    | some w =>
      rw [hget] at hfound
      cases hfound with
      | some hsame => exact ⟨w, rfl, hsame⟩

/-- The same values have the same under every name. -/
theorem sameFound_get? {a b : Json} (ha : a.distinct = true) (hb : b.distinct = true)
    (h : a.same b = true) (name : String) : SameFound (a.get? name) (b.get? name) := by
  have hfinds : ∀ {a b : Json}, a.same b = true → ∀ {v}, a.get? name = some v →
      ∃ w, b.get? name = some w ∧ v.same w = true := by
    intro a b h v hv
    cases a with
    | object ms =>
      obtain ⟨ns, rfl, -, hmn⟩ := (same_object_iff ms b).1 h
      exact hmn (name, v) (Entries.mem_of_get?_eq_some hv)
    | _ => cases hv
  cases hv : a.get? name with
  | some v =>
    obtain ⟨w, hw, hsame⟩ := hfinds h hv
    rw [hw]
    exact .some hsame
  | none =>
    cases hw : b.get? name with
    | none => exact .none
    | some w =>
      obtain ⟨v, hv', -⟩ := hfinds (same_symm ha hb h) hw
      rw [hv] at hv'
      cases hv'

theorem SameFound.string?_eq {a b : Option Json} (h : SameFound a b) :
    a.bind string? = b.bind string? := by
  cases h with
  | none => rfl
  | @some v w hsame =>
    cases v with
    | string text => rw [(same_string_iff text w).1 hsame]
    | _ => cases w <;> simp_all [same, string?]

/-- Objects whose members have the same names and are the same, one by one, are the same. -/
theorem same_object_of_forall₂ {ms ns : List (String × Json)} (hn : (Entries.keys ns).Nodup)
    (h : List.Forall₂ (fun m n => m.1 = n.1 ∧ m.2.same n.2 = true) ms ns) :
    (Json.object ms).same (.object ns) = true := by
  obtain ⟨hlength, hmember⟩ := List.forall₂_iff_get.1 h
  refine (same_object_iff _ _).2 ⟨ns, rfl, hlength, ?_⟩
  intro m hm
  obtain ⟨i, rfl⟩ := List.get_of_mem hm
  obtain ⟨hname, hsame⟩ := hmember i i.2 (hlength ▸ i.2)
  exact ⟨_, hname ▸ Entries.get?_eq_some_of_mem hn (List.get_mem _ _), hsame⟩

theorem sameFound_of_forall₂ {ms ns : List (String × Json)}
    (h : List.Forall₂ (fun m n => m.1 = n.1 ∧ m.2.same n.2 = true) ms ns) (name : String) :
    SameFound (Entries.get? ms name) (Entries.get? ns name) := by
  induction h with
  | nil => exact .none
  | @cons m n ms ns hmember _ ih =>
    obtain ⟨hname, hsame⟩ := hmember
    rw [Entries.get?, Entries.get?, ← hname]
    split
    · exact .some hsame
    · exact ih

/-! ## Tables -/

/-- The object of objects that a table stands for. -/
def ofTable (table : List (String × List (String × Json))) : Json :=
  .object (table.map fun e => (e.1, .object e.2))

theorem get?_ofTable (table : List (String × List (String × Json))) (outer : String) :
    (ofTable table).get? outer = (Entries.get? table outer).map .object :=
  Entries.get?_map (fun _ row => Json.object row) table outer

theorem at?_ofTable (table : List (String × List (String × Json))) (outer inner : String) :
    ((ofTable table).get? outer).bind (·.get? inner) = Entries.at? table outer inner := by
  rw [get?_ofTable, Option.bind_map]
  rfl

theorem distinct_ofTable {table : List (String × List (String × Json))} (ht : Entries.Tidy table)
    (h : ∀ outer inner v, Entries.at? table outer inner = some v → v.distinct = true) :
    (ofTable table).distinct = true := by
  refine (distinct_object_iff _).2 ⟨by simpa [Entries.keys, Function.comp_def] using ht.1, ?_⟩
  intro m hm
  obtain ⟨e, he, rfl⟩ := List.mem_map.1 hm
  refine (distinct_object_iff _).2 ⟨ht.2 e he, ?_⟩
  intro n hn
  exact h e.1 n.1 n.2 (ht.at?_eq_some he hn)

section Tables

variable {table table' : List (String × List (String × Json))} (ht : Entries.Tidy table)
  (ht' : Entries.Tidy table') (hf : Entries.Filled table) (hf' : Entries.Filled table')
  (h : ∀ outer inner,
    SameFound (Entries.at? table outer inner) (Entries.at? table' outer inner))

include hf hf' h

theorem get?_eq_none_iff_of_at? (outer : String) :
    Entries.get? table outer = none ↔ Entries.get? table' outer = none := by
  constructor
  · intro hnone
    exact hf'.get?_eq_none fun inner =>
      (h outer inner).eq_none_iff.1 (Entries.at?_eq_none_of_get? hnone inner)
  · intro hnone
    exact hf.get?_eq_none fun inner =>
      (h outer inner).eq_none_iff.2 (Entries.at?_eq_none_of_get? hnone inner)

include ht ht'

theorem same_table : (ofTable table).same (ofTable table') = true := by
  have hkeys : ∀ t : List (String × List (String × Json)),
      Entries.keys (t.map fun e => (e.1, Json.object e.2)) = Entries.keys t := by
    simp [Entries.keys, Function.comp_def]
  refine same_object_of_get? (by rw [hkeys]; exact ht.1) (by rw [hkeys]; exact ht'.1) fun outer => ?_
  show SameFound ((ofTable table).get? outer) ((ofTable table').get? outer)
  rw [get?_ofTable, get?_ofTable]
  have hnone := get?_eq_none_iff_of_at? hf hf' h outer
  cases hrow : Entries.get? table outer with
  | none =>
    rw [hnone.1 hrow]
    exact .none
  | some row =>
    cases hrow' : Entries.get? table' outer with
    | none =>
      rw [hnone.2 hrow'] at hrow
      cases hrow
    | some row' =>
      refine .some (same_object_of_get? (ht.2 _ (Entries.mem_of_get?_eq_some hrow))
        (ht'.2 _ (Entries.mem_of_get?_eq_some hrow')) fun inner => ?_)
      have hfound := h outer inner
      rw [Entries.at?, Entries.at?, hrow, hrow'] at hfound
      exact hfound

end Tables

end ApiDescription.Json
