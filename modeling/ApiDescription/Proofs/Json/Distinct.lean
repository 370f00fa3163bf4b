import Mathlib.Data.List.Perm.Subperm
import ApiDescription.Json.Value
import ApiDescription.Proofs.Entries.Table
import ApiDescription.Proofs.Number.Order

/-!
# Equality of documents

`Json.same` does not look at the order in which an object lists its members. A value is `distinct` when
no object in it lists a name twice, which is so for every value that was read (`distinct_withoutRepeats`).
On such values `same` is an equivalence: `same_refl`, `same_symm` and `same_trans`. Equality that looks at
the order as well is decided by `identical`.
-/

set_option autoImplicit false

namespace ApiDescription

/-! ## Equality of numbers -/

namespace Dyadic64

theorem same_refl (x : Dyadic64) : x.same x = true := (same_iff_value x x).2 rfl

theorem same_symm {x y : Dyadic64} (h : x.same y = true) : y.same x = true :=
  (same_iff_value y x).2 ((same_iff_value x y).1 h).symm

theorem same_trans {x y z : Dyadic64} (hxy : x.same y = true) (hyz : y.same z = true) :
    x.same z = true :=
  (same_iff_value x z).2 (((same_iff_value x y).1 hxy).trans ((same_iff_value y z).1 hyz))

end Dyadic64

namespace Number

theorem same_refl (n : Number) : n.same n = true := by
  cases n with
  | integer m => simp [same]
  | real x => exact Dyadic64.same_refl x

theorem same_symm {m n : Number} (h : m.same n = true) : n.same m = true := by
  cases m <;> cases n <;> simp only [same, beq_iff_eq, Bool.false_eq_true] at h ⊢
  · exact h.symm
  · exact Dyadic64.same_symm h

theorem same_trans {m n k : Number} (hmn : m.same n = true) (hnk : n.same k = true) :
    m.same k = true := by
  cases m <;> cases n <;> cases k <;> simp only [same, beq_iff_eq, Bool.false_eq_true] at hmn hnk ⊢
  · exact hmn.trans hnk
  · exact Dyadic64.same_trans hmn hnk

end Number

namespace Json

/-! ## Induction over values -/

/-- What holds of a value when it holds of its items, and of the values of its members, holds of all. -/
@[elab_as_elim]
theorem induct {motive : Json → Prop} (null : motive .null) (bool : ∀ b, motive (.bool b))
    (number : ∀ n, motive (.number n)) (string : ∀ s, motive (.string s))
    (array : ∀ xs, (∀ x ∈ xs, motive x) → motive (.array xs))
    (object : ∀ ms, (∀ m ∈ ms, motive m.2) → motive (.object ms)) (j : Json) : motive j := by
  refine @Json.rec motive (fun xs => ∀ x ∈ xs, motive x) (fun ms => ∀ m ∈ ms, motive m.2)
    (fun m => motive m.2) null bool number string array object ?_ ?_ ?_ ?_ (fun _ _ h => h) j
  · simp
  · intro x xs hx hxs y hy
    rcases List.mem_cons.1 hy with rfl | hy
    · exact hx
    · exact hxs y hy
  · simp
  · intro m ms hm hms n hn
    rcases List.mem_cons.1 hn with rfl | hn
    · exact hm
    · exact hms n hn

/-! ## Names that stand once -/

mutual

/-- No object in the value lists a name twice. -/
def distinct : Json → Bool
  | .array xs => distinctItems xs
  | .object ms => decide (Entries.keys ms).Nodup && distinctMembers ms
  | _ => true

def distinctItems : List Json → Bool
  | [] => true
  | x :: xs => distinct x && distinctItems xs

def distinctMembers : List (String × Json) → Bool
  | [] => true
  | (_, v) :: ms => distinct v && distinctMembers ms

end

theorem distinctItems_iff (xs : List Json) :
    distinctItems xs = true ↔ ∀ x ∈ xs, x.distinct = true := by
  induction xs with
  | nil => simp [distinctItems]
  | cons x xs ih => simp [distinctItems, ih]

theorem distinctMembers_iff (ms : List (String × Json)) :
    distinctMembers ms = true ↔ ∀ m ∈ ms, m.2.distinct = true := by
  induction ms with
  | nil => simp [distinctMembers]
  | cons m ms ih =>
    obtain ⟨k, v⟩ := m
    simp only [distinctMembers, Bool.and_eq_true, ih, List.forall_mem_cons]

theorem distinct_array_iff (xs : List Json) :
    (Json.array xs).distinct = true ↔ ∀ x ∈ xs, x.distinct = true := by
  rw [distinct, distinctItems_iff]

theorem distinct_object_iff (ms : List (String × Json)) :
    (Json.object ms).distinct = true ↔
      (Entries.keys ms).Nodup ∧ ∀ m ∈ ms, m.2.distinct = true := by
  rw [distinct, Bool.and_eq_true, decide_eq_true_eq, distinctMembers_iff]

theorem distinct_of_mem {ms : List (String × Json)} (h : (Json.object ms).distinct = true)
    {m : String × Json} (hm : m ∈ ms) : m.2.distinct = true :=
  ((distinct_object_iff ms).1 h).2 m hm

theorem distinct_of_mem_members? {j : Json} (h : j.distinct = true) {m : String × Json}
    (hm : m ∈ j.members?.getD []) : m.2.distinct = true := by
  cases j with
  | object ms => exact distinct_of_mem h hm
  | _ => cases hm

theorem distinct_of_get? {j v : Json} {name : String} (h : j.distinct = true)
    (hg : j.get? name = some v) : v.distinct = true := by
  cases j with
  | object ms => exact distinct_of_mem h (Entries.mem_of_get?_eq_some hg)
  | _ => simp [get?] at hg

theorem distinct_put {ms : List (String × Json)} (h : (Json.object ms).distinct = true) (name : String)
    {v : Json} (hv : v.distinct = true) : (Json.object (Entries.put ms name v)).distinct = true := by
  obtain ⟨hkeys, hvalues⟩ := (distinct_object_iff ms).1 h
  refine (distinct_object_iff _).2 ⟨Entries.nodup_keys_put hkeys name v, ?_⟩
  intro m hm
  rcases Entries.mem_put hm with rfl | hm
  · exact hv
  · exact hvalues m hm

theorem distinct_putNew {ms : List (String × Json)} (h : (Json.object ms).distinct = true)
    (name : String) {v : Json} (hv : v.distinct = true) :
    (Json.object (Entries.putNew ms name v)).distinct = true := by
  rcases Entries.putNew_eq ms name v with he | he
  · rw [he]
    exact h
  · rw [he]
    exact distinct_put h name hv

theorem distinct_strings (texts : List String) : (Json.array (texts.map .string)).distinct = true := by
  rw [distinct_array_iff]
  intro j hj
  obtain ⟨text, -, rfl⟩ := List.mem_map.1 hj
  rfl

/-! ### What is read -/

theorem withoutRepeatsItems_eq_map (xs : List Json) :
    withoutRepeatsItems xs = xs.map withoutRepeats := by
  induction xs with
  | nil => rfl
  | cons x xs ih => rw [withoutRepeatsItems, ih, List.map_cons]

theorem withoutRepeatsMembers_eq_map (ms : List (String × Json)) :
    withoutRepeatsMembers ms = ms.map fun m => (m.1, m.2.withoutRepeats) := by
  induction ms with
  | nil => rfl
  | cons m ms ih =>
    obtain ⟨k, v⟩ := m
    rw [withoutRepeatsMembers, ih, List.map_cons]

/-- Leaving repeated names out leaves a distinct value. -/
theorem distinct_withoutRepeats (j : Json) : j.withoutRepeats.distinct = true := by
  induction j using induct with
  | array xs ih =>
    rw [withoutRepeats, distinct_array_iff, withoutRepeatsItems_eq_map]
    intro x hx
    obtain ⟨y, hy, rfl⟩ := List.mem_map.1 hx
    exact ih y hy
  | object ms ih =>
    rw [withoutRepeats, distinct_object_iff, withoutRepeatsMembers_eq_map]
    refine ⟨Entries.nodup_keys_ofList _, ?_⟩
    intro m hm
    obtain ⟨n, hn, rfl⟩ := List.mem_map.1 (Entries.mem_of_mem_ofList hm)
    exact ih n hn
  | _ => rfl

/-- There is nothing to leave out of a distinct value. -/
theorem withoutRepeats_eq_self {j : Json} (h : j.distinct = true) : j.withoutRepeats = j := by
  induction j using induct with
  | array xs ih =>
    have hx : xs.map withoutRepeats = xs :=
      (List.map_congr_left fun x hx => ih x hx ((distinct_array_iff xs).1 h x hx)).trans
        (List.map_id xs)
    rw [withoutRepeats, withoutRepeatsItems_eq_map, hx]
  | object ms ih =>
    obtain ⟨hk, hv⟩ := (distinct_object_iff ms).1 h
    have hself : ∀ m ∈ ms, (m.1, m.2.withoutRepeats) = m :=
      fun m hm => Prod.ext rfl (ih m hm (hv m hm))
    have hm : withoutRepeatsMembers ms = ms := by
      rw [withoutRepeatsMembers_eq_map, List.map_congr_left hself]
      exact List.map_id ms
    rw [withoutRepeats, hm, Entries.ofList_eq_self hk]
  | _ => rfl

/-! ## Equality, the order of members included -/

mutual

/-- The two values are equal, and so are the orders of the members of their objects. -/
def identical : Json → Json → Bool
  | .null, .null => true
  | .bool a, .bool b => a == b
  | .number m, .number n => m == n
  | .string a, .string b => a == b
  | .array xs, .array ys => identicalItems xs ys
  | .object ms, .object ns => identicalMembers ms ns
  | _, _ => false

/-- `identical` on the items of two arrays. -/
def identicalItems : List Json → List Json → Bool
  | [], [] => true
  | x :: xs, y :: ys => identical x y && identicalItems xs ys
  | _, _ => false

/-- `identical` on the members of two objects. -/
def identicalMembers : List (String × Json) → List (String × Json) → Bool
  | [], [] => true
  | (k, v) :: ms, (l, w) :: ns => k == l && identical v w && identicalMembers ms ns
  | _, _ => false

end

theorem identicalItems_iff {xs : List Json} (h : ∀ x ∈ xs, ∀ y, identical x y = true ↔ x = y)
    (ys : List Json) : identicalItems xs ys = true ↔ xs = ys := by
  induction xs generalizing ys with
  | nil => cases ys <;> simp [identicalItems]
  | cons x xs ih =>
    rw [List.forall_mem_cons] at h
    cases ys with
    | nil => simp [identicalItems]
    | cons y ys => rw [identicalItems, Bool.and_eq_true, h.1, ih h.2, List.cons.injEq]

theorem identicalMembers_iff {ms : List (String × Json)}
    (h : ∀ m ∈ ms, ∀ j, identical m.2 j = true ↔ m.2 = j) (ns : List (String × Json)) :
    identicalMembers ms ns = true ↔ ms = ns := by
  induction ms generalizing ns with
  | nil => cases ns <;> simp [identicalMembers]
  | cons m ms ih =>
    obtain ⟨k, v⟩ := m
    rw [List.forall_mem_cons] at h
    cases ns with
    | nil => simp [identicalMembers]
    | cons n ns =>
      obtain ⟨l, w⟩ := n
      rw [identicalMembers, Bool.and_eq_true, Bool.and_eq_true, beq_iff_eq, h.1, ih h.2, List.cons.injEq,
        Prod.mk.injEq]

theorem identical_iff (j k : Json) : identical j k = true ↔ j = k := by
  induction j using induct generalizing k with
  | array xs ih =>
    cases k with
    | array ys => rw [identical, identicalItems_iff ih, Json.array.injEq]
    | _ => simp [identical]
  | object ms ih =>
    cases k with
    | object ns => rw [identical, identicalMembers_iff ih, Json.object.injEq]
    | _ => simp [identical]
  | _ => cases k <;> simp [identical]

instance : DecidableEq Json := fun j k => decidable_of_iff _ (identical_iff j k)

/-! ## Equality up to the order of members -/

theorem same_null_iff (j : Json) : null.same j = true ↔ j = null := by
  cases j <;> simp [same]

theorem same_bool_iff (b : Bool) (j : Json) : (Json.bool b).same j = true ↔ j = .bool b := by
  cases j <;> simp only [same, Bool.false_eq_true, reduceCtorEq, beq_iff_eq, Json.bool.injEq]
  exact eq_comm

theorem same_string_iff (s : String) (j : Json) :
    (Json.string s).same j = true ↔ j = .string s := by
  cases j <;> simp only [same, Bool.false_eq_true, reduceCtorEq, beq_iff_eq, Json.string.injEq]
  exact eq_comm

theorem same_number_iff (m : Number) (j : Json) :
    (Json.number m).same j = true ↔ ∃ n, j = .number n ∧ m.same n = true := by
  cases j <;> simp [same]

theorem sameItems_iff (xs ys : List Json) :
    sameItems xs ys = true ↔ List.Forall₂ (fun x y => same x y = true) xs ys := by
  induction xs generalizing ys with
  | nil => cases ys <;> simp [sameItems]
  | cons x xs ih => cases ys <;> simp [sameItems, ih]

theorem sameMembers_iff (ms ns : List (String × Json)) :
    sameMembers ms ns = true ↔
      ∀ m ∈ ms, ∃ w, Entries.get? ns m.1 = some w ∧ same m.2 w = true := by
  induction ms with
  | nil => simp [sameMembers]
  | cons m ms ih =>
    obtain ⟨k, v⟩ := m
    rw [sameMembers, Bool.and_eq_true, ih, List.forall_mem_cons]
    refine and_congr_left' ?_
    cases Entries.get? ns k <;> simp

theorem same_array_iff (xs : List Json) (j : Json) :
    (Json.array xs).same j = true ↔
      ∃ ys, j = .array ys ∧ List.Forall₂ (fun x y => same x y = true) xs ys := by
  cases j <;> simp [same, sameItems_iff]

theorem same_object_iff (ms : List (String × Json)) (j : Json) :
    (Json.object ms).same j = true ↔ ∃ ns, j = .object ns ∧ ms.length = ns.length ∧
      ∀ m ∈ ms, ∃ w, Entries.get? ns m.1 = some w ∧ same m.2 w = true := by
  cases j with
  | object ns => rw [same, Bool.and_eq_true, beq_iff_eq, sameMembers_iff]; simp
  | _ => simp [same]

theorem same_refl {j : Json} (hd : j.distinct = true) : j.same j = true := by
  induction j using induct with
  | null => exact (same_null_iff _).2 rfl
  | bool b => exact (same_bool_iff _ _).2 rfl
  | number n => exact (same_number_iff _ _).2 ⟨n, rfl, Number.same_refl n⟩
  | string s => exact (same_string_iff _ _).2 rfl
  | array xs ih =>
    have hx := (distinct_array_iff xs).1 hd
    exact (same_array_iff _ _).2 ⟨xs, rfl, List.forall₂_same.2 fun x hm => ih x hm (hx x hm)⟩
  | object ms ih =>
    obtain ⟨hk, hv⟩ := (distinct_object_iff ms).1 hd
    refine (same_object_iff _ _).2 ⟨ms, rfl, rfl, ?_⟩
    intro m hm
    exact ⟨m.2, Entries.get?_eq_some_of_mem hk hm, ih m hm (hv m hm)⟩

theorem same_trans {a b c : Json} (hab : a.same b = true) (hbc : b.same c = true) :
    a.same c = true := by
  induction a using induct generalizing b c with
  | null =>
    rw [(same_null_iff b).1 hab] at hbc
    exact hbc
  | bool x =>
    rw [(same_bool_iff x b).1 hab] at hbc
    exact hbc
  | string x =>
    rw [(same_string_iff x b).1 hab] at hbc
    exact hbc
  | number m =>
    obtain ⟨n, rfl, hmn⟩ := (same_number_iff m b).1 hab
    obtain ⟨k, rfl, hnk⟩ := (same_number_iff n c).1 hbc
    exact (same_number_iff m _).2 ⟨k, rfl, Number.same_trans hmn hnk⟩
  | array xs ih =>
    obtain ⟨ys, rfl, hxy⟩ := (same_array_iff xs b).1 hab
    obtain ⟨zs, rfl, hyz⟩ := (same_array_iff ys c).1 hbc
    refine (same_array_iff xs _).2 ⟨zs, rfl, ?_⟩
    clear hab hbc
    induction hxy generalizing zs with
    | nil => cases hyz; exact .nil
    | cons h _ ih' =>
      cases hyz with
      | cons h' hyz =>
        exact .cons (ih _ List.mem_cons_self h h')
          (ih' (fun x hx => ih x (List.mem_cons_of_mem _ hx)) _ hyz)
  | object ms ih =>
    obtain ⟨ns, rfl, hl, hmn⟩ := (same_object_iff ms b).1 hab
    obtain ⟨ps, rfl, hl', hnp⟩ := (same_object_iff ns c).1 hbc
    refine (same_object_iff ms _).2 ⟨ps, rfl, hl.trans hl', ?_⟩
    intro m hm
    obtain ⟨w, hw, hmw⟩ := hmn m hm
    obtain ⟨u, hu, hwu⟩ := hnp (m.1, w) (Entries.mem_of_get?_eq_some hw)
    exact ⟨u, hu, ih m hm hmw hwu⟩

/-- When one object has all names of another of its size, the other has all of its names. -/
theorem mem_keys_of_keys_subset {ms ns : List (String × Json)} (hd : (Entries.keys ms).Nodup)
    (hl : ms.length = ns.length) (hs : Entries.keys ms ⊆ Entries.keys ns) {k : String}
    (hk : k ∈ Entries.keys ns) : k ∈ Entries.keys ms := by
  have hperm : (Entries.keys ms).Perm (Entries.keys ns) := by
    refine (hd.subperm hs).perm_of_length_le ?_
    simp [Entries.keys, hl]
  exact hperm.mem_iff.2 hk

theorem same_symm {a b : Json} (ha : a.distinct = true) (hb : b.distinct = true)
    (h : a.same b = true) : b.same a = true := by
  induction a using induct generalizing b with
  | null =>
    rw [(same_null_iff b).1 h]
    rfl
  | bool x =>
    rw [(same_bool_iff x b).1 h]
    exact (same_bool_iff _ _).2 rfl
  | string x =>
    rw [(same_string_iff x b).1 h]
    exact (same_string_iff _ _).2 rfl
  | number m =>
    obtain ⟨n, rfl, hmn⟩ := (same_number_iff m b).1 h
    exact (same_number_iff n _).2 ⟨m, rfl, Number.same_symm hmn⟩
  | array xs ih =>
    obtain ⟨ys, rfl, hxy⟩ := (same_array_iff xs b).1 h
    refine (same_array_iff ys _).2 ⟨xs, rfl, ?_⟩
    rw [distinct_array_iff] at ha hb
    clear h
    induction hxy with
    | nil => exact .nil
    | cons h _ ih' =>
      rw [List.forall_mem_cons] at ha hb
      exact .cons (ih _ List.mem_cons_self ha.1 hb.1 h)
        (ih' (fun x hx => ih x (List.mem_cons_of_mem _ hx)) ha.2 hb.2)
  | object ms ih =>
    obtain ⟨ns, rfl, hl, hmn⟩ := (same_object_iff ms b).1 h
    obtain ⟨hkm, hvm⟩ := (distinct_object_iff ms).1 ha
    obtain ⟨hkn, hvn⟩ := (distinct_object_iff ns).1 hb
    have hsub : Entries.keys ms ⊆ Entries.keys ns := by
      intro k hk
      obtain ⟨m, hm, rfl⟩ := List.mem_map.1 hk
      obtain ⟨w, hw, _⟩ := hmn m hm
      exact Entries.mem_keys_of_mem (Entries.mem_of_get?_eq_some hw)
    refine (same_object_iff ns _).2 ⟨ms, rfl, hl.symm, ?_⟩
    -- `same` looks names of the first object up in the second, so each name of `ns` is traced back
    intro n hn
    have hk : n.1 ∈ Entries.keys ms :=
      mem_keys_of_keys_subset hkm hl hsub (Entries.mem_keys_of_mem hn)
    obtain ⟨m, hm, hname⟩ := List.mem_map.1 hk
    obtain ⟨w, hw, hmw⟩ := hmn m hm
    have hwn : w = n.2 := by
      have hg : Entries.get? ns n.1 = some n.2 := Entries.get?_eq_some_of_mem hkn hn
      rw [hname, hg] at hw
      exact (Option.some.inj hw).symm
    subst hwn
    refine ⟨m.2, ?_, ih m hm (hvm m hm) (hvn n hn) hmw⟩
    rw [← hname]
    exact Entries.get?_eq_some_of_mem hkm hm

end Json

end ApiDescription
