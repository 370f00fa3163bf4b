import Mathlib.Algebra.Ring.Nat
import Mathlib.Data.List.Induction
import Mathlib.Data.List.Nodup
import ApiDescription.Entries

/-!
# Tables with two keys

The path items of a combined document and its components are both ordered maps of ordered maps.
`at?` looks a value up under an outer and an inner key and `putAt` writes one. `at?_putAll` says that
after a list of writes the last one under the two keys is found, and `keys_putAll` that the outer keys
stand in the order in which they were first written.
-/

set_option autoImplicit false

namespace ApiDescription.Entries

variable {α β : Type}

/-! ## Look-ups in one map -/

theorem mem_of_get?_eq_some {es : List (String × α)} {key : String} {value : α}
    (h : get? es key = some value) : (key, value) ∈ es := by
  induction es with
  | nil => simp at h
  | cons e rest ih =>
    obtain ⟨k, v⟩ := e
    by_cases hk : k = key
    · subst hk
      have hv : v = value := by simpa [get?] using h
      subst hv
      exact List.mem_cons_self
    · have hr : get? rest key = some value := by simpa [get?, hk] using h
      exact List.mem_cons_of_mem _ (ih hr)

theorem mem_keys_of_mem {es : List (String × α)} {key : String} {value : α}
    (h : (key, value) ∈ es) : key ∈ keys es :=
  List.mem_map.2 ⟨(key, value), h, rfl⟩

theorem keys_concat (es : List (String × α)) (key : String) (value : α) :
    keys (es ++ [(key, value)]) = keys es ++ [key] := List.map_append

theorem get?_eq_some_of_mem {es : List (String × α)} (hd : (keys es).Nodup) {key : String}
    {value : α} (h : (key, value) ∈ es) : get? es key = some value := by
  induction es with
  | nil => simp at h
  | cons e rest ih =>
    obtain ⟨k, v⟩ := e
    have hd' : k ∉ keys rest ∧ (keys rest).Nodup := List.nodup_cons.1 hd
    rcases List.mem_cons.1 h with he | hr
    · obtain ⟨rfl, rfl⟩ := Prod.mk.inj he
      simp [get?]
    · have hk : k ≠ key := fun e => hd'.1 (e ▸ mem_keys_of_mem hr)
      simpa [get?, hk] using ih hd'.2 hr

theorem get?_isSome_iff (es : List (String × α)) (key : String) :
    (get? es key).isSome = true ↔ key ∈ keys es := by
  rw [Option.isSome_iff_ne_none, ne_eq, get?_eq_none_iff, not_not]

theorem get?_map (f : String → α → β) (es : List (String × α)) (key : String) :
    get? (es.map fun e => (e.1, f e.1 e.2)) key = (get? es key).map (f key) := by
  induction es with
  | nil => rfl
  | cons e rest ih =>
    obtain ⟨k, v⟩ := e
    by_cases h : k = key
    · subst h
      simp [get?]
    · simp [get?, h, ih]

/-! ## Maps that are filled -/

theorem mem_put {es : List (String × α)} {key : String} {value : α} {e : String × α}
    (h : e ∈ put es key value) : e = (key, value) ∨ e ∈ es := by
  induction es with
  | nil => exact Or.inl (List.mem_singleton.1 h)
  | cons e' rest ih =>
    obtain ⟨k, v⟩ := e'
    by_cases hk : k = key
    · rw [put, if_pos hk, hk] at h
      exact (List.mem_cons.1 h).imp_right (List.mem_cons_of_mem _)
    · rw [put, if_neg hk] at h
      rcases List.mem_cons.1 h with rfl | h
      · exact Or.inr List.mem_cons_self
      · exact (ih h).imp_right (List.mem_cons_of_mem _)

/-- Putting what a key holds already changes nothing. -/
theorem put_of_get?_eq_some {es : List (String × α)} {key : String} {value : α}
    (h : get? es key = some value) : put es key value = es := by
  induction es with
  | nil => simp at h
  | cons e rest ih =>
    obtain ⟨k, v⟩ := e
    by_cases hk : k = key
    · rw [get?, if_pos hk] at h
      rw [put, if_pos hk, hk, Option.some.inj h]
    · rw [get?, if_neg hk] at h
      rw [put, if_neg hk, ih h]

/-- A value under a new key is put at the end. -/
theorem put_of_get?_eq_none {es : List (String × α)} {key : String} (h : get? es key = none)
    (value : α) : put es key value = es ++ [(key, value)] := by
  induction es with
  | nil => rfl
  | cons e rest ih =>
    obtain ⟨k, v⟩ := e
    by_cases hk : k = key
    · simp [get?, hk] at h
    · rw [get?, if_neg hk] at h
      rw [put, if_neg hk, ih h, List.cons_append]

theorem putNew_eq (es : List (String × α)) (key : String) (value : α) :
    putNew es key value = es ∨ putNew es key value = put es key value := by
  unfold putNew has
  cases h : get? es key with
  | some _ => exact Or.inl rfl
  | none => exact Or.inr (put_of_get?_eq_none h value).symm

theorem get?_putNew_ne (es : List (String × α)) {key other : String} (value : α) (h : other ≠ key) :
    get? (putNew es key value) other = get? es other := by
  rcases putNew_eq es key value with he | he
  · rw [he]
  · rw [he, get?_put_ne es value h]

/-- A key that had no value has the new one. -/
theorem get?_putNew_self (es : List (String × α)) (key : String) (value : α) :
    get? (putNew es key value) key = (get? es key).or (some value) := by
  cases h : get? es key with
  | some old =>
    rw [putNew, has, h]
    exact h
  | none =>
    rw [putNew, has, h, Option.none_or, if_neg (by simp), ← put_of_get?_eq_none h value,
      get?_put_self]

theorem nodup_keys_ofList (es : List (String × α)) : (keys (ofList es)).Nodup := by
  unfold ofList
  induction es using List.reverseRecOn with
  | nil => exact List.nodup_nil
  | append_singleton es e ih =>
    rw [List.foldl_append]
    exact nodup_keys_put ih e.1 e.2

/-- Entries with distinct keys fill a map in their order. -/
theorem ofList_eq_self {es : List (String × α)} (hd : (keys es).Nodup) : ofList es = es := by
  unfold ofList
  induction es using List.reverseRecOn with
  | nil => rfl
  | append_singleton es e ih =>
    have hke : (keys es).Nodup ∧ e.1 ∉ keys es := by
      simp only [keys, List.map_append, List.map_cons, List.map_nil] at hd
      rw [List.nodup_append] at hd
      exact ⟨hd.1, fun hm => hd.2.2 e.1 hm e.1 List.mem_cons_self rfl⟩
    rw [List.foldl_append, ih hke.1]
    exact put_of_get?_eq_none ((get?_eq_none_iff es e.1).2 hke.2) e.2

theorem mem_of_mem_ofList {es : List (String × α)} {e : String × α} (h : e ∈ ofList es) : e ∈ es := by
  unfold ofList at h
  induction es using List.reverseRecOn with
  | nil => exact h
  | append_singleton es e' ih =>
    rw [List.foldl_append] at h
    rcases mem_put h with rfl | h
    · simp
    · exact List.mem_append_left _ (ih h)

/-- Where each write is read back and leaves the other keys alone, the last write to a key is found. -/
theorem read_foldl_write {σ κ : Type} [BEq κ] [LawfulBEq κ] {read : σ → κ → Option α}
    {write : σ → κ → α → σ} (hself : ∀ s key value, read (write s key value) key = some value)
    (hne : ∀ s key other value, other ≠ key → read (write s key value) other = read s other) (s : σ)
    (writes : List (κ × α)) (key : κ) : read (writes.foldl (fun s w => write s w.1 w.2) s) key =
      (writes.reverse.lookup key).or (read s key) := by
  induction writes generalizing s with
  | nil => rfl
  | cons w rest ih =>
    obtain ⟨k, v⟩ := w
    rw [List.foldl_cons, ih, List.reverse_cons, List.lookup_append, Option.or_assoc]
    congr 1
    by_cases hk : key = k
    · subst hk
      rw [hself, List.lookup_cons_self]
      rfl
    · have hbeq : (key == k) = false := beq_eq_false_iff_ne.2 hk
      rw [hne s k key v hk, List.lookup_cons, hbeq]
      rfl

theorem get?_extend (es fs : List (String × α)) (key : String) :
    get? (extend es fs) key = (fs.reverse.lookup key).or (get? es key) :=
  read_foldl_write get?_put_self (fun es _ _ value h => get?_put_ne es value h) es fs key

/-- The last entry under a key counts. -/
theorem get?_ofList (es : List (String × α)) (key : String) : get? (ofList es) key = es.reverse.lookup key := by
  have h := get?_extend [] es key
  rw [get?_nil, Option.or_none] at h
  exact h

/-! ## Sums over a map -/

/-- A put trades what the old value under its key counts for what the new one does. -/
theorem sum_map_put (f : String → α → Nat) (es : List (String × α)) (key : String) (value : α) :
    ((put es key value).map fun e => f e.1 e.2).sum + ((get? es key).map (f key)).getD 0 =
      (es.map fun e => f e.1 e.2).sum + f key value := by
  induction es with
  | nil => simp [put]
  | cons e rest ih =>
    obtain ⟨k, v⟩ := e
    by_cases hk : k = key
    · subst hk
      simp only [put, get?, if_true, List.map_cons, List.sum_cons, Option.map_some, Option.getD_some]
      omega
    · simp only [put, get?, if_neg hk, List.map_cons, List.sum_cons]
      omega

open scoped List in
/-- A put trades what the old value under its key lists for what the new one does. -/
theorem flatMap_put_perm (f : String → α → List β) (es : List (String × α)) (key : String) (value : α) :
    (put es key value).flatMap (fun e => f e.1 e.2) ++ ((get? es key).map (f key)).getD [] ~
      es.flatMap (fun e => f e.1 e.2) ++ f key value := by
  induction es with
  | nil => simp [put]
  | cons e rest ih =>
    obtain ⟨k, v⟩ := e
    by_cases hk : k = key
    · subst hk
      have hswap (xs ys zs : List β) : xs ++ (ys ++ zs) ~ zs ++ (ys ++ xs) := by
        calc xs ++ (ys ++ zs) ~ xs ++ (zs ++ ys) := List.perm_append_comm.append_left xs
          _ ~ zs ++ ys ++ xs := List.perm_append_comm
          _ = zs ++ (ys ++ xs) := List.append_assoc zs ys xs
      simpa [put, get?] using hswap (f k value) (rest.flatMap fun e => f e.1 e.2) (f k v)
    · simpa [put, get?, hk] using ih.append_left (f k v)

/-- A put adds a key to those of a kind when it is one of them, and new. -/
theorem countP_put (p : String → Bool) (es : List (String × α)) (key : String) (value : α) :
    (put es key value).countP (fun e => p e.1) =
      es.countP (fun e => p e.1) + if p key = true ∧ get? es key = none then 1 else 0 := by
  induction es with
  | nil => cases h : p key <;> simp [put, h]
  | cons e rest ih =>
    obtain ⟨k, v⟩ := e
    by_cases hk : k = key
    · simp [put, get?, hk, List.countP_cons]
    · simp only [put, get?, if_neg hk, List.countP_cons, ih]
      omega

/-! ## Two keys -/

/-- The value under two keys. -/
def at? (table : List (String × List (String × α))) (outer inner : String) : Option α :=
  (get? table outer).bind (get? · inner)

/-- The table with a value under two keys. -/
def putAt (table : List (String × List (String × α))) (outer inner : String) (value : α) :
    List (String × List (String × α)) :=
  put table outer (put ((get? table outer).getD []) inner value)

/-- The table with one write after the other, each with its two keys. -/
def putAll (table : List (String × List (String × α))) (writes : List ((String × String) × α)) :
    List (String × List (String × α)) :=
  writes.foldl (fun table w => putAt table w.1.1 w.1.2 w.2) table

@[simp] theorem at?_nil (outer inner : String) :
    at? ([] : List (String × List (String × α))) outer inner = none := rfl

theorem get?_getD_nil (table : List (String × List (String × α))) (outer inner : String) :
    get? ((get? table outer).getD []) inner = at? table outer inner := by
  unfold at?
  cases get? table outer <;> rfl

@[simp] theorem at?_putAt_self (table : List (String × List (String × α))) (outer inner : String)
    (value : α) : at? (putAt table outer inner value) outer inner = some value := by
  simp [at?, putAt]

theorem at?_putAt_ne (table : List (String × List (String × α))) {outer inner outer' inner' : String}
    (value : α) (h : (outer', inner') ≠ (outer, inner)) :
    at? (putAt table outer inner value) outer' inner' = at? table outer' inner' := by
  by_cases ho : outer' = outer
  · subst ho
    have hi : inner' ≠ inner := fun e => h (by rw [e])
    rw [← get?_getD_nil table]
    simp [at?, putAt, get?_put_ne _ value hi]
  · simp [at?, putAt, get?_put_ne _ _ ho]

theorem at?_putAt_eq_none_iff (table : List (String × List (String × α))) (k k' : String × String)
    (value : α) : at? (putAt table k.1 k.2 value) k'.1 k'.2 = none ↔
      k' ≠ k ∧ at? table k'.1 k'.2 = none := by
  by_cases h : k' = k
  · subst h
    simp
  · rw [at?_putAt_ne table value h]
    exact (and_iff_right h).symm

/-! ## Many writes -/

theorem putAll_append (table : List (String × List (String × α)))
    (ws ws' : List ((String × String) × α)) :
    putAll table (ws ++ ws') = putAll (putAll table ws) ws' := List.foldl_append

/-- The last write under two keys is found, or else what was there before. -/
theorem at?_putAll (table : List (String × List (String × α)))
    (writes : List ((String × String) × α)) (outer inner : String) :
    at? (putAll table writes) outer inner =
      (writes.reverse.lookup (outer, inner)).or (at? table outer inner) := by
  let read (table : List (String × List (String × α))) (key : String × String) := at? table key.1 key.2
  have hself (table : List (String × List (String × α))) (key : String × String) (value : α) :
      read (putAt table key.1 key.2 value) key = some value := at?_putAt_self table key.1 key.2 value
  have hne (table : List (String × List (String × α))) (key other : String × String) (value : α)
      (h : other ≠ key) : read (putAt table key.1 key.2 value) other = read table other :=
    at?_putAt_ne table value h
  exact read_foldl_write hself hne table writes (outer, inner)

theorem lookup_map {κ : Type} [BEq κ] (f : α → β) (l : List (κ × α)) (key : κ) :
    (l.map fun e => (e.1, f e.2)).lookup key = (l.lookup key).map f := by
  induction l with
  | nil => rfl
  | cons e l ih =>
    obtain ⟨k, v⟩ := e
    rw [List.map_cons, List.lookup_cons, List.lookup_cons, ih]
    cases key == k <;> rfl

theorem lookup_map_key {κ : Type} [BEq κ] [LawfulBEq κ] (f : κ → α → β) (l : List (κ × α)) (key : κ) :
    (l.map fun e => (e.1, f e.1 e.2)).lookup key = (l.lookup key).map (f key) := by
  induction l with
  | nil => rfl
  | cons e l ih =>
    obtain ⟨k, v⟩ := e
    rw [List.map_cons, List.lookup_cons, List.lookup_cons, ih]
    cases hk : key == k with
    | true => rw [eq_of_beq hk]; rfl
    | false => rfl

theorem mem_of_lookup_reverse {κ : Type} [BEq κ] [LawfulBEq κ] {l : List (κ × α)} {key : κ} {value : α}
    (h : l.reverse.lookup key = some value) : (key, value) ∈ l := by
  obtain ⟨before, after, hl, -⟩ := List.lookup_eq_some_iff.1 h
  rw [← List.mem_reverse, hl]
  simp

theorem lookup_reverse_eq_none_iff {κ : Type} [BEq κ] [LawfulBEq κ] {l : List (κ × α)} {key : κ} :
    l.reverse.lookup key = none ↔ key ∉ l.map Prod.fst := by
  rw [List.lookup_eq_none_iff]
  constructor
  · intro h hm
    obtain ⟨e, he, rfl⟩ := List.mem_map.1 hm
    exact bne_iff_ne.1 (h e (List.mem_reverse.2 he)) rfl
  · intro h e he
    exact bne_iff_ne.2 fun hk => h (List.mem_map.2 ⟨e, List.mem_reverse.1 he, hk.symm⟩)

theorem lookup_eq_some_of_mem {κ : Type} [BEq κ] [LawfulBEq κ] {l : List (κ × α)}
    (hn : (l.map Prod.fst).Nodup) {key : κ} {value : α} (h : (key, value) ∈ l) :
    l.lookup key = some value := by
  induction l with
  | nil => cases h
  | cons e l ih =>
    obtain ⟨k, v⟩ := e
    obtain ⟨hk, hn⟩ := List.nodup_cons.1 hn
    rcases List.mem_cons.1 h with he | h
    · cases he
      exact List.lookup_cons_self
    · have hne : (key == k) = false :=
        beq_eq_false_iff_ne.2 fun he => hk (he ▸ List.mem_map.2 ⟨_, h, rfl⟩)
      rw [List.lookup_cons, hne]
      exact ih hn h

theorem lookup_reverse_eq_some_of_mem {κ : Type} [BEq κ] [LawfulBEq κ] {l : List (κ × α)}
    (hn : (l.map Prod.fst).Nodup) {key : κ} {value : α} (h : (key, value) ∈ l) :
    l.reverse.lookup key = some value := by
  have hn' : (l.reverse.map Prod.fst).Nodup := ((List.reverse_perm l).map Prod.fst).nodup_iff.2 hn
  exact lookup_eq_some_of_mem hn' (List.mem_reverse.2 h)

/-- Where keys stand once, what is found does not depend on the order. -/
theorem lookup_reverse_perm {κ : Type} [BEq κ] [LawfulBEq κ] {l l' : List (κ × α)}
    (hn : (l.map Prod.fst).Nodup) (hp : l.Perm l') (key : κ) :
    l.reverse.lookup key = l'.reverse.lookup key := by
  have hn' : (l'.map Prod.fst).Nodup := (hp.map Prod.fst).nodup_iff.1 hn
  cases h : l.reverse.lookup key with
  | some value =>
    exact (lookup_reverse_eq_some_of_mem hn' (hp.subset (mem_of_lookup_reverse h))).symm
  | none =>
    rw [lookup_reverse_eq_none_iff, (hp.map Prod.fst).mem_iff] at h
    exact (lookup_reverse_eq_none_iff.2 h).symm

/-! ## Keys that stand once -/

/-- No outer key stands twice, and no inner key twice under one outer key. -/
def Tidy (table : List (String × List (String × α))) : Prop :=
  (keys table).Nodup ∧ ∀ e ∈ table, (keys e.2).Nodup

theorem tidy_nil : Tidy ([] : List (String × List (String × α))) := ⟨List.nodup_nil, by simp⟩

theorem Tidy.putAt {table : List (String × List (String × α))} (h : Tidy table)
    (outer inner : String) (value : α) : Tidy (putAt table outer inner value) := by
  refine ⟨nodup_keys_put h.1 _ _, ?_⟩
  intro e he
  rcases mem_put he with rfl | he
  · refine nodup_keys_put ?_ inner value
    cases hg : get? table outer with
    | none => exact List.nodup_nil
    | some es => exact h.2 _ (mem_of_get?_eq_some hg)
  · exact h.2 e he

theorem tidy_putAll {table : List (String × List (String × α))} (h : Tidy table)
    (writes : List ((String × String) × α)) : Tidy (putAll table writes) := by
  induction writes generalizing table with
  | nil => exact h
  | cons w rest ih => exact ih (h.putAt w.1.1 w.1.2 w.2)

theorem Tidy.at?_eq_some {table : List (String × List (String × α))} (h : Tidy table)
    {e : String × List (String × α)} (he : e ∈ table) {m : String × α} (hm : m ∈ e.2) :
    at? table e.1 m.1 = some m.2 := by
  unfold at?
  rw [get?_eq_some_of_mem h.1 he, Option.bind_some]
  exact get?_eq_some_of_mem (h.2 e he) hm

/-! ## Cells -/

/-- The values of a table with their two keys, row by row. -/
def cells (table : List (String × List (String × α))) : List ((String × String) × α) :=
  table.flatMap fun e => e.2.map fun m => ((e.1, m.1), m.2)

theorem mem_cells {table : List (String × List (String × α))} {w : (String × String) × α} :
    w ∈ cells table ↔ ∃ e ∈ table, ∃ m ∈ e.2, ((e.1, m.1), m.2) = w := by
  simp only [cells, List.mem_flatMap, List.mem_map]

/-- The cells of a tidy table are what is found in it. -/
theorem Tidy.mem_cells_iff {table : List (String × List (String × α))} (h : Tidy table)
    {w : (String × String) × α} : w ∈ cells table ↔ at? table w.1.1 w.1.2 = some w.2 := by
  rw [mem_cells]
  constructor
  · rintro ⟨e, he, m, hm, rfl⟩
    exact h.at?_eq_some he hm
  · intro hat
    obtain ⟨row, hrow, hcell⟩ := Option.bind_eq_some_iff.1 hat
    exact ⟨_, mem_of_get?_eq_some hrow, _, mem_of_get?_eq_some hcell, rfl⟩

theorem Tidy.nodup_cells {table : List (String × List (String × α))} (h : Tidy table) :
    ((cells table).map Prod.fst).Nodup := by
  have hrow : ∀ e : String × List (String × α),
      (e.2.map fun m => ((e.1, m.1), m.2)).map Prod.fst = (keys e.2).map fun k => (e.1, k) := by
    intro e
    simp [keys, Function.comp_def]
  rw [cells, List.map_flatMap]
  simp only [hrow]
  refine List.nodup_flatMap.2 ⟨?_, ?_⟩
  · intro e he
    exact (h.2 e he).map fun a b hab => (Prod.mk.inj hab).2
  · refine (List.pairwise_map.1 h.1).imp ?_
    intro e e' hne k hk hk'
    obtain ⟨a, -, rfl⟩ := List.mem_map.1 hk
    obtain ⟨b, -, hb⟩ := List.mem_map.1 hk'
    exact hne (Prod.mk.inj hb).1.symm

/-- Writing the cells of a tidy table, in whatever order, gives a table where the same is found. -/
theorem Tidy.at?_putAll {table : List (String × List (String × α))} (h : Tidy table)
    {writes : List ((String × String) × α)} (hw : ∀ w, w ∈ writes ↔ w ∈ cells table)
    (outer inner : String) : at? (putAll [] writes) outer inner = at? table outer inner := by
  rw [Entries.at?_putAll, at?_nil, Option.or_none]
  cases hlast : writes.reverse.lookup (outer, inner) with
  | some value =>
    exact (h.mem_cells_iff.1 ((hw _).1 (mem_of_lookup_reverse hlast))).symm
  | none =>
    cases hat : at? table outer inner with
    | none => rfl
    | some value =>
      have hmem : ((outer, inner), value) ∈ writes := (hw _).2 (h.mem_cells_iff.2 hat)
      exact absurd (List.mem_map.2 ⟨_, hmem, rfl⟩) (lookup_reverse_eq_none_iff.1 hlast)

/-! ## Rows that are not empty -/

/-- Every outer key has a value under some inner key. -/
def Filled (table : List (String × List (String × α))) : Prop := ∀ e ∈ table, e.2 ≠ []

theorem put_ne_nil (es : List (String × α)) (key : String) (value : α) : put es key value ≠ [] := by
  cases es with
  | nil => simp [put]
  | cons e rest => rw [put]; split <;> simp

theorem Filled.putAt {table : List (String × List (String × α))} (h : Filled table)
    (outer inner : String) (value : α) : Filled (putAt table outer inner value) := by
  intro e he
  rcases mem_put he with rfl | he
  · exact put_ne_nil _ inner value
  · exact h e he

theorem filled_putAll {table : List (String × List (String × α))} (h : Filled table)
    (writes : List ((String × String) × α)) : Filled (putAll table writes) := by
  induction writes generalizing table with
  | nil => exact h
  | cons w rest ih => exact ih (h.putAt w.1.1 w.1.2 w.2)

theorem filled_nil : Filled ([] : List (String × List (String × α))) := by simp [Filled]

/-- A key of a filled table leads to a value. -/
theorem Filled.exists_at? {table : List (String × List (String × α))} (h : Filled table)
    {outer : String} {row : List (String × α)} (hrow : get? table outer = some row) :
    ∃ inner value, at? table outer inner = some value := by
  cases row with
  | nil => exact absurd rfl (h _ (mem_of_get?_eq_some hrow))
  | cons m row => exact ⟨m.1, m.2, by simp [at?, hrow, get?]⟩

/-- An outer key under which nothing is found is none of a filled table. -/
theorem Filled.get?_eq_none {table : List (String × List (String × α))} (h : Filled table)
    {outer : String} (hnone : ∀ inner, at? table outer inner = none) : get? table outer = none := by
  by_contra hsome
  obtain ⟨row, hrow⟩ := Option.ne_none_iff_exists'.1 hsome
  obtain ⟨inner, value, hvalue⟩ := h.exists_at? hrow
  rw [hnone inner] at hvalue
  cases hvalue

/-- The rows that are not empty. -/
def filledRows (table : List (String × List (String × α))) : List (String × List (String × α)) :=
  table.filter fun e => !e.2.isEmpty

theorem filled_filledRows (table : List (String × List (String × α))) : Filled (filledRows table) := by
  intro e he hnil
  have hfilled := (List.mem_filter.1 he).2
  simp [hnil] at hfilled

theorem Tidy.filledRows {table : List (String × List (String × α))} (h : Tidy table) :
    Tidy (filledRows table) := by
  refine ⟨h.1.sublist ?_, fun e he => h.2 e (List.mem_filter.1 he).1⟩
  exact (List.filter_sublist (l := table)).map Prod.fst

/-- Nothing is found in a row that is left out. -/
theorem at?_filledRows {table : List (String × List (String × α))} (h : (keys table).Nodup)
    (outer inner : String) : at? (filledRows table) outer inner = at? table outer inner := by
  induction table with
  | nil => rfl
  | cons e rest ih =>
    obtain ⟨k, row⟩ := e
    obtain ⟨hk, hrest⟩ := List.nodup_cons.1 h
    cases row with
    | cons m row =>
      have hkept : filledRows ((k, m :: row) :: rest) = (k, m :: row) :: filledRows rest := rfl
      rw [hkept]
      by_cases hkey : k = outer
      · simp [at?, get?, hkey]
      · simpa [at?, get?, hkey] using ih hrest
    | nil =>
      have hdropped : filledRows ((k, []) :: rest) = filledRows rest := rfl
      rw [hdropped, ih hrest]
      by_cases hkey : k = outer
      · subst hkey
        have hnone : get? rest k = none := (get?_eq_none_iff rest k).2 hk
        simp [at?, get?, hnone]
      · simp [at?, get?, hkey]

theorem at?_eq_none_of_get? {table : List (String × List (String × α))} {outer : String}
    (h : get? table outer = none) (inner : String) : at? table outer inner = none := by
  simp [at?, h]

/-! ## The order of the outer keys -/

/-- The keys with one more, at the end unless it is there already. -/
def reach (ks : List String) (key : String) : List String := if key ∈ ks then ks else ks ++ [key]

theorem keys_putAt (table : List (String × List (String × α))) (outer inner : String) (value : α) :
    keys (putAt table outer inner value) = reach (keys table) outer := keys_put _ _ _

theorem keys_putAll (table : List (String × List (String × α)))
    (writes : List ((String × String) × α)) :
    keys (putAll table writes) = (writes.map fun w => w.1.1).foldl reach (keys table) := by
  induction writes generalizing table with
  | nil => rfl
  | cons w rest ih =>
    have h := ih (putAt table w.1.1 w.1.2 w.2)
    rw [keys_putAt] at h
    exact h

theorem reach_of_mem {ks : List String} {key : String} (h : key ∈ ks) : reach ks key = ks := if_pos h

theorem mem_reach_self (ks : List String) (key : String) : key ∈ reach ks key := by
  unfold reach
  split
  · assumption
  · simp

theorem mem_reach_iff {ks : List String} {key k : String} : k ∈ reach ks key ↔ k ∈ ks ∨ k = key := by
  unfold reach
  split
  · next h => exact ⟨.inl, fun hk => hk.elim id fun heq => heq ▸ h⟩
  · simp

theorem nodup_reach {ks : List String} (h : ks.Nodup) (key : String) : (reach ks key).Nodup := by
  unfold reach
  split
  · exact h
  · next hkey => exact List.nodup_append'.2 ⟨h, List.nodup_singleton key, by simpa using hkey⟩

theorem mem_foldl_reach_iff {l ks : List String} {k : String} : k ∈ l.foldl reach ks ↔ k ∈ ks ∨ k ∈ l := by
  induction l generalizing ks with
  | nil => simp
  | cons key l ih => rw [List.foldl_cons, ih, mem_reach_iff, List.mem_cons, or_assoc]

theorem nodup_foldl_reach {ks : List String} (h : ks.Nodup) (l : List String) : (l.foldl reach ks).Nodup := by
  induction l generalizing ks with
  | nil => exact h
  | cons key l ih => exact ih (nodup_reach h key)

theorem keys_putNew (es : List (String × α)) (key : String) (value : α) :
    keys (putNew es key value) = reach (keys es) key := by
  have hhas : has es key = true ↔ key ∈ keys es := get?_isSome_iff es key
  unfold putNew reach
  by_cases h : key ∈ keys es
  · rw [if_pos (hhas.2 h), if_pos h]
  · rw [if_neg fun hk => h (hhas.1 hk), if_neg h, keys_concat]

theorem foldl_reach_const {key : String} {l : List String} (hne : l ≠ []) (hl : ∀ k ∈ l, k = key)
    (ks : List String) : l.foldl reach ks = reach ks key := by
  have hstay : ∀ (l : List String) (ks : List String), (∀ k ∈ l, k = key) → key ∈ ks →
      l.foldl reach ks = ks := by
    intro l
    induction l with
    | nil => intros; rfl
    | cons a l ih =>
      intro ks hl hm
      have ha : a = key := hl a List.mem_cons_self
      rw [List.foldl_cons, ha, reach_of_mem hm]
      exact ih ks (fun k hk => hl k (List.mem_cons_of_mem _ hk)) hm
  cases l with
  | nil => exact absurd rfl hne
  | cons a l =>
    have ha : a = key := hl a List.mem_cons_self
    rw [List.foldl_cons, ha]
    exact hstay l _ (fun k hk => hl k (List.mem_cons_of_mem _ hk)) (mem_reach_self ks key)

theorem eraseDups_append_singleton (ks : List String) (key : String) :
    (ks ++ [key]).eraseDups = reach ks.eraseDups key := by
  rw [List.eraseDups_append]
  unfold reach
  by_cases h : key ∈ ks
  · rw [if_pos (List.mem_eraseDups.2 h)]
    simp [List.removeAll, h]
  · rw [if_neg (fun hm => h (List.mem_eraseDups.1 hm))]
    simp [List.removeAll, h, List.eraseDups_cons]

/-- Reaching keys one after the other leaves each at its first place. -/
theorem foldl_reach_nil (l : List String) : l.foldl reach [] = l.eraseDups := by
  induction l using List.reverseRecOn with
  | nil => rfl
  | append_singleton l a ih => rw [List.foldl_append, ih, eraseDups_append_singleton]; rfl

end ApiDescription.Entries
