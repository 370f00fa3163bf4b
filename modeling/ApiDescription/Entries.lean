/-!
# Ordered maps

An ordered map is the list of its entries in the order in which their keys were first put. Putting a
key again keeps its place and replaces its value. `get?_put_self` and `get?_put_ne` say what a put
does to a look-up, and `keys_put` what it does to the order.
-/

set_option autoImplicit false

namespace ApiDescription

/-- The entries of a map whose keys are texts, in insertion order. -/
abbrev Entries (α : Type) := List (String × α)

namespace Entries

variable {α β : Type}

/-- The value under a key. -/
def get? : List (String × α) → String → Option α
  | [], _ => none
  | (k, v) :: rest, key => if k = key then some v else get? rest key

/-- The key has an entry. -/
def has (es : List (String × α)) (key : String) : Bool := (get? es key).isSome

/-- The map with `value` under `key`: in place of the old value, or at the end. -/
def put : List (String × α) → String → α → List (String × α)
  | [], key, value => [(key, value)]
  | (k, v) :: rest, key, value =>
    if k = key then (k, value) :: rest else (k, v) :: put rest key value

/-- The map with `value` under `key`, unless the key already has a value. -/
def putNew (es : List (String × α)) (key : String) (value : α) : List (String × α) :=
  if has es key then es else es ++ [(key, value)]

/-- The keys in order. -/
def keys (es : List (String × α)) : List String := es.map Prod.fst

/-- The map that a list of entries fills, later ones replacing earlier ones. -/
def ofList (es : List (String × α)) : List (String × α) :=
  es.foldl (fun m e => put m e.1 e.2) []

/-- The first map with all entries of the second put into it. -/
def extend (es fs : List (String × α)) : List (String × α) :=
  fs.foldl (fun m e => put m e.1 e.2) es

/-! ## What an operation does to a look-up -/

@[simp] theorem get?_nil (key : String) : get? ([] : List (String × α)) key = none := rfl

@[simp] theorem get?_put_self (es : List (String × α)) (key : String) (value : α) :
    get? (put es key value) key = some value := by
  induction es with
  | nil => simp [put, get?]
  | cons e rest ih =>
    obtain ⟨k, v⟩ := e
    by_cases h : k = key <;> simp [put, get?, h, ih]

theorem get?_put_ne (es : List (String × α)) {key other : String} (value : α) (h : other ≠ key) :
    get? (put es key value) other = get? es other := by
  induction es with
  | nil => simp [put, get?, Ne.symm h]
  | cons e rest ih =>
    obtain ⟨k, v⟩ := e
    by_cases hk : k = key
    · subst hk
      simp [put, get?, Ne.symm h]
    · by_cases ho : k = other
      · subst ho
        simp [put, get?, hk]
      · simp [put, get?, hk, ho, ih]

theorem get?_eq_none_iff (es : List (String × α)) (key : String) :
    get? es key = none ↔ key ∉ keys es := by
  induction es with
  | nil => simp [keys]
  | cons e rest ih =>
    obtain ⟨k, v⟩ := e
    by_cases h : k = key
    · simp [get?, keys, h]
    · simp [get?, keys, h, Ne.symm h, ih]

/-- A put leaves the keys as they are, or adds one at the end. -/
theorem keys_put (es : List (String × α)) (key : String) (value : α) :
    keys (put es key value) = if key ∈ keys es then keys es else keys es ++ [key] := by
  induction es with
  | nil => simp [put, keys]
  | cons e rest ih =>
    obtain ⟨k, v⟩ := e
    by_cases h : k = key
    · simp [put, keys, h]
    · have h' : ¬ key = k := fun e => h e.symm
      simp only [keys] at ih
      by_cases hm : key ∈ rest.map Prod.fst <;> simp [put, keys, h, h', hm, ih]

/-- A put keeps the keys pairwise distinct. -/
theorem nodup_keys_put {es : List (String × α)} (h : (keys es).Nodup) (key : String) (value : α) :
    (keys (put es key value)).Nodup := by
  rw [keys_put]
  split
  · exact h
  · next hm =>
    refine List.nodup_append.2 ⟨h, by simp, ?_⟩
    intro a ha b hb hab
    have : a = key := hab.trans (List.mem_singleton.1 hb)
    exact hm (this ▸ ha)

end Entries

end ApiDescription
