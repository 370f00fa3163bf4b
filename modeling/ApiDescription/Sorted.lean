/-!
# Sorted maps

A sorted map is the list of its entries by ascending key. `get?_insert_self` and `get?_insert_ne` say
what an insertion does to a look-up.
-/

set_option autoImplicit false

namespace ApiDescription.Sorted

variable {κ α : Type} [LT κ] [DecidableLT κ] [DecidableEq κ]

/-- The value under a key. -/
def get? : List (κ × α) → κ → Option α
  | [], _ => none
  | (k, v) :: rest, key => if k = key then some v else get? rest key

/-- The key has an entry. -/
def has (es : List (κ × α)) (key : κ) : Bool := (get? es key).isSome

/-- The map with `value` under `key`: in place of the old value, or before the first greater key. -/
def insert : List (κ × α) → κ → α → List (κ × α)
  | [], key, value => [(key, value)]
  | (k, v) :: rest, key, value =>
    if k = key then (key, value) :: rest
    else if key < k then (key, value) :: (k, v) :: rest
    else (k, v) :: insert rest key value

/-- The map that a list of entries fills, later ones replacing earlier ones. -/
def ofList (es : List (κ × α)) : List (κ × α) := es.foldl (fun m e => insert m e.1 e.2) []

@[simp] theorem get?_insert_self (es : List (κ × α)) (key : κ) (value : α) :
    get? (insert es key value) key = some value := by
  induction es with
  | nil => simp [insert, get?]
  | cons e rest ih =>
    obtain ⟨k, v⟩ := e
    simp only [insert]
    split
    · simp [get?]
    · next h =>
      split
      · simp [get?]
      · simp [get?, h, ih]

theorem get?_insert_ne (es : List (κ × α)) {key other : κ} (value : α) (h : other ≠ key) :
    get? (insert es key value) other = get? es other := by
  induction es with
  | nil => simp [insert, get?, Ne.symm h]
  | cons e rest ih =>
    obtain ⟨k, v⟩ := e
    simp only [insert]
    split
    · next hk =>
      subst hk
      simp [get?, Ne.symm h]
    · split
      · simp [get?, Ne.symm h]
      · simp only [get?, ih]

end ApiDescription.Sorted
