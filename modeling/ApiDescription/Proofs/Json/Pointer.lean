import ApiDescription.Proofs.Json.Distinct

/-!
# JSON pointers

A pointer is a row of tokens, each behind a slash, where `~1` stands for a slash and `~0` for a tilde. A
token names a member of an object or gives the index of an item of an array. A reference inside a document is
`#` and a pointer; it `resolves` when all its tokens lead somewhere. Equal values have the same places
(`descend?_of_same`).
-/

set_option autoImplicit false

namespace ApiDescription.Json

/-- The text of a token without its escapes. -/
def unescape : List Char → List Char
  | [] => []
  | '~' :: '1' :: cs => '/' :: unescape cs
  | '~' :: '0' :: cs => '~' :: unescape cs
  | c :: cs => c :: unescape cs

/-- The tokens of a pointer behind its first slash. -/
def tokensOf (pointer : List Char) : List String :=
  (pointer.splitOn '/').map fun token => String.ofList (unescape token)

/-- The tokens of a reference inside a document. -/
def pointer? (reference : String) : Option (List String) :=
  match reference.toList with
  | ['#'] => some []
  | '#' :: '/' :: cs => some (tokensOf cs)
  | _ => none

/-- The index that a token spells in decimal digits, with no zero in front. -/
def index? (token : String) : Option Nat :=
  let digits := token.toList
  if digits.isEmpty || !digits.all Char.isDigit then none
  else if digits.head? = some '0' ∧ digits ≠ ['0'] then none
  else some (Binary64.digitsValue digits)

/-- The value to which a token leads. -/
def child? (j : Json) (token : String) : Option Json :=
  match j with
  | .object ms => Entries.get? ms token
  | .array xs => (index? token).bind fun i => xs[i]?
  | _ => none

/-- The value to which a row of tokens leads. -/
def descend? : Json → List String → Option Json
  | j, [] => some j
  | j, token :: tokens => (j.child? token).bind fun v => descend? v tokens

/-- A reference leads to some place in the document. -/
def resolves (j : Json) (reference : String) : Bool :=
  ((pointer? reference).bind j.descend?).isSome

/-! ## Tokens -/

theorem unescape_cons {c : Char} (h : c ≠ '~') (cs : List Char) :
    unescape (c :: cs) = c :: unescape cs := by
  rw [unescape.eq_def]
  split <;> simp_all

theorem unescape_append {cs : List Char} (h : '~' ∉ cs) (rest : List Char) :
    unescape (cs ++ rest) = cs ++ unescape rest := by
  induction cs with
  | nil => rfl
  | cons c cs ih =>
    have hc : c ≠ '~' := fun e => h (e ▸ List.mem_cons_self)
    rw [List.cons_append, unescape_cons hc, ih fun hm => h (List.mem_cons_of_mem _ hm)]
    rfl

theorem unescape_toList {text : String} (h : '~' ∉ text.toList) :
    unescape text.toList = text.toList := by
  have happend := unescape_append h []
  rw [List.append_nil] at happend
  exact happend.trans (List.append_nil _)

/-- A text without slashes and tildes is a token of its own. -/
theorem tokensOf_toList {text : String} (hslash : '/' ∉ text.toList) (htilde : '~' ∉ text.toList) :
    tokensOf text.toList = [text] := by
  rw [tokensOf, List.splitOn_eq_singleton hslash, List.map_cons, unescape_toList htilde,
    String.ofList_toList]
  rfl

theorem tokensOf_cons {text : String} (hslash : '/' ∉ text.toList) (htilde : '~' ∉ text.toList)
    (rest : List Char) : tokensOf (text.toList ++ '/' :: rest) = text :: tokensOf rest := by
  rw [tokensOf, List.splitOn_append_cons_self_of_not_mem hslash, List.map_cons,
    unescape_toList htilde, String.ofList_toList]
  rfl

example : tokensOf "a~1b~01//c~2".toList = ["a/b~1", "", "c~2"] := by decide

theorem tokensOf_ne_nil (pointer : List Char) : tokensOf pointer ≠ [] := by
  simp [tokensOf]

/-! ## Equal values -/

theorem exists_getElem?_of_forall₂ {α β : Type} {R : α → β → Prop} {xs : List α} {ys : List β}
    (h : List.Forall₂ R xs ys) {i : Nat} {x : α} (hx : xs[i]? = some x) :
    ∃ y, ys[i]? = some y ∧ R x y := by
  induction h generalizing i with
  | nil => simp at hx
  | cons hr _ ih =>
    cases i with
    | zero =>
      cases hx
      exact ⟨_, rfl, hr⟩
    | succ i => exact ih hx

theorem descend?_of_same {a b x : Json} {tokens : List String} (h : a.same b = true)
    (ha : a.descend? tokens = some x) : ∃ y, b.descend? tokens = some y ∧ x.same y = true := by
  induction tokens generalizing a b with
  | nil =>
    cases ha
    exact ⟨b, rfl, h⟩
  | cons token tokens ih =>
    obtain ⟨v, hv, hx⟩ := Option.bind_eq_some_iff.1 ha
    have hchild : ∃ w, b.child? token = some w ∧ v.same w = true := by
      cases a with
      | object ms =>
        obtain ⟨ns, rfl, -, hmn⟩ := (same_object_iff ms b).1 h
        exact hmn (token, v) (Entries.mem_of_get?_eq_some hv)
      | array xs =>
        obtain ⟨ys, rfl, hxy⟩ := (same_array_iff xs b).1 h
        obtain ⟨i, hi, hxi⟩ := Option.bind_eq_some_iff.1 hv
        obtain ⟨w, hw, hsame⟩ := exists_getElem?_of_forall₂ hxy hxi
        exact ⟨w, Option.bind_eq_some_iff.2 ⟨i, hi, hw⟩, hsame⟩
      | _ => cases hv
    obtain ⟨w, hw, hsame⟩ := hchild
    obtain ⟨y, hy, hxy⟩ := ih hsame hx
    exact ⟨y, Option.bind_eq_some_iff.2 ⟨w, hw, hy⟩, hxy⟩

end ApiDescription.Json
