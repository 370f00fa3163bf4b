import ApiDescription.Proofs.Combine.References

/-!
# Redirecting, place by place

A place in a value is a row of positions among members and items, from the outside in. `Rewritten` says of two
values, at every place, that the references within reach go to the new names and that all else is the same:
the places, the names of members and their order, the numbers of items, and what has no parts. With the reach of
`Visible` this is all that `redirect` does; a reference below another `$ref` is not within its reach
(`eq_redirect_iff_rewritten`).
-/

set_option autoImplicit false

namespace ApiDescription

/-! ## Places -/

namespace Json

/-- The values right below a value, those of members with their names. -/
def parts : Json → List (Option String × Json)
  | .array xs => xs.map fun x => (none, x)
  | .object ms => ms.map fun m => (some m.1, m.2)
  | _ => []

/-- What stands at a place, with the names on the way there. -/
def within : Json → List Nat → Option (List (Option String) × Json)
  | j, [] => some ([], j)
  | j, i :: place => j.parts[i]?.bind fun part =>
      (part.2.within place).map fun found => (part.1 :: found.1, found.2)

/-- What is left of a value without the values below it. -/
def outline : Json → Json
  | .array xs => .array (xs.map fun _ => .null)
  | .object ms => .object (ms.map fun m => (m.1, .null))
  | j => j

theorem within_cons (j : Json) (i : Nat) (place : List Nat) :
    j.within (i :: place) = j.parts[i]?.bind fun part =>
      (part.2.within place).map fun found => (part.1 :: found.1, found.2) := rfl

theorem within_string_cons (text : String) (i : Nat) (place : List Nat) :
    (Json.string text).within (i :: place) = none := by
  have hparts : (Json.string text).parts[i]? = none := List.getElem?_nil
  rw [within_cons, hparts, Option.bind_none]

/-- Induction along the parts of a value. -/
theorem forall_of_parts {motive : Json → Prop}
    (h : ∀ j, (∀ part ∈ j.parts, motive part.2) → motive j) (j : Json) : motive j := by
  induction j using induct with
  | array xs ih =>
    refine h _ fun part hpart => ?_
    obtain ⟨x, hx, rfl⟩ := List.mem_map.1 hpart
    exact ih x hx
  | object ms ih =>
    refine h _ fun part hpart => ?_
    obtain ⟨m, hm, rfl⟩ := List.mem_map.1 hpart
    exact ih m hm
  | _ => exact h _ fun _ hpart => nomatch hpart

theorem eq_of_outline_of_parts {j k : Json} (houtline : j.outline = k.outline)
    (hparts : j.parts = k.parts) : j = k := by
  cases j with
  | array xs =>
    cases k with
    | array ys =>
      have hinjective : Function.Injective fun x : Json => ((none : Option String), x) :=
        fun _ _ h => congrArg Prod.snd h
      exact congrArg Json.array (List.map_injective_iff.2 hinjective hparts)
    | _ => nomatch houtline
  | object ms =>
    cases k with
    | object ns =>
      have hinjective : Function.Injective fun m : String × Json => (some m.1, m.2) := by
        intro m n h
        obtain ⟨hname, hvalue⟩ := Prod.mk.inj h
        exact Prod.ext (Option.some.inj hname) hvalue
      exact congrArg Json.object (List.map_injective_iff.2 hinjective hparts)
    | _ => nomatch houtline
  | _ => cases k <;> first | exact houtline | nomatch houtline

/-- Values with the same names and outlines at all places are the same. -/
theorem eq_of_within {j k : Json}
    (h : ∀ place, (j.within place).map (fun found => (found.1, found.2.outline)) =
      (k.within place).map fun found => (found.1, found.2.outline)) : j = k := by
  induction j using forall_of_parts generalizing k with
  | h j ih =>
    have houtline : j.outline = k.outline := congrArg Prod.snd (Option.some.inj (h []))
    refine eq_of_outline_of_parts houtline (List.ext_getElem? fun i => ?_)
    -- the two values have a part at the same positions
    have hroot := h [i]
    simp only [within] at hroot
    cases hj : j.parts[i]? with
    | none =>
      rw [hj] at hroot
      cases hk : k.parts[i]? with
      | none => rfl
      | some q =>
        rw [hk] at hroot
        nomatch hroot
    | some p =>
      rw [hj] at hroot
      cases hk : k.parts[i]? with
      | none =>
        rw [hk] at hroot
        nomatch hroot
      | some q =>
        rw [hk] at hroot
        have hname : p.1 = q.1 := (List.cons.inj (Prod.mk.inj (Option.some.inj hroot)).1).1
        have hvalue : p.2 = q.2 := by
          refine ih p (List.mem_of_getElem? hj) fun place => ?_
          have hplace := h (i :: place)
          rw [within_cons, within_cons, hj, hk, Option.bind_some, Option.bind_some] at hplace
          cases hp : p.2.within place <;> cases hq : q.2.within place <;> simp_all
        exact congrArg some (Prod.ext hname hvalue)

end Json

namespace Renames

/-! ## What stands at a place before and after -/

/-- The last step of a way is into a `$ref`. -/
def IsReference (names : List (Option String)) : Prop := names.getLast? = some (some referenceName)

/-- The last step of a way is into a `$ref`, and no step before it. -/
def Visible (names : List (Option String)) : Prop :=
  IsReference names ∧ some referenceName ∉ names.dropLast

/-- Within reach, a reference to a renamed schema has become one to its new name; all else has its outline. -/
structure Follows (r : Renames) (reached : Prop) (v w : Json) : Prop where
  moved : ∀ name new, reached → v = .string (referenceStart ++ name) →
    Entries.get? r name = some new → w = .string (referenceStart ++ new)
  kept : (∀ name new, reached → v = .string (referenceStart ++ name) →
    Entries.get? r name ≠ some new) → w.outline = v.outline

/-- The two values have the same places with the same names on the way, and what stands at a place follows
the new names when the place is within reach. -/
def Rewritten (r : Renames) (reaches : List (Option String) → Prop) (j k : Json) : Prop :=
  ∀ place, Option.Rel (fun before after => after.1 = before.1 ∧
    Follows r (reaches before.1) before.2 after.2) (j.within place) (k.within place)

variable {r : Renames}

theorem Follows.outline_unique {reached : Prop} {v w w' : Json} (h : Follows r reached v w)
    (h' : Follows r reached v w') : w.outline = w'.outline := by
  by_cases hmoved : ∃ name new, reached ∧ v = .string (referenceStart ++ name) ∧
      Entries.get? r name = some new
  · obtain ⟨name, new, hreached, hv, hnew⟩ := hmoved
    rw [h.moved name new hreached hv hnew, h'.moved name new hreached hv hnew]
  · have hkept : ∀ name new, reached → v = .string (referenceStart ++ name) →
        Entries.get? r name ≠ some new :=
      fun name new hreached hv hnew => hmoved ⟨name, new, hreached, hv, hnew⟩
    rw [h.kept hkept, h'.kept hkept]

theorem Follows.of_not_reached {reached : Prop} {v w : Json} (hreached : ¬ reached)
    (h : w.outline = v.outline) : Follows r reached v w where
  moved _ _ hr := absurd hr hreached
  kept _ := h

/-- There is one way to rewrite a value. -/
theorem Rewritten.unique {reaches : List (Option String) → Prop} {j k k' : Json}
    (h : Rewritten r reaches j k) (h' : Rewritten r reaches j k') : k = k' := by
  refine Json.eq_of_within fun place => ?_
  have hplace := h place
  have hplace' := h' place
  revert hplace hplace'
  cases j.within place with
  | none =>
    cases k.within place <;> cases k'.within place <;> rintro (_ | _) (_ | _)
    rfl
  | some before =>
    cases hk : k.within place with
    | none => exact fun hnone => nomatch hnone
    | some after =>
      cases hk' : k'.within place with
      | none => exact fun _ hnone => nomatch hnone
      | some after' =>
        rintro (⟨hnames, hvalue⟩ | _) (⟨hnames', hvalue'⟩ | _)
        have houtline := hvalue.outline_unique hvalue'
        rw [Option.map_some, Option.map_some, hnames, hnames', houtline]

/-! ## Redirecting a value -/

theorem outline_redirect (r : Renames) (j : Json) : (r.redirect j).outline = j.outline := by
  cases j with
  | array xs => rw [redirect_array, Json.outline, Json.outline, List.map_map]; rfl
  | object ms => rw [redirect_object, Json.outline, Json.outline, List.map_map]; rfl
  | _ => rfl

theorem follows_retargetValue (r : Renames) (v : Json) : Follows r True v (r.retargetValue v) where
  moved name new _ hv hnew := by
    subst hv
    exact congrArg Json.string (retarget_of_get? r hnew)
  kept hkept := by
    cases v with
    | string target =>
      have hself : r.retarget target = target := by
        refine retarget_eq_self r fun name hname => ?_
        by_contra hnone
        obtain ⟨new, hnew⟩ := Option.ne_none_iff_exists'.1 hnone
        exact hkept name new trivial (congrArg Json.string hname) hnew
      exact congrArg (fun text => (Json.string text).outline) hself
    | _ => rfl

/-- A part of a value after redirecting. -/
def redirectPart (r : Renames) (part : Option String × Json) : Option String × Json :=
  (part.1, if part.1 = some referenceName then r.retargetValue part.2 else r.redirect part.2)

theorem parts_redirect (r : Renames) (j : Json) :
    (r.redirect j).parts = j.parts.map r.redirectPart := by
  cases j with
  | array xs => simp [Json.parts, redirectPart, Function.comp_def]
  | object ms => simp [Json.parts, redirectPart, redirectMember, Function.comp_def]
  | _ => rfl

theorem not_visible_nil : ¬ Visible [] := by simp [Visible, IsReference]

theorem visible_reference : Visible [some referenceName] := by simp [Visible, IsReference]

theorem visible_cons_iff {name : Option String} (h : name ≠ some referenceName)
    (names : List (Option String)) : Visible (name :: names) ↔ Visible names := by
  cases names with
  | nil => simp [Visible, IsReference, h]
  | cons next names => simp [Visible, IsReference, Ne.symm h]

theorem not_visible_below_reference {names : List (Option String)} (h : names ≠ []) :
    ¬ Visible (some referenceName :: names) := by
  intro hvisible
  obtain ⟨next, rest, rfl⟩ := List.exists_cons_of_ne_nil h
  exact hvisible.2 List.mem_cons_self

theorem names_ne_nil {j v : Json} {i : Nat} {place : List Nat} {names : List (Option String)}
    (h : j.within (i :: place) = some (names, v)) : names ≠ [] := by
  rw [Json.within_cons] at h
  obtain ⟨part, -, hpart⟩ := Option.bind_eq_some_iff.1 h
  obtain ⟨found, -, hfound⟩ := Option.map_eq_some_iff.1 hpart
  rintro rfl
  cases hfound

/-- A `$ref` keeps what it is not itself: below it nothing follows. -/
theorem rewritten_retargetValue (r : Renames) (v : Json) (place : List Nat) :
    Option.Rel (fun before after => after.1 = before.1 ∧
      Follows r (Visible (some referenceName :: before.1)) before.2 after.2)
      (v.within place) ((r.retargetValue v).within place) := by
  cases place with
  | nil =>
    refine .some ⟨rfl, ?_⟩
    have hreached : Visible (some referenceName :: []) = True := eq_true visible_reference
    rw [hreached]
    exact r.follows_retargetValue v
  | cons i place =>
    by_cases hstring : ∃ text, v = .string text
    · obtain ⟨text, rfl⟩ := hstring
      rw [retargetValue, Json.within_string_cons, Json.within_string_cons]
      exact .none
    · have hself : r.retargetValue v = v := by
        cases v with
        | string text => exact absurd ⟨text, rfl⟩ hstring
        | _ => rfl
      rw [hself]
      cases hv : v.within (i :: place) with
      | none => exact .none
      | some found =>
        refine .some ⟨rfl, ?_⟩
        exact .of_not_reached (not_visible_below_reference (names_ne_nil hv)) rfl

theorem rewritten_redirect (r : Renames) (j : Json) : Rewritten r Visible j (r.redirect j) := by
  intro place
  induction place generalizing j with
  | nil => exact .some ⟨rfl, .of_not_reached not_visible_nil (outline_redirect r j)⟩
  | cons i place ih =>
    rw [Json.within_cons, Json.within_cons, parts_redirect, List.getElem?_map]
    cases j.parts[i]? with
    | none => exact .none
    | some part =>
      rw [Option.map_some, Option.bind_some, Option.bind_some]
      -- what stands below the part is known: of a `$ref`, and else of a redirected value
      have hbelow : Option.Rel (fun before after => after.1 = before.1 ∧
          Follows r (Visible (part.1 :: before.1)) before.2 after.2)
          (part.2.within place) ((r.redirectPart part).2.within place) := by
        by_cases hname : part.1 = some referenceName
        · rw [redirectPart, if_pos hname, hname]
          exact r.rewritten_retargetValue part.2 place
        · simp only [redirectPart, if_neg hname, visible_cons_iff hname]
          exact ih part.2
      revert hbelow
      generalize part.2.within place = before
      generalize (r.redirectPart part).2.within place = after
      rintro (⟨hnames, hfollows⟩ | _)
      · exact .some ⟨congrArg (part.1 :: ·) hnames, hfollows⟩
      · exact .none

/-! ## References below references -/

theorem outline_eq_string {w : Json} {text : String} (h : w.outline = (Json.string text).outline) :
    w = .string text := by
  cases w with
  | string => exact h
  | _ => nomatch h

/-- A reference that nothing reached follows the new names when its schema keeps its name. -/
theorem follows_reached_iff {names : List (Option String)} {v w : Json}
    (h : Follows r (Visible names) v w) :
    Follows r (IsReference names) v w ↔
      ∀ name new, IsReference names → ¬ Visible names → v = .string (referenceStart ++ name) →
        Entries.get? r name = some new → new = name := by
  by_cases hvisible : Visible names
  · refine iff_of_true ?_ fun _ _ _ hnot => absurd hvisible hnot
    rw [eq_true hvisible.1, ← eq_true hvisible]
    exact h
  constructor
  · rintro hfollows name new hreference - rfl hnew
    have hkept := h.kept fun _ _ hreached => absurd hreached hvisible
    have hmoved := hfollows.moved name new hreference rfl hnew
    have hsame := hmoved.symm.trans (outline_eq_string hkept)
    exact String.append_right_inj _ |>.1 (Json.string.inj hsame)
  · intro hself
    have hkept := h.kept fun _ _ hreached => absurd hreached hvisible
    refine ⟨?_, fun _ => hkept⟩
    rintro name new hreference rfl hnew
    rw [hself name new hreference hvisible rfl hnew]
    exact outline_eq_string hkept

/-- The redirected value is the value with every visible reference at its new name, and the only such value.
References below a `$ref` are not among them: they are all at their new names exactly when each of them is to a
schema whose new name is its old one. -/
theorem eq_redirect_iff_rewritten (r : Renames) (j : Json) :
    (∀ k, k = r.redirect j ↔ Rewritten r Visible j k) ∧
    (Rewritten r IsReference j (r.redirect j) ↔
      ∀ place names name new, j.within place = some (names, .string (referenceStart ++ name)) →
        IsReference names → ¬ Visible names → Entries.get? r name = some new → new = name) := by
  refine ⟨fun k => ⟨?_, fun h => h.unique (r.rewritten_redirect j)⟩, ?_⟩
  · rintro rfl
    exact r.rewritten_redirect j
  constructor
  · intro h place names name new hplace
    have hvisible := r.rewritten_redirect j place
    have hall := h place
    rw [hplace] at hvisible hall
    generalize (r.redirect j).within place = after at hvisible hall
    obtain ⟨-, hvisible⟩ | _ := hvisible
    obtain ⟨-, hall⟩ | _ := hall
    exact fun hreference hnot => (follows_reached_iff hvisible).1 hall name new hreference hnot rfl
  · intro h place
    have hvisible := r.rewritten_redirect j place
    have hself := h place
    revert hvisible hself
    generalize j.within place = before
    generalize (r.redirect j).within place = after
    rintro (⟨hnames, hvisible⟩ | _) hself
    · refine .some ⟨hnames, (follows_reached_iff hvisible).2 ?_⟩
      intro name new hreference hnot hv
      exact hself _ name new (congrArg some (Prod.ext rfl hv)) hreference hnot
    · exact .none

/-- A schema for a property called `$ref`, which is a reference. -/
def nestedReference : Json :=
  .object [("$ref", .object [("$ref", .string "#/components/schemas/User")])]

theorem nestedReference_not_rewritten :
    redirect [("User", "shop.User")] nestedReference = nestedReference ∧
    ¬ Rewritten [("User", "shop.User")] IsReference nestedReference
      (redirect [("User", "shop.User")] nestedReference) := by
  refine ⟨rfl, fun h => ?_⟩
  obtain ⟨-, hfollows⟩ | _ := h [0, 0]
  have hmoved : Json.string "#/components/schemas/User" = .string "#/components/schemas/shop.User" :=
    hfollows.moved "User" "shop.User" rfl rfl rfl
  exact absurd (Json.string.inj hmoved) (by decide)

end Renames

end ApiDescription
