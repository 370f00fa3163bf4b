import ApiDescription.Combine.Merge
import ApiDescription.Proofs.Combine.Source

/-!
# What redirecting does to a document

`Renames.redirect` keeps the shape of a value: each member and each item stays at its place, and only
texts of references change. So whatever is looked up in a redirected document is the redirected value
of what stands there in the document itself (`lookup?_redirect`, `membersAt_redirect`), and the tags of
an operation stay as they are.
-/

set_option autoImplicit false

namespace ApiDescription.Renames

variable (r : Renames)

/-- The name of the members that are references. -/
abbrev referenceName : String := "$ref"

/-! ## Member by member -/

/-- The value of a reference: a text is retargeted, and anything else is left alone. -/
def retargetValue (v : Json) : Json :=
  match v with
  | .string target => .string (r.retarget target)
  | v => v

/-- The value of a member after redirecting. -/
def redirectMember (name : String) (v : Json) : Json :=
  if name = referenceName then r.retargetValue v else r.redirect v

theorem redirectMember_ne {name : String} (h : name ≠ referenceName) (v : Json) :
    r.redirectMember name v = r.redirect v := if_neg h

theorem redirectItems_eq_map (xs : List Json) : redirectItems r xs = xs.map r.redirect := by
  induction xs with
  | nil => rfl
  | cons x xs ih => rw [redirectItems, ih, List.map_cons]

theorem redirectMembers_eq_map (ms : List (String × Json)) :
    redirectMembers r ms = ms.map fun m => (m.1, r.redirectMember m.1 m.2) := by
  induction ms with
  | nil => rfl
  | cons m ms ih =>
    obtain ⟨k, v⟩ := m
    cases v <;> simp [redirectMembers, redirectMember, retargetValue, ih]

@[simp] theorem redirect_array (xs : List Json) :
    r.redirect (.array xs) = .array (xs.map r.redirect) := by
  rw [redirect, redirectItems_eq_map]

@[simp] theorem redirect_object (ms : List (String × Json)) :
    r.redirect (.object ms) = .object (ms.map fun m => (m.1, r.redirectMember m.1 m.2)) := by
  rw [redirect, redirectMembers_eq_map]

theorem keys_redirectMember (ms : List (String × Json)) :
    Entries.keys (ms.map fun m => (m.1, r.redirectMember m.1 m.2)) = Entries.keys ms := by
  simp [Entries.keys, Function.comp_def]

theorem string?_redirect (j : Json) : (r.redirect j).string? = j.string? := by
  cases j <;> simp [redirect, Json.string?]

theorem isObject_redirect (j : Json) : (r.redirect j).isObject = j.isObject := by
  cases j <;> simp [redirect, Json.isObject]

theorem members?_redirect (j : Json) :
    (r.redirect j).members? =
      j.members?.map (List.map fun m => (m.1, r.redirectMember m.1 m.2)) := by
  cases j <;> simp [redirect, Json.members?, redirectMembers_eq_map]

theorem items?_redirect (j : Json) : (r.redirect j).items? = j.items?.map (List.map r.redirect) := by
  cases j <;> simp [redirect, Json.items?, redirectItems_eq_map]

/-! ## Look-ups -/

theorem get?_redirect (j : Json) (name : String) :
    (r.redirect j).get? name = (j.get? name).map (r.redirectMember name) := by
  cases j with
  | object ms => rw [redirect_object]; exact Entries.get?_map r.redirectMember ms name
  | _ => simp [redirect, Json.get?]

theorem lookup?_redirect (j : Json) {names : List String} (h : referenceName ∉ names) :
    Source.lookup? (r.redirect j) names = (Source.lookup? j names).map r.redirect := by
  induction names generalizing j with
  | nil => rfl
  | cons name names ih =>
    have hn : name ≠ referenceName := fun e => h (e ▸ List.mem_cons_self)
    rw [Source.lookup?_cons, Source.lookup?_cons, get?_redirect]
    cases j.get? name with
    | none => rfl
    | some v =>
      rw [Option.map_some, Option.bind_some, Option.bind_some, redirectMember_ne r hn]
      exact ih v fun hm => h (List.mem_cons_of_mem _ hm)

theorem membersAt_redirect (j : Json) {names : List String} (h : referenceName ∉ names) :
    Source.membersAt (r.redirect j) names =
      (Source.membersAt j names).map fun m => (m.1, r.redirectMember m.1 m.2) := by
  unfold Source.membersAt
  rw [lookup?_redirect r j h]
  cases Source.lookup? j names with
  | none => rfl
  | some v =>
    rw [Option.map_some, Option.bind_some, Option.bind_some, members?_redirect]
    cases v.members? <;> rfl

theorem itemsAt_redirect (j : Json) {name : String} (h : name ≠ referenceName) :
    Source.itemsAt (r.redirect j) name = (Source.itemsAt j name).map r.redirect := by
  unfold Source.itemsAt
  rw [get?_redirect]
  cases j.get? name with
  | none => rfl
  | some v =>
    rw [Option.map_some, Option.bind_some, Option.bind_some, redirectMember_ne r h, items?_redirect]
    cases v.items? <;> rfl

theorem tagsOf_redirect (operation : Json) :
    MergeState.tagsOf (r.redirect operation) = MergeState.tagsOf operation := by
  unfold MergeState.tagsOf
  rw [itemsAt_redirect r operation (by decide), List.filterMap_map]
  congr 1
  funext x
  exact string?_redirect r x

/-! ## Distinct names -/

theorem distinct_redirect {j : Json} (h : j.distinct = true) : (r.redirect j).distinct = true := by
  induction j using Json.induct with
  | array xs ih =>
    rw [Json.distinct_array_iff] at h
    rw [redirect_array, Json.distinct_array_iff]
    intro x hx
    obtain ⟨y, hy, rfl⟩ := List.mem_map.1 hx
    exact ih y hy (h y hy)
  | object ms ih =>
    rw [Json.distinct_object_iff] at h
    rw [redirect_object, Json.distinct_object_iff, keys_redirectMember]
    refine ⟨h.1, ?_⟩
    intro m hm
    obtain ⟨n, hn, rfl⟩ := List.mem_map.1 hm
    by_cases hr : n.1 = referenceName
    · have hv := h.2 n hn
      rw [redirectMember, if_pos hr]
      cases hc : n.2 <;> rw [hc] at hv <;> first | rfl | exact hv
    · rw [redirectMember_ne r hr]
      exact ih n hn (h.2 n hn)
  | _ => rfl

end ApiDescription.Renames
