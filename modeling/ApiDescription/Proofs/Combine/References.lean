import ApiDescription.Proofs.Combine.Redirect

/-!
# The references of a value

`Json.references` lists every `$ref` of a value that is a text, at any depth and in order. Redirecting does
not look inside a `$ref` that is no text, so a reference there is `hidden`; it follows every other one
(`references_redirect`).
-/

set_option autoImplicit false

namespace ApiDescription

/-! ## Where a reference to a schema begins -/

namespace Service

theorem stripStart?_eq_some_iff {start text rest : String} :
    stripStart? start text = some rest ↔ text = start ++ rest := by
  simp only [stripStart?]
  constructor
  · intro h
    split at h
    · next htake =>
      have hrest : String.ofList (text.toList.drop start.length) = rest := Option.some.inj h
      apply String.toList_injective
      rw [String.toList_append, ← hrest, String.toList_ofList, ← htake, List.take_append_drop]
    · cases h
  · rintro rfl
    have hlen : start.length = start.toList.length := rfl
    rw [String.toList_append, hlen, List.take_left, List.drop_left, if_pos rfl,
      String.ofList_toList]

theorem stripStart?_append (start rest : String) : stripStart? start (start ++ rest) = some rest :=
  stripStart?_eq_some_iff.2 rfl

end Service

/-! ## Finding references -/

/-- A reference that stands somewhere in a value. -/
structure FoundReference where
  target : String
  /-- It stands inside a `$ref` that is no text. -/
  hidden : Bool
  deriving DecidableEq, Repr

namespace Json

open Renames (referenceName)

mutual

/-- The references in a value that is itself hidden or not. -/
def referencesIn (hidden : Bool) : Json → List FoundReference
  | .array xs => referencesInItems hidden xs
  | .object ms => referencesInMembers hidden ms
  | _ => []

def referencesInItems (hidden : Bool) : List Json → List FoundReference
  | [] => []
  | x :: xs => referencesIn hidden x ++ referencesInItems hidden xs

/-- The references among members and in their values. -/
def referencesInMembers (hidden : Bool) : List (String × Json) → List FoundReference
  | [] => []
  | (k, v) :: ms =>
    (if k = "$ref" then v.string?.toList.map (⟨·, hidden⟩) ++ referencesIn true v
     else referencesIn hidden v) ++ referencesInMembers hidden ms

end

/-- The references in a value. -/
def references (j : Json) : List FoundReference := j.referencesIn false

/-- The references that a member is or holds. -/
def memberReferences (hidden : Bool) (m : String × Json) : List FoundReference :=
  if m.1 = referenceName then m.2.string?.toList.map (⟨·, hidden⟩) ++ m.2.referencesIn true
  else m.2.referencesIn hidden

theorem referencesIn_array (hidden : Bool) (xs : List Json) :
    (Json.array xs).referencesIn hidden = xs.flatMap (referencesIn hidden) := by
  rw [referencesIn]
  induction xs with
  | nil => rfl
  | cons x xs ih => rw [referencesInItems, ih, List.flatMap_cons]

theorem referencesIn_object (hidden : Bool) (ms : List (String × Json)) :
    (Json.object ms).referencesIn hidden = ms.flatMap (memberReferences hidden) := by
  rw [referencesIn]
  induction ms with
  | nil => rfl
  | cons m ms ih => rw [referencesInMembers, ih, List.flatMap_cons]; rfl

theorem hidden_of_mem_referencesIn {j : Json} {x : FoundReference}
    (h : x ∈ j.referencesIn true) : x.hidden = true := by
  induction j using Json.induct with
  | array xs ih =>
    rw [referencesIn_array] at h
    obtain ⟨y, hy, hx⟩ := List.mem_flatMap.1 h
    exact ih y hy hx
  | object ms ih =>
    rw [referencesIn_object] at h
    obtain ⟨m, hm, hx⟩ := List.mem_flatMap.1 h
    unfold memberReferences at hx
    split at hx
    · rcases List.mem_append.1 hx with hx | hx
      · obtain ⟨target, _, rfl⟩ := List.mem_map.1 hx
        rfl
      · exact ih m hm hx
    · exact ih m hm hx
  | _ => cases h

theorem map_target_referencesIn (j : Json) (hidden : Bool) :
    (j.referencesIn hidden).map (·.target) = j.references.map (·.target) := by
  unfold references
  induction j using Json.induct with
  | array xs ih =>
    rw [referencesIn_array, referencesIn_array, List.map_flatMap, List.map_flatMap]
    exact List.flatMap_congr ih
  | object ms ih =>
    rw [referencesIn_object, referencesIn_object, List.map_flatMap, List.map_flatMap]
    refine List.flatMap_congr fun m hm => ?_
    unfold memberReferences
    split
    · simp [Function.comp_def]
    · exact ih m hm
  | _ => rfl

/-! ### Texts of references -/

/-- The texts of the references in a value. -/
def targets (j : Json) : List String := j.references.map (·.target)

/-- The texts of the references that a member is or holds. -/
def memberTargets (m : String × Json) : List String :=
  (if m.1 = referenceName then m.2.string?.toList else []) ++ m.2.targets

theorem targets_array (xs : List Json) : (Json.array xs).targets = xs.flatMap targets := by
  rw [targets, references, referencesIn_array, List.map_flatMap]
  rfl

theorem targets_object (ms : List (String × Json)) :
    (Json.object ms).targets = ms.flatMap memberTargets := by
  rw [targets, references, referencesIn_object, List.map_flatMap]
  refine List.flatMap_congr fun m _ => ?_
  unfold memberReferences memberTargets
  by_cases hname : m.1 = referenceName
  · rw [if_pos hname, if_pos hname, List.map_append, map_target_referencesIn]
    simp [targets, Function.comp_def]
  · rw [if_neg hname, if_neg hname, map_target_referencesIn]
    rfl

theorem memberTargets_of_ne {m : String × Json} (h : m.1 ≠ referenceName) :
    memberTargets m = m.2.targets := by
  rw [memberTargets, if_neg h, List.nil_append]

theorem targets_subset_memberTargets (m : String × Json) : m.2.targets ⊆ memberTargets m :=
  List.subset_append_right _ _

theorem memberTargets_subset {ms : List (String × Json)} {m : String × Json} (h : m ∈ ms) :
    memberTargets m ⊆ (Json.object ms).targets := by
  rw [targets_object]
  exact fun _ ht => List.mem_flatMap.2 ⟨m, h, ht⟩

theorem targets_subset_of_lookup? {j v : Json} {names : List String}
    (h : Source.lookup? j names = some v) : v.targets ⊆ j.targets := by
  induction names generalizing j with
  | nil =>
    cases h
    exact List.Subset.refl _
  | cons name names ih =>
    rw [Source.lookup?_cons] at h
    obtain ⟨w, hw, hv⟩ := Option.bind_eq_some_iff.1 h
    cases j with
    | object ms =>
      have hmem : w.targets ⊆ (Json.object ms).targets :=
        List.Subset.trans (targets_subset_memberTargets (name, w))
          (memberTargets_subset (Entries.mem_of_get?_eq_some hw))
      exact List.Subset.trans (ih hv) hmem
    | _ => cases hw

theorem memberTargets_subset_of_mem_membersAt {j : Json} {names : List String} {m : String × Json}
    (h : m ∈ Source.membersAt j names) : memberTargets m ⊆ j.targets := by
  unfold Source.membersAt at h
  cases hv : Source.lookup? j names with
  | none =>
    rw [hv] at h
    cases h
  | some v =>
    rw [hv] at h
    cases v with
    | object ms => exact List.Subset.trans (memberTargets_subset h) (targets_subset_of_lookup? hv)
    | _ => cases h

theorem targets_subset_of_mem_itemsAt {j x : Json} {name : String}
    (h : x ∈ Source.itemsAt j name) : x.targets ⊆ j.targets := by
  unfold Source.itemsAt at h
  cases hv : j.get? name with
  | none =>
    rw [hv] at h
    cases h
  | some v =>
    rw [hv] at h
    cases v with
    | array xs =>
      have hl : Source.lookup? j [name] = some (.array xs) := by
        rw [Source.lookup?_cons, hv]
        rfl
      refine List.Subset.trans ?_ (targets_subset_of_lookup? hl)
      rw [targets_array]
      exact fun _ ht => List.mem_flatMap.2 ⟨x, h, ht⟩
    | _ => cases h

end Json

/-! ## Redirecting -/

namespace Renames

/-- What becomes of a reference. -/
def follow (r : Renames) (x : FoundReference) : FoundReference :=
  if x.hidden then x else { x with target := r.retarget x.target }

theorem follow_hidden (r : Renames) {x : FoundReference} (h : x.hidden = true) : r.follow x = x :=
  if_pos h

theorem follow_visible (r : Renames) {x : FoundReference} (h : x.hidden = false) :
    r.follow x = ⟨r.retarget x.target, false⟩ := by
  rw [follow, if_neg (by simp [h]), h]

theorem retarget_of_get? (r : Renames) {name new : String} (h : Entries.get? r name = some new) :
    r.retarget (referenceStart ++ name) = referenceStart ++ new := by
  rw [retarget, Service.stripStart?_append, Option.bind_some, h]

theorem retarget_eq_self (r : Renames) {target : String}
    (h : ∀ name, target = referenceStart ++ name → Entries.get? r name = none) :
    r.retarget target = target := by
  unfold retarget
  cases hs : Service.stripStart? referenceStart target with
  | none => rfl
  | some name => rw [Option.bind_some, h name (Service.stripStart?_eq_some_iff.1 hs)]

/-- The new name of a schema is the one that references to it get. -/
theorem retarget_schema (r : Renames) (name : String) :
    r.retarget (referenceStart ++ name) =
      referenceStart ++ MergeState.componentKey r MergeState.schemaKind name := by
  have hkey : MergeState.componentKey r MergeState.schemaKind name =
      (Entries.get? r name).getD name := if_pos rfl
  rw [hkey]
  cases h : Entries.get? r name with
  | none =>
    refine retarget_eq_self r fun other hother => ?_
    rw [← String.append_right_inj _ |>.1 hother, h]
  | some new => exact retarget_of_get? r h

/-- Redirecting follows the references one by one. -/
theorem references_redirect (r : Renames) (j : Json) :
    (r.redirect j).references = j.references.map r.follow := by
  unfold Json.references
  induction j using Json.induct with
  | array xs ih =>
    rw [redirect_array, Json.referencesIn_array, Json.referencesIn_array, List.flatMap_map,
      List.map_flatMap]
    exact List.flatMap_congr ih
  | object ms ih =>
    rw [redirect_object, Json.referencesIn_object, Json.referencesIn_object, List.flatMap_map,
      List.map_flatMap]
    refine List.flatMap_congr fun m hm => ?_
    unfold Json.memberReferences
    by_cases hname : m.1 = referenceName
    · simp only [redirectMember, if_pos hname]
      -- a `$ref` that is no text stays as it is, and so do the references in it
      have hinside : (m.2.referencesIn true).map r.follow = m.2.referencesIn true := by
        refine (List.map_congr_left fun x hx => ?_).trans (List.map_id _)
        exact r.follow_hidden (Json.hidden_of_mem_referencesIn hx)
      rw [List.map_append, hinside]
      cases m.2 <;> rfl
    · rw [redirectMember_ne r hname]
      simp only [if_neg hname]
      exact ih m hm
  | _ => rfl

theorem mem_targets_redirect {r : Renames} {j : Json} {target : String} :
    target ∈ (r.redirect j).targets ↔ ∃ x ∈ j.references, (r.follow x).target = target := by
  rw [Json.targets, references_redirect, List.map_map, List.mem_map]
  rfl

end Renames

end ApiDescription
