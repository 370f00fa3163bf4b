import ApiDescription.Proofs.Combine.Decisions
import ApiDescription.Proofs.Combine.References

/-!
# Two decisions on the same schemas

Schemas are compared while names are still being changed, so which of them are renamed can hang on the order in
which they are listed. When two decisions on the same schemas differ, some schema is `Torn`: the one decision
renames it, and the other one finds it the same as the earlier schema of its name, because that refers to
another schema by its new name already (`same_names_iff_not_torn`).
-/

set_option autoImplicit false

namespace ApiDescription

/-! ## References of equal values -/

namespace Json

open Renames (referenceName)

theorem referencesIn_subset_of_same {a b : Json} {hidden : Bool} (h : a.same b = true) :
    a.referencesIn hidden ⊆ b.referencesIn hidden := by
  induction a using induct generalizing b hidden with
  | array xs ih =>
    obtain ⟨ys, rfl, hall⟩ := (same_array_iff xs b).1 h
    rw [referencesIn_array, referencesIn_array]
    intro x hx
    obtain ⟨v, hv, hxv⟩ := List.mem_flatMap.1 hx
    obtain ⟨i, hi, rfl⟩ := List.mem_iff_getElem.1 hv
    obtain ⟨hlength, hget⟩ := List.forall₂_iff_get.1 hall
    have hsame := hget i hi (hlength ▸ hi)
    exact List.mem_flatMap.2 ⟨_, List.get_mem ys ⟨i, hlength ▸ hi⟩, ih _ hv hsame hxv⟩
  | object ms ih =>
    obtain ⟨ns, rfl, -, hall⟩ := (same_object_iff ms b).1 h
    rw [referencesIn_object, referencesIn_object]
    intro x hx
    obtain ⟨m, hm, hxm⟩ := List.mem_flatMap.1 hx
    obtain ⟨w, hw, hsame⟩ := hall m hm
    refine List.mem_flatMap.2 ⟨(m.1, w), Entries.mem_of_get?_eq_some hw, ?_⟩
    unfold memberReferences at hxm ⊢
    by_cases hname : m.1 = referenceName
    · rw [if_pos hname, List.mem_append] at hxm ⊢
      refine hxm.imp ?_ fun hbelow => ih m hm hsame hbelow
      intro hself
      cases hv : m.2 with
      | string target =>
        rw [hv] at hself hsame
        rw [(same_string_iff target w).1 hsame]
        exact hself
      | _ =>
        rw [hv] at hself
        nomatch hself
    · rw [if_neg hname] at hxm ⊢
      exact ih m hm hsame hxm
  | _ => exact fun _ hx => nomatch hx

end Json

/-! ## Renames that differ -/

namespace Renames

variable {r r' : Renames}

/-- Redirecting only looks at the targets of the visible references. -/
theorem redirect_congr {j : Json} (h : ∀ target, ⟨target, false⟩ ∈ j.references →
    r.retarget target = r'.retarget target) : r.redirect j = r'.redirect j := by
  unfold Json.references at h
  induction j using Json.induct with
  | array xs ih =>
    rw [redirect_array, redirect_array, List.map_congr_left]
    intro x hx
    refine ih x hx fun target ht => h target ?_
    rw [Json.referencesIn_array]
    exact List.mem_flatMap.2 ⟨x, hx, ht⟩
  | object ms ih =>
    rw [redirect_object, redirect_object, List.map_congr_left]
    intro m hm
    have hmember : ∀ target, ⟨target, false⟩ ∈ Json.memberReferences false m →
        r.retarget target = r'.retarget target := by
      intro target ht
      refine h target ?_
      rw [Json.referencesIn_object]
      exact List.mem_flatMap.2 ⟨m, hm, ht⟩
    refine Prod.ext rfl ?_
    by_cases hname : m.1 = referenceName
    · simp only [Json.memberReferences, if_pos hname] at hmember
      simp only [redirectMember, if_pos hname]
      cases hv : m.2 with
      | string target =>
        refine congrArg Json.string (hmember target (List.mem_append_left _ ?_))
        rw [hv]
        exact List.mem_singleton_self _
      | _ => rfl
    · simp only [Json.memberReferences, if_neg hname] at hmember
      rw [redirectMember_ne r hname, redirectMember_ne r' hname]
      exact ih m hm hmember
  | _ => rfl

theorem retarget_congr {target : String} (h : ∀ name, target = referenceStart ++ name →
    Entries.get? r name = Entries.get? r' name) : r.retarget target = r'.retarget target := by
  unfold retarget
  cases hs : Service.stripStart? referenceStart target with
  | none => rfl
  | some name => rw [Option.bind_some, Option.bind_some, h name (Service.stripStart?_eq_some_iff.1 hs)]

theorem redirect_eq_of_get? (h : ∀ name, Entries.get? r name = Entries.get? r' name) (j : Json) :
    r.redirect j = r'.redirect j :=
  redirect_congr fun _ _ => retarget_congr fun name _ => h name

theorem exists_reference_of_redirect_ne {j : Json} (h : r.redirect j ≠ r'.redirect j) :
    ∃ name, ⟨referenceStart ++ name, false⟩ ∈ j.references ∧
      Entries.get? r name ≠ Entries.get? r' name := by
  by_contra hnone
  push Not at hnone
  refine h (redirect_congr fun target ht => retarget_congr fun name hname => hnone name ?_)
  rw [← hname]
  exact ht

end Renames

namespace MergeState

open Renames (referenceStart)

variable {service : String} {s : MergeState} {r r' : Renames} {schemas : List (String × Json)}

/-! ## Names that two decisions agree on -/

theorem Forced.renamesOf (h : Forced s service schemas r) : RenamesOf service schemas r where
  declared name hname := by
    obtain ⟨e, he, rfl⟩ := List.mem_map.1 hname
    exact (h.named e he).1
  named name new hnew := (h.named (name, new) (Entries.mem_of_get?_eq_some hnew)).2

theorem RenamesOf.get?_of_mem (h : RenamesOf service schemas r) {name : String}
    (hr : name ∈ Entries.keys r) : Entries.get? r name = some (namespaced service name) := by
  obtain ⟨new, hnew⟩ := Option.isSome_iff_exists.1 ((Entries.get?_isSome_iff r name).2 hr)
  rw [hnew, h.named name new hnew]

theorem RenamesOf.get?_eq {schemas' : List (String × Json)} (h : RenamesOf service schemas r)
    (h' : RenamesOf service schemas' r') {name : String}
    (hnames : name ∈ Entries.keys r ↔ name ∈ Entries.keys r') :
    Entries.get? r name = Entries.get? r' name := by
  by_cases hr : name ∈ Entries.keys r
  · rw [h.get?_of_mem hr, h'.get?_of_mem (hnames.1 hr)]
  · rw [(Entries.get?_eq_none_iff r name).2 hr,
      (Entries.get?_eq_none_iff r' name).2 fun hr' => hr (hnames.2 hr')]

/-- The same schemas are renamed. -/
def SameNames (r r' : Renames) : Prop := ∀ name, name ∈ Entries.keys r ↔ name ∈ Entries.keys r'

/-- The one decision renames the schema, and the other one shares it: the schema under its name refers to another
schema of the source by the new name of that. -/
structure Torn (s : MergeState) (service : String) (r r' : Renames) (m : String × Json) : Prop where
  renamed : m.1 ∈ Entries.keys r
  kept : m.1 ∉ Entries.keys r'
  ahead : ∃ existing name, s.component? schemaKind m.1 = some existing ∧
    existing.same (r'.redirect m.2) = true ∧ name ∈ Entries.keys r' ∧
    ⟨referenceStart ++ name, false⟩ ∈ m.2.references ∧
    ⟨referenceStart ++ namespaced service name, false⟩ ∈ existing.references

/-- A decision follows another one schema by schema until it comes to one that is torn. -/
theorem keys_subset_or_torn {schemas' : List (String × Json)} (hforced : Forced s service schemas r)
    (hof : RenamesOf service schemas' r')
    (hkeeps : ∀ m ∈ schemas, m.1 ∉ Entries.keys r' → Keeps s r' m)
    (hd : ∀ m ∈ schemas, m.2.distinct = true)
    (hstored : ∀ name existing, s.component? schemaKind name = some existing → existing.distinct = true) :
    Entries.keys r ⊆ Entries.keys r' ∨ ∃ m ∈ schemas, Torn s service r r' m := by
  induction hforced with
  | nil => exact .inl (List.nil_subset _)
  | @concat r name value existing hprior hm hnew hexisting hsame ih =>
    rw [Entries.keys_concat]
    obtain hsub | ⟨m, hmem, htorn⟩ := ih
    · by_cases hr' : name ∈ Entries.keys r'
      · exact .inl (List.append_subset.2 ⟨hsub, List.cons_subset.2 ⟨hr', List.nil_subset _⟩⟩)
      refine .inr ⟨(name, value), hm, ?_, hr', ?_⟩
      · rw [Entries.keys_concat]
        exact List.mem_append_right _ (List.mem_singleton_self name)
      have hkept := hkeeps (name, value) hm hr' existing hexisting
      -- the two see different values, so a reference of the schema goes to one that only the other renames
      have hne : r.redirect value ≠ r'.redirect value := by
        intro heq
        rw [heq, hkept] at hsame
        cases hsame
      obtain ⟨other, href, hdiffers⟩ := Renames.exists_reference_of_redirect_ne hne
      have hother : other ∈ Entries.keys r' := by
        by_contra hout
        exact hdiffers (hprior.renamesOf.get?_eq hof (iff_of_false (fun hin => hout (hsub hin)) hout))
      have hmoved : ⟨referenceStart ++ namespaced service other, false⟩ ∈ (r'.redirect value).references := by
        rw [Renames.references_redirect]
        refine List.mem_map.2 ⟨_, href, ?_⟩
        rw [Renames.follow_visible r' rfl, Renames.retarget_of_get? r' (hof.get?_of_mem hother)]
      have hback := Json.same_symm (hstored name existing hexisting)
        (Renames.distinct_redirect r' (hd (name, value) hm)) hkept
      have hahead := Json.referencesIn_subset_of_same hback hmoved
      exact ⟨existing, other, hexisting, hkept, hother, href, hahead⟩
    · refine .inr ⟨m, hmem, ?_, htorn.kept, htorn.ahead⟩
      rw [Entries.keys_concat]
      exact List.mem_append_left _ htorn.renamed

theorem Settles.keeps {t : MergeState} (h : Settles s service schemas t r) :
    ∀ m ∈ schemas, m.1 ∉ Entries.keys r → Keeps s r m := by
  intro m hm hr existing hexisting
  obtain hnone | ⟨stored, hstored, hsame⟩ := h.kept m hm hr
  · rw [hnone] at hexisting
    cases hexisting
  · rw [hstored] at hexisting
    cases hexisting
    exact hsame

/-- Two decisions that hold together, on the same schemas in two orders, rename the same schemas exactly when no
schema is torn. -/
theorem same_names_iff_not_torn {schemas' : List (String × Json)} {t t' : MergeState}
    (hp : schemas.Perm schemas') (h : Settles s service schemas t r) (h' : Settles s service schemas' t' r')
    (hd : ∀ m ∈ schemas, m.2.distinct = true)
    (hstored : ∀ name existing, s.component? schemaKind name = some existing → existing.distinct = true) :
    SameNames r r' ↔ ∀ m ∈ schemas, ¬ Torn s service r r' m ∧ ¬ Torn s service r' r m := by
  constructor
  · intro hnames m _
    exact ⟨fun htorn => htorn.kept ((hnames m.1).1 htorn.renamed),
      fun htorn => htorn.kept ((hnames m.1).2 htorn.renamed)⟩
  intro htorn
  have hd' : ∀ m ∈ schemas', m.2.distinct = true := fun m hm => hd m (hp.mem_iff.2 hm)
  have hsub : Entries.keys r ⊆ Entries.keys r' := by
    have hkeeps : ∀ m ∈ schemas, m.1 ∉ Entries.keys r' → Keeps s r' m :=
      fun m hm => h'.keeps m (hp.mem_iff.1 hm)
    obtain hsub | ⟨m, hm, hm'⟩ := keys_subset_or_torn h.forced h'.forced.renamesOf hkeeps hd hstored
    · exact hsub
    · exact absurd hm' (htorn m hm).1
  have hsub' : Entries.keys r' ⊆ Entries.keys r := by
    have hkeeps : ∀ m ∈ schemas', m.1 ∉ Entries.keys r → Keeps s r m :=
      fun m hm => h.keeps m (hp.mem_iff.2 hm)
    obtain hsub | ⟨m, hm, hm'⟩ := keys_subset_or_torn h'.forced h.forced.renamesOf hkeeps hd' hstored
    · exact hsub
    · exact absurd hm' (htorn m (hp.mem_iff.2 hm)).2
  exact fun name => ⟨fun hr => hsub hr, fun hr => hsub' hr⟩

end MergeState

end ApiDescription
