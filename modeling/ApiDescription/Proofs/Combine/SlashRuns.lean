import ApiDescription.Proofs.Combine.ServicePath
import Mathlib.Data.List.Forall2
import Mathlib.Data.List.Induction
import Mathlib.Data.List.SplitBy

/-!
# Runs of slashes

Collapsing takes exactly the slashes away that stand right behind another one, told by their positions in the whole
text (`collapse_eq_withoutRepeatedSlashes`). Texts that are put behind each other may be collapsed before
(`join_normalize`). A text is cut into its runs of slashes and its other characters, and collapsing leaves the first
character of each part (`map_head?_partsOf`). So two texts have one normal form exactly when they differ in the
lengths of their runs only (`normalize_eq_iff`).
-/

set_option autoImplicit false

namespace ApiDescription.ServicePath

/-! ## The slashes that are taken away -/

/-- The position holds a slash right behind another one. -/
def RepeatsAt (cs : List Char) (i : Nat) : Prop := cs[i]? = some '/' ∧ 0 < i ∧ cs[i - 1]? = some '/'

instance (cs : List Char) (i : Nat) : Decidable (RepeatsAt cs i) :=
  inferInstanceAs (Decidable (cs[i]? = some '/' ∧ 0 < i ∧ cs[i - 1]? = some '/'))

/-- The characters at all other positions. -/
def withoutRepeatedSlashes (cs : List Char) : List Char :=
  (cs.zipIdx.filter fun p => ¬ RepeatsAt cs p.2).map Prod.fst

theorem endsBehind_iff (before : List Char) :
    endsBehind false before = true ↔ 0 < before.length ∧ before[before.length - 1]? = some '/' := by
  induction before using List.reverseRecOn with
  | nil => simp [endsBehind]
  | append_singleton before c _ => simp [endsBehind_concat]

theorem repeatsAt_length_iff (before : List Char) (c : Char) (cs : List Char) :
    RepeatsAt (before ++ c :: cs) before.length ↔ c = '/' ∧ endsBehind false before = true := by
  have hhere : (before ++ c :: cs)[before.length]? = some c := by simp
  have hprevious (hlength : 0 < before.length) :
      (before ++ c :: cs)[before.length - 1]? = before[before.length - 1]? :=
    List.getElem?_append_left (by omega)
  rw [endsBehind_iff, RepeatsAt, hhere, Option.some_inj]
  constructor
  · rintro ⟨hc, hlength, hslash⟩
    exact ⟨hc, hlength, by rwa [← hprevious hlength]⟩
  · rintro ⟨hc, hlength, hslash⟩
    exact ⟨hc, hlength, by rwa [hprevious hlength]⟩

-- the bit says how the text before the position ends, so the induction carries that text along
theorem collapse_behind (before cs : List Char) :
    collapse (endsBehind false before) cs =
      ((cs.zipIdx before.length).filter fun p => ¬ RepeatsAt (before ++ cs) p.2).map Prod.fst := by
  induction cs generalizing before with
  | nil => rfl
  | cons c cs ih =>
    have hrest := ih (before ++ [c])
    rw [endsBehind_concat, List.length_append, List.length_singleton, List.append_assoc,
      List.singleton_append] at hrest
    have hhere := repeatsAt_length_iff before c cs
    rw [List.zipIdx_cons, List.filter_cons]
    by_cases hc : c = '/'
    · subst hc
      rw [beq_self_eq_true] at hrest
      cases hends : endsBehind false before <;> simp [collapse, hhere, hends, hrest]
    · rw [beq_eq_false_iff_ne.2 hc] at hrest
      rw [collapse_cons_of_ne hc, hrest]
      simp [hhere, hc]

theorem collapse_eq_withoutRepeatedSlashes (cs : List Char) : collapse false cs = withoutRepeatedSlashes cs :=
  collapse_behind [] cs

/-! ## Joining collapsed texts -/

theorem normalize_normalize_append (a b : String) : normalize (normalize a ++ b) = normalize (a ++ b) := by
  apply String.toList_injective
  simp only [toList_normalize, String.toList_append, collapse_append, collapse_collapse, endsBehind_collapse]

theorem normalize_append_normalize (a b : String) : normalize (a ++ normalize b) = normalize (a ++ b) := by
  apply String.toList_injective
  simp only [toList_normalize, String.toList_append, collapse_append, collapse_collapse_false]

theorem join_normalize (a b c : String) : join (normalize a) (normalize b) (normalize c) = join a b c := by
  have hfront : normalize (normalize a ++ normalize b) = normalize (a ++ b) := by
    rw [normalize_append_normalize, normalize_normalize_append]
  calc normalize (normalize a ++ normalize b ++ normalize c)
      = normalize (normalize a ++ normalize b ++ c) := normalize_append_normalize _ c
    _ = normalize (normalize (normalize a ++ normalize b) ++ c) := (normalize_normalize_append _ c).symm
    _ = normalize (normalize (a ++ b) ++ c) := by rw [hfront]
    _ = normalize (a ++ b ++ c) := normalize_normalize_append _ c

/-! ## Parts of a text -/

/-- The text cut between all characters that are not both slashes: each run of slashes is one part, and each other
character is one. -/
def partsOf (cs : List Char) : List (List Char) := cs.splitBy fun c d => c == '/' && d == '/'

def SlashRun (part : List Char) : Prop := part ≠ [] ∧ ∀ c ∈ part, c = '/'

-- the characters of the part are gone through, not all characters there are
instance (part : List Char) : Decidable (SlashRun part) :=
  letI : Decidable (∀ c ∈ part, c = '/') := List.decidableBAll (· = '/') part
  inferInstanceAs (Decidable (part ≠ [] ∧ ∀ c ∈ part, c = '/'))

def IsPart (part : List Char) : Prop := SlashRun part ∨ ∃ c, c ≠ '/' ∧ part = [c]

theorem slashes_of_isChain {cs : List Char}
    (h : ('/' :: cs).IsChain fun c d => (c == '/' && d == '/') = true) : ∀ c ∈ cs, c = '/' := by
  induction cs with
  | nil => simp
  | cons c cs ih =>
    obtain ⟨hlink, hrest⟩ := List.isChain_cons_cons.1 h
    obtain rfl : c = '/' := by simpa using hlink
    exact List.forall_mem_cons.2 ⟨rfl, ih hrest⟩

theorem isPart_of_mem_partsOf {part cs : List Char} (h : part ∈ partsOf cs) : IsPart part := by
  have hne := List.ne_nil_of_mem_splitBy h
  have hchain := List.isChain_of_mem_splitBy h
  cases part with
  | nil => exact absurd rfl hne
  | cons c rest =>
    by_cases hc : c = '/'
    · subst hc
      exact .inl ⟨hne, List.forall_mem_cons.2 ⟨rfl, slashes_of_isChain hchain⟩⟩
    · cases rest with
      | nil => exact .inr ⟨c, hc, rfl⟩
      | cons d rest =>
        have hlink := (List.isChain_cons_cons.1 hchain).1
        simp [hc] at hlink

theorem runs_apart (cs : List Char) :
    (partsOf cs).IsChain fun part next => ¬ (SlashRun part ∧ SlashRun next) := by
  apply (List.isChain_getLast_head_splitBy _ cs).imp
  rintro part next ⟨hpart, hnext, hcut⟩ ⟨hrun, hrunNext⟩
  have hlast := hrun.2 _ (List.getLast_mem hpart)
  have hhead := hrunNext.2 _ (List.head_mem hnext)
  simp [hlast, hhead] at hcut

theorem SlashRun.head?_eq {part : List Char} (h : SlashRun part) : part.head? = some '/' := by
  obtain ⟨hne, hslashes⟩ := h
  rw [List.head?_eq_some_head hne, hslashes _ (List.head_mem hne)]

theorem collapse_slashes {cs : List Char} (h : ∀ c ∈ cs, c = '/') :
    collapse true cs = [] ∧ endsBehind true cs = true := by
  induction cs with
  | nil => exact ⟨rfl, rfl⟩
  | cons c cs ih =>
    obtain ⟨rfl, hcs⟩ := List.forall_mem_cons.1 h
    simpa [collapse, endsBehind] using ih hcs

theorem SlashRun.collapse_eq {part : List Char} (h : SlashRun part) :
    collapse false part = ['/'] ∧ endsBehind false part = true := by
  obtain ⟨hne, hslashes⟩ := h
  cases part with
  | nil => exact absurd rfl hne
  | cons c rest =>
    obtain ⟨rfl, hrest⟩ := List.forall_mem_cons.1 hslashes
    simpa [collapse, endsBehind] using collapse_slashes hrest

-- no two runs touch, so the bit is never set where a run begins
theorem map_head?_parts {parts : List (List Char)} {behindSlash : Bool} (hparts : ∀ part ∈ parts, IsPart part)
    (hapart : parts.IsChain fun part next => ¬ (SlashRun part ∧ SlashRun next))
    (hbehind : behindSlash = true → ∀ part ∈ parts.head?, ¬ SlashRun part) :
    parts.map List.head? = (collapse behindSlash parts.flatten).map some := by
  induction parts generalizing behindSlash with
  | nil => rfl
  | cons part parts ih =>
    obtain ⟨hpart, hrest⟩ := List.forall_mem_cons.1 hparts
    obtain ⟨hnext, hapartRest⟩ := List.isChain_cons.1 hapart
    rw [List.map_cons, List.flatten_cons, collapse_append, List.map_append]
    rcases hpart with hrun | ⟨c, hc, rfl⟩
    · obtain rfl : behindSlash = false := by
        by_contra hset
        exact hbehind (by simpa using hset) part rfl hrun
      obtain ⟨hone, hends⟩ := hrun.collapse_eq
      have htail : parts.map List.head? = (collapse true parts.flatten).map some :=
        ih hrest hapartRest fun _ next hmem hrunNext => hnext next hmem ⟨hrun, hrunNext⟩
      rw [hrun.head?_eq, hone, hends, htail]
      rfl
    · have htail : parts.map List.head? = (collapse false parts.flatten).map some :=
        ih hrest hapartRest fun hset => nomatch hset
      rw [collapse_cons_of_ne hc, endsBehind_cons_of_ne hc, htail]
      rfl

theorem map_head?_partsOf (cs : List Char) : (partsOf cs).map List.head? = (collapse false cs).map some := by
  have hparts : (partsOf cs).map List.head? = (collapse false (partsOf cs).flatten).map some :=
    map_head?_parts (fun _ => isPart_of_mem_partsOf) (runs_apart cs) fun hset => nomatch hset
  rwa [partsOf, List.flatten_splitBy] at hparts

/-! ## Texts with one normal form -/

def SameUpToLength (part other : List Char) : Prop := part = other ∨ SlashRun part ∧ SlashRun other

instance (part other : List Char) : Decidable (SameUpToLength part other) :=
  inferInstanceAs (Decidable (part = other ∨ SlashRun part ∧ SlashRun other))

/-- The texts have the same parts in the same order, but for the lengths of their runs of slashes. -/
def SameUpToRuns (cs ds : List Char) : Prop := List.Forall₂ SameUpToLength (partsOf cs) (partsOf ds)

instance (cs ds : List Char) : Decidable (SameUpToRuns cs ds) :=
  inferInstanceAs (Decidable (List.Forall₂ SameUpToLength (partsOf cs) (partsOf ds)))

theorem IsPart.head?_eq_iff {part other : List Char} (hpart : IsPart part) (hother : IsPart other) :
    part.head? = other.head? ↔ SameUpToLength part other := by
  constructor
  · intro hhead
    rcases hpart with hrun | ⟨c, hc, rfl⟩ <;> rcases hother with hrunOther | ⟨d, hd, rfl⟩
    · exact .inr ⟨hrun, hrunOther⟩
    · rw [hrun.head?_eq] at hhead
      exact absurd (Option.some_inj.1 hhead).symm hd
    · rw [hrunOther.head?_eq] at hhead
      exact absurd (Option.some_inj.1 hhead) hc
    · left
      rw [Option.some_inj.1 hhead]
  · rintro (rfl | ⟨hrun, hrunOther⟩)
    · rfl
    · rw [hrun.head?_eq, hrunOther.head?_eq]

theorem map_head?_eq_iff {parts others : List (List Char)} (hparts : ∀ part ∈ parts, IsPart part)
    (hothers : ∀ part ∈ others, IsPart part) :
    parts.map List.head? = others.map List.head? ↔ List.Forall₂ SameUpToLength parts others := by
  induction parts generalizing others with
  | nil => simp
  | cons part parts ih =>
    cases others with
    | nil => simp
    | cons other others =>
      obtain ⟨hpart, hrest⟩ := List.forall_mem_cons.1 hparts
      obtain ⟨hother, hrestOthers⟩ := List.forall_mem_cons.1 hothers
      rw [List.map_cons, List.map_cons, List.cons.injEq, List.forall₂_cons, hpart.head?_eq_iff hother,
        ih hrest hrestOthers]

theorem normalize_eq_iff (a b : String) : normalize a = normalize b ↔ SameUpToRuns a.toList b.toList := by
  calc normalize a = normalize b
      ↔ collapse false a.toList = collapse false b.toList := by
        rw [← String.toList_inj, toList_normalize, toList_normalize]
    _ ↔ (partsOf a.toList).map List.head? = (partsOf b.toList).map List.head? := by
        rw [map_head?_partsOf, map_head?_partsOf, List.map_inj_right fun _ _ => Option.some_inj.1]
    _ ↔ SameUpToRuns a.toList b.toList :=
        map_head?_eq_iff (fun _ => isPart_of_mem_partsOf) (fun _ => isPart_of_mem_partsOf)

-- a run of length zero is no run
example : SameUpToRuns "//api///v1".toList "/api/v1".toList ∧ ¬ SameUpToRuns "/api/".toList "/api".toList := by
  decide

/-- Normalizing takes exactly the slashes away that stand right behind another one. So nothing is left to take away,
the normal form is shared by exactly the texts that differ in the lengths of their runs only, and the parts of a path
may be normalized before they are joined. -/
theorem normalize_composes (a b c : String) :
    (normalize a).toList = withoutRepeatedSlashes a.toList ∧
      ¬ ['/', '/'] <:+: (normalize a).toList ∧
      normalize (normalize a) = normalize a ∧
      (normalize a = normalize b ↔ SameUpToRuns a.toList b.toList) ∧
      join a b c = join (normalize a) (normalize b) (normalize c) := by
  refine ⟨?_, ?_, normalize_normalize a, normalize_eq_iff a b, (join_normalize a b c).symm⟩
  · rw [toList_normalize, collapse_eq_withoutRepeatedSlashes]
  · rw [toList_normalize]
    exact not_infix_of_noRuns (noRuns_collapse false a.toList)

-- the runs go across both joins
example : join "/api//" "/v1/" "//users" = "/api/v1/users" := by decide

end ApiDescription.ServicePath
