import ApiDescription.Combine.ServicePath

/-!
# Paths without runs of slashes

A text in which no slash stands right behind another one is a fixed point of `normalize`, and `normalize`
turns every text into such a one. So a path that was normalized once stays as it is
(`normalize_normalize`). Collapsing goes through a text with one bit, whether it stands behind a slash, and
so can be done part by part (`collapse_append`).
-/

set_option autoImplicit false

namespace ApiDescription.ServicePath

/-- No slash stands right behind another one, where the first argument says whether the text itself stands
behind one. -/
def NoRuns : Bool → List Char → Prop
  | _, [] => True
  | behindSlash, c :: cs => if c = '/' then behindSlash = false ∧ NoRuns true cs else NoRuns false cs

theorem noRuns_collapse (behindSlash : Bool) (cs : List Char) :
    NoRuns behindSlash (collapse behindSlash cs) := by
  induction cs generalizing behindSlash with
  | nil => trivial
  | cons c cs ih =>
    by_cases hc : c = '/'
    · cases behindSlash with
      | true => simpa [collapse, hc] using ih true
      | false => simpa [collapse, NoRuns, hc] using ih true
    · simpa [collapse, NoRuns, hc] using ih false

theorem collapse_of_noRuns {behindSlash : Bool} {cs : List Char} (h : NoRuns behindSlash cs) :
    collapse behindSlash cs = cs := by
  induction cs generalizing behindSlash with
  | nil => rfl
  | cons c cs ih =>
    by_cases hc : c = '/'
    · rw [NoRuns, if_pos hc] at h
      obtain ⟨hbehind, hrest⟩ := h
      rw [collapse, if_pos hc, hbehind, if_neg (by simp), ih hrest]
    · rw [NoRuns, if_neg hc] at h
      rw [collapse, if_neg hc, ih h]

theorem noRuns_of_noRuns_true {cs : List Char} (h : NoRuns true cs) : NoRuns false cs := by
  cases cs with
  | nil => trivial
  | cons c cs =>
    by_cases hc : c = '/'
    · simp [NoRuns, hc] at h
    · simpa [NoRuns, hc] using h

theorem not_infix_of_noRuns {cs : List Char} (h : NoRuns false cs) : ¬ ['/', '/'] <:+: cs := by
  induction cs with
  | nil => simp
  | cons c cs ih =>
    rw [List.infix_cons_iff, not_or]
    by_cases hc : c = '/'
    · subst hc
      have hrest : NoRuns true cs := by simpa [NoRuns] using h
      refine ⟨?_, ih (noRuns_of_noRuns_true hrest)⟩
      rintro ⟨rest, hsplit⟩
      obtain rfl : '/' :: rest = cs := by simpa using hsplit
      simp [NoRuns] at hrest
    · refine ⟨?_, ih (by simpa [NoRuns, hc] using h)⟩
      rintro ⟨rest, hsplit⟩
      exact hc (by simpa [eq_comm] using (List.cons.inj hsplit).1)

/-! ## Normal forms -/

theorem collapse_collapse (behindSlash : Bool) (cs : List Char) :
    collapse behindSlash (collapse behindSlash cs) = collapse behindSlash cs :=
  collapse_of_noRuns (noRuns_collapse behindSlash cs)

theorem toList_normalize (path : String) : (normalize path).toList = collapse false path.toList :=
  String.toList_ofList

theorem normalize_normalize (path : String) : normalize (normalize path) = normalize path := by
  rw [normalize, toList_normalize, collapse_collapse, normalize]

theorem join_empty (path : String) : join "" "" path = normalize path := by
  rw [join, String.append_empty, String.empty_append]

/-! ## Collapsing in parts -/

/-- The text ends with a slash, where the first argument says so of the text before it. -/
def endsBehind : Bool → List Char → Bool
  | behindSlash, [] => behindSlash
  | _, c :: cs => endsBehind (c == '/') cs

theorem collapse_cons_of_ne {c : Char} (hc : c ≠ '/') (behindSlash : Bool) (cs : List Char) :
    collapse behindSlash (c :: cs) = c :: collapse false cs := by
  rw [collapse, if_neg hc]

theorem endsBehind_cons_of_ne {c : Char} (hc : c ≠ '/') (behindSlash : Bool) (cs : List Char) :
    endsBehind behindSlash (c :: cs) = endsBehind false cs := by
  rw [endsBehind, beq_eq_false_iff_ne.2 hc]

theorem collapse_append (behindSlash : Bool) (xs ys : List Char) :
    collapse behindSlash (xs ++ ys) = collapse behindSlash xs ++ collapse (endsBehind behindSlash xs) ys := by
  induction xs generalizing behindSlash with
  | nil => rfl
  | cons c cs ih =>
    rw [List.cons_append]
    by_cases hc : c = '/'
    · subst hc
      cases behindSlash <;> simp [collapse, endsBehind, ih]
    · rw [collapse_cons_of_ne hc, collapse_cons_of_ne hc, endsBehind_cons_of_ne hc, ih, List.cons_append]

theorem endsBehind_concat (behindSlash : Bool) (xs : List Char) (c : Char) :
    endsBehind behindSlash (xs ++ [c]) = (c == '/') := by
  induction xs generalizing behindSlash with
  | nil => rfl
  | cons x xs ih => exact ih (x == '/')

theorem head?_collapse (cs : List Char) : (collapse false cs).head? = cs.head? := by
  cases cs with
  | nil => rfl
  | cons c cs => by_cases hc : c = '/' <;> simp [collapse, hc]

theorem mem_of_mem_collapse {behindSlash : Bool} {c : Char} {cs : List Char}
    (h : c ∈ collapse behindSlash cs) : c ∈ cs := by
  induction cs generalizing behindSlash with
  | nil => exact h
  | cons x xs ih =>
    have hcons {rest : Bool} (h : c ∈ x :: collapse rest xs) : c ∈ x :: xs := by
      rcases List.mem_cons.1 h with rfl | h
      · exact List.mem_cons_self
      · exact List.mem_cons_of_mem x (ih h)
    unfold collapse at h
    split at h
    · split at h
      · exact List.mem_cons_of_mem x (ih h)
      · exact hcons h
    · exact hcons h

theorem collapse_of_slashFree {cs : List Char} (h : '/' ∉ cs) (behindSlash : Bool) :
    collapse behindSlash cs = cs := by
  induction cs generalizing behindSlash with
  | nil => rfl
  | cons c cs ih =>
    obtain ⟨hc, hcs⟩ : '/' ≠ c ∧ '/' ∉ cs := by simpa using h
    rw [collapse_cons_of_ne hc.symm, ih hcs]

/-- Behind a slash, a text that was collapsed on its own only has the slash at its start to lose. -/
theorem collapse_collapse_false (behindSlash : Bool) (cs : List Char) :
    collapse behindSlash (collapse false cs) = collapse behindSlash cs := by
  cases cs with
  | nil => rfl
  | cons c cs =>
    by_cases hc : c = '/'
    · subst hc
      cases behindSlash <;> simp [collapse, collapse_collapse]
    · simp only [collapse_cons_of_ne hc, collapse_collapse]

theorem endsBehind_collapse (behindSlash : Bool) (cs : List Char) :
    endsBehind behindSlash (collapse behindSlash cs) = endsBehind behindSlash cs := by
  induction cs generalizing behindSlash with
  | nil => rfl
  | cons c cs ih =>
    by_cases hc : c = '/'
    · subst hc
      cases behindSlash <;> simpa [collapse, endsBehind] using ih true
    · rw [collapse_cons_of_ne hc, endsBehind_cons_of_ne hc, endsBehind_cons_of_ne hc, ih]

end ApiDescription.ServicePath
