import ApiDescription.Operation.PathTemplate
import Mathlib.Data.List.Nodup

/-!
# The grammar of path templates

A template is a text with pieces behind it, each of them a name between braces and a text. The reader of
placeholders takes exactly the written templates whose names differ from each other, and gives their names in
order (`placeholders_ok_iff`). The names of a template are its parameters (`IsTemplate.parameters_eq`).
-/

set_option autoImplicit false

namespace ApiDescription.PathTemplate

/-- A placeholder and the text behind it. -/
structure Piece where
  name : List Char
  literal : List Char

/-- The written piece. -/
def Piece.written (p : Piece) : List Char := '{' :: p.name ++ '}' :: p.literal

/-- The text holds no brace. -/
def BraceFree (text : List Char) : Prop := '{' ∉ text ∧ '}' ∉ text

/-- The name is not empty and holds neither a brace nor a slash, and the text behind it holds no brace. -/
structure Piece.WellFormed (p : Piece) : Prop where
  nonempty : p.name ≠ []
  braceFree : BraceFree p.name
  slashFree : '/' ∉ p.name
  literal : BraceFree p.literal

/-- The names of the pieces. -/
def names (ps : List Piece) : List String := ps.map fun p => String.ofList p.name

theorem braceFree_cons_iff {c : Char} {text : List Char} :
    BraceFree (c :: text) ↔ (c ≠ '{' ∧ c ≠ '}') ∧ BraceFree text := by
  simp only [BraceFree, List.mem_cons, not_or]
  tauto

/-! ## What is written is read -/

theorem readLiteral_append {first : List Char} (h : BraceFree first) (before : List String) (rest : List Char) :
    readLiteral before (first ++ rest) = readLiteral before rest := by
  induction first with
  | nil => rfl
  | cons c cs ih =>
    obtain ⟨⟨hopen, hclose⟩, hcs⟩ := braceFree_cons_iff.1 h
    rw [List.cons_append, readLiteral, if_neg hopen, if_neg hclose]
    exact ih hcs

theorem readName_append {text : List Char} (h : BraceFree text) (hslash : '/' ∉ text) (before : List String)
    (start rest : List Char) : readName before start (text ++ rest) = readName before (start ++ text) rest := by
  induction text generalizing start with
  | nil => rw [List.nil_append, List.append_nil]
  | cons c cs ih =>
    obtain ⟨⟨hopen, hclose⟩, hcs⟩ := braceFree_cons_iff.1 h
    obtain ⟨hc, hslash⟩ : c ≠ '/' ∧ '/' ∉ cs := by simpa [eq_comm] using hslash
    rw [List.cons_append, readName, if_neg hopen, if_neg hc, if_neg hclose, ih hcs hslash]
    simp

theorem readLiteral_written (before : List String) {ps : List Piece} (hps : ∀ p ∈ ps, p.WellFormed)
    (h : (before ++ names ps).Nodup) :
    readLiteral before (ps.flatMap Piece.written) = .ok (before ++ names ps) := by
  induction ps generalizing before with
  | nil => simp [readLiteral, names]
  | cons p ps ih =>
    have hp := hps p List.mem_cons_self
    have hnew : String.ofList p.name ∉ before := by
      intro hmem
      exact List.disjoint_of_nodup_append h hmem (by simp [names])
    have hrest : (before ++ [String.ofList p.name] ++ names ps).Nodup := by simpa [names] using h
    calc readLiteral before ((p :: ps).flatMap Piece.written)
        = readName before [] (p.name ++ '}' :: (p.literal ++ ps.flatMap Piece.written)) := by
          simp [Piece.written, readLiteral]
      _ = readName before p.name ('}' :: (p.literal ++ ps.flatMap Piece.written)) :=
          readName_append hp.braceFree hp.slashFree before [] _
      _ = readLiteral (before ++ [String.ofList p.name]) (p.literal ++ ps.flatMap Piece.written) := by
          simp [readName, hp.nonempty, hnew]
      _ = readLiteral (before ++ [String.ofList p.name]) (ps.flatMap Piece.written) :=
          readLiteral_append hp.literal _ _
      _ = .ok (before ++ [String.ofList p.name] ++ names ps) :=
          ih _ (fun q hq => hps q (List.mem_cons_of_mem p hq)) hrest
      _ = .ok (before ++ names (p :: ps)) := by simp [names]

/-! ## What is read was written -/

/-- The text begins between placeholders, and its names are new. -/
def ReadsLiteral (before : List String) (cs : List Char) (read : List String) : Prop :=
  ∃ first ps, cs = first ++ ps.flatMap Piece.written ∧ BraceFree first ∧ (∀ p ∈ ps, p.WellFormed) ∧
    read = before ++ names ps ∧ (before.Nodup → read.Nodup)

/-- The text begins inside a placeholder, behind the start of its name. -/
def ReadsName (before : List String) (start cs : List Char) (read : List String) : Prop :=
  ∃ text rest, cs = text ++ '}' :: rest ∧ BraceFree text ∧ '/' ∉ text ∧ start ++ text ≠ [] ∧
    String.ofList (start ++ text) ∉ before ∧ ReadsLiteral (before ++ [String.ofList (start ++ text)]) rest read

theorem ReadsLiteral.cons {before : List String} {c : Char} {cs : List Char} {read : List String}
    (hopen : c ≠ '{') (hclose : c ≠ '}') (h : ReadsLiteral before cs read) :
    ReadsLiteral before (c :: cs) read := by
  obtain ⟨first, ps, rfl, hfirst, hrest⟩ := h
  exact ⟨c :: first, ps, rfl, braceFree_cons_iff.2 ⟨⟨hopen, hclose⟩, hfirst⟩, hrest⟩

theorem ReadsLiteral.brace {before : List String} {cs : List Char} {read : List String}
    (h : ReadsName before [] cs read) : ReadsLiteral before ('{' :: cs) read := by
  obtain ⟨text, rest, rfl, htext, hslash, hne, hnew, first, ps, rfl, hfirst, hps, rfl, hnodup⟩ := h
  rw [List.nil_append] at hne hnew hnodup ⊢
  refine ⟨[], ⟨text, first⟩ :: ps, by simp [Piece.written], by simp [BraceFree], ?_, by simp [names], ?_⟩
  · intro p hp
    rcases List.mem_cons.1 hp with rfl | hp
    · exact ⟨hne, htext, hslash, hfirst⟩
    · exact hps p hp
  · intro hbefore
    have hdistinct : ∀ name ∈ before, name ≠ String.ofList text := by
      rintro name hname rfl
      exact hnew hname
    exact hnodup (by simpa [List.nodup_append, hbefore] using hdistinct)

theorem ReadsName.cons {before : List String} {start : List Char} {c : Char} {cs : List Char}
    {read : List String} (hopen : c ≠ '{') (hclose : c ≠ '}') (hslash : c ≠ '/')
    (h : ReadsName before (start ++ [c]) cs read) : ReadsName before start (c :: cs) read := by
  obtain ⟨text, rest, rfl, htext, htextSlash, hne, hnew, hrest⟩ := h
  have hstart : start ++ c :: text = start ++ [c] ++ text := by simp
  refine ⟨c :: text, rest, rfl, braceFree_cons_iff.2 ⟨⟨hopen, hclose⟩, htext⟩, ?_, ?_⟩
  · simp [htextSlash, hslash.symm]
  · rw [hstart]
    exact ⟨hne, hnew, hrest⟩

-- both readers at once: each goes on as the other one at a brace
theorem reads (cs : List Char) :
    (∀ before read, readLiteral before cs = .ok read → ReadsLiteral before cs read) ∧
      ∀ before start read, readName before start cs = .ok read → ReadsName before start cs read := by
  induction cs with
  | nil =>
    refine ⟨fun before read h => ?_, fun before start read h => ?_⟩
    · rw [readLiteral] at h
      cases h
      exact ⟨[], [], rfl, by simp [BraceFree], by simp, by simp [names], id⟩
    · rw [readName] at h
      nomatch h
  | cons c cs ih =>
    obtain ⟨ihLiteral, ihName⟩ := ih
    refine ⟨fun before read h => ?_, fun before start read h => ?_⟩
    · rw [readLiteral] at h
      by_cases hopen : c = '{'
      · rw [if_pos hopen] at h
        exact hopen ▸ .brace (ihName before [] read h)
      · by_cases hclose : c = '}'
        · rw [if_neg hopen, if_pos hclose] at h
          nomatch h
        · rw [if_neg hopen, if_neg hclose] at h
          exact .cons hopen hclose (ihLiteral before read h)
    · rw [readName] at h
      split at h
      · nomatch h
      · next hopen =>
        split at h
        · nomatch h
        · next hslash =>
          split at h
          · next hclose =>
            split at h
            · nomatch h
            · next hstart =>
              split at h
              · nomatch h
              · next hnew =>
                refine ⟨[], cs, by simp [hclose], by simp [BraceFree], by simp, ?_⟩
                rw [List.append_nil]
                exact ⟨by simpa using hstart, by simpa using hnew, ihLiteral _ read h⟩
          · next hclose => exact .cons hopen hclose hslash (ihName before _ read h)

/-! ## Paths -/

/-- The path begins with a slash, and is a written template with distinct names, which are the given ones. -/
def IsTemplate (path : String) (read : List String) : Prop :=
  ∃ first ps, path.toList = first ++ ps.flatMap Piece.written ∧ first.head? = some '/' ∧ BraceFree first ∧
    (∀ p ∈ ps, p.WellFormed) ∧ read = names ps ∧ read.Nodup

theorem IsTemplate.nodup {path : String} {read : List String} (h : IsTemplate path read) : read.Nodup := by
  obtain ⟨first, ps, -, -, -, -, -, hnodup⟩ := h
  exact hnodup

/-- The reader takes exactly the templates, and gives their names. -/
theorem placeholders_ok_iff (path : String) (read : List String) :
    placeholders path = .ok read ↔ IsTemplate path read := by
  unfold placeholders
  constructor
  · intro h
    split at h
    · nomatch h
    · next c cs hpath =>
      split at h
      · next hslash =>
        obtain ⟨first, ps, rfl, hfirst, hps, rfl, hnodup⟩ := (reads cs).1 [] read h
        refine ⟨c :: first, ps, hpath, by simp [hslash], braceFree_cons_iff.2 ⟨by simp [hslash], hfirst⟩, hps,
          rfl, hnodup List.nodup_nil⟩
      · nomatch h
  · rintro ⟨first, ps, hpath, hhead, hfirst, hps, rfl, hnodup⟩
    cases first with
    | nil => nomatch hhead
    | cons c first =>
      cases hhead
      rw [hpath]
      have hliteral := readLiteral_append (braceFree_cons_iff.1 hfirst).2 [] (ps.flatMap Piece.written)
      simpa [hliteral] using readLiteral_written [] hps (by simpa using hnodup)

/-! ## Parameters -/

theorem bracedTexts_append {text : List Char} (h : BraceFree text) (rest : List Char) :
    bracedTexts (text ++ rest) = bracedTexts rest := by
  induction text with
  | nil => rfl
  | cons c cs ih =>
    obtain ⟨⟨hopen, -⟩, hcs⟩ := braceFree_cons_iff.1 h
    rw [List.cons_append, bracedTexts, if_neg hopen]
    exact ih hcs

theorem bracedTextsFrom_append {text : List Char} (h : BraceFree text) (start rest : List Char) :
    bracedTextsFrom start (text ++ '}' :: rest) = String.ofList (start ++ text) :: bracedTexts rest := by
  induction text generalizing start with
  | nil => rw [List.nil_append, bracedTextsFrom, if_pos rfl, List.append_nil]
  | cons c cs ih =>
    obtain ⟨⟨-, hclose⟩, hcs⟩ := braceFree_cons_iff.1 h
    rw [List.cons_append, bracedTextsFrom, if_neg hclose, ih hcs]
    simp

theorem bracedTexts_written {ps : List Piece} (hps : ∀ p ∈ ps, p.WellFormed) :
    bracedTexts (ps.flatMap Piece.written) = names ps := by
  induction ps with
  | nil => rfl
  | cons p ps ih =>
    have hp := hps p List.mem_cons_self
    calc bracedTexts ((p :: ps).flatMap Piece.written)
        = bracedTextsFrom [] (p.name ++ '}' :: (p.literal ++ ps.flatMap Piece.written)) := by
          simp [Piece.written, bracedTexts]
      _ = String.ofList p.name :: bracedTexts (p.literal ++ ps.flatMap Piece.written) :=
          bracedTextsFrom_append hp.braceFree [] _
      _ = String.ofList p.name :: bracedTexts (ps.flatMap Piece.written) := by
          rw [bracedTexts_append hp.literal]
      _ = names (p :: ps) := by
          rw [ih fun q hq => hps q (List.mem_cons_of_mem p hq)]
          rfl

/-- The parameters of a template are the names of its placeholders. -/
theorem IsTemplate.parameters_eq {path : String} {read : List String} (h : IsTemplate path read) :
    parameters path = read := by
  obtain ⟨first, ps, hpath, -, hfirst, hps, rfl, -⟩ := h
  rw [parameters, hpath, bracedTexts_append hfirst, bracedTexts_written hps]

end ApiDescription.PathTemplate
