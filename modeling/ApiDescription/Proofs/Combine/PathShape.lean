import ApiDescription.Proofs.Combine.Paths
import ApiDescription.Proofs.Combine.ServicePath
import ApiDescription.Proofs.Operation.PathTemplate

/-!
# What joining does to a path

Collapsing keeps the first character, and a text between braces only loses slashes of its own
(`bracedTexts_collapse`). So a template behind a text without braces that is empty or begins with a slash is a
template with the same names (`IsTemplate.join`). Every path of a combined document is joined so, but nothing makes
the texts in front of it begin with a slash (`combine_joins_paths`).
-/

set_option autoImplicit false

namespace ApiDescription

namespace PathTemplate

open ServicePath

/-! ## Texts between braces -/

-- both readers at once: the second one has read a start, which is collapsed up to where it ends
theorem bracedTexts_collapse_aux (cs : List Char) :
    (∀ behindSlash, bracedTexts (collapse behindSlash cs) = (bracedTexts cs).map ServicePath.normalize) ∧
      ∀ start, bracedTextsFrom (collapse false start) (collapse (endsBehind false start) cs) =
        (bracedTextsFrom start cs).map ServicePath.normalize := by
  induction cs with
  | nil => exact ⟨fun _ => rfl, fun _ => rfl⟩
  | cons c cs ih =>
    obtain ⟨ihTexts, ihFrom⟩ := ih
    constructor
    · intro behindSlash
      by_cases hslash : c = '/'
      · subst hslash
        cases behindSlash <;> simp [collapse, bracedTexts, ihTexts]
      · rw [collapse_cons_of_ne hslash, bracedTexts, bracedTexts]
        by_cases hopen : c = '{'
        · rw [if_pos hopen, if_pos hopen]
          exact ihFrom []
        · rw [if_neg hopen, if_neg hopen, ihTexts]
    · intro start
      by_cases hclose : c = '}'
      · subst hclose
        rw [collapse_cons_of_ne (by decide), bracedTextsFrom, bracedTextsFrom, if_pos rfl, if_pos rfl, List.map_cons,
          ihTexts, ServicePath.normalize, String.toList_ofList]
      · -- the start grows by the character, or by nothing when it is a slash behind another one
        have hgrow := ihFrom (start ++ [c])
        rw [collapse_append, endsBehind_concat] at hgrow
        rw [bracedTextsFrom, if_neg hclose, ← hgrow]
        by_cases hslash : c = '/'
        · subst hslash
          cases endsBehind false start <;> simp [collapse, bracedTextsFrom]
        · have hbeq : (c == '/') = false := beq_eq_false_iff_ne.2 hslash
          rw [collapse_cons_of_ne hslash, bracedTextsFrom, if_neg hclose, hbeq]
          simp [collapse, hslash]

/-- The texts between braces lose their runs of slashes, and no text comes or goes. -/
theorem bracedTexts_collapse (behindSlash : Bool) (cs : List Char) :
    bracedTexts (collapse behindSlash cs) = (bracedTexts cs).map ServicePath.normalize :=
  (bracedTexts_collapse_aux cs).1 behindSlash

/-! ## Templates -/

def Piece.collapsed (p : Piece) : Piece := { p with literal := collapse false p.literal }

theorem BraceFree.collapse {text : List Char} (h : BraceFree text) (behindSlash : Bool) :
    BraceFree (collapse behindSlash text) :=
  ⟨fun hmem => h.1 (mem_of_mem_collapse hmem), fun hmem => h.2 (mem_of_mem_collapse hmem)⟩

theorem BraceFree.append {text rest : List Char} (h : BraceFree text) (hrest : BraceFree rest) :
    BraceFree (text ++ rest) := by
  constructor
  · rw [List.mem_append, not_or]
    exact ⟨h.1, hrest.1⟩
  · rw [List.mem_append, not_or]
    exact ⟨h.2, hrest.2⟩

theorem Piece.WellFormed.collapsed {p : Piece} (h : p.WellFormed) : p.collapsed.WellFormed where
  nonempty := h.nonempty
  braceFree := h.braceFree
  slashFree := h.slashFree
  literal := h.literal.collapse false

theorem collapse_written {p : Piece} (h : p.WellFormed) (behindSlash : Bool) (rest : List Char) :
    collapse behindSlash (p.written ++ rest) =
      p.collapsed.written ++ collapse (endsBehind false p.literal) rest := by
  have hsplit : p.written ++ rest = '{' :: (p.name ++ '}' :: (p.literal ++ rest)) := by simp [Piece.written]
  rw [hsplit, collapse_cons_of_ne (by decide), collapse_append, collapse_of_slashFree h.slashFree,
    collapse_cons_of_ne (by decide), collapse_append]
  simp [Piece.written, Piece.collapsed]

theorem collapse_flatMap_written {ps : List Piece} (hps : ∀ p ∈ ps, p.WellFormed) (behindSlash : Bool) :
    collapse behindSlash (ps.flatMap Piece.written) = (ps.map Piece.collapsed).flatMap Piece.written := by
  induction ps generalizing behindSlash with
  | nil => rfl
  | cons p ps ih =>
    obtain ⟨hp, hps⟩ := List.forall_mem_cons.1 hps
    rw [List.flatMap_cons, collapse_written hp, ih hps, List.map_cons, List.flatMap_cons]

theorem IsTemplate.map_normalize {path : String} {names : List String} (h : IsTemplate path names) :
    names.map ServicePath.normalize = names := by
  obtain ⟨first, ps, -, -, -, hps, rfl, -⟩ := h
  -- a placeholder is closed before the next slash, so its name has none to lose
  have hname : ∀ p ∈ ps, ServicePath.normalize (String.ofList p.name) = String.ofList p.name := by
    intro p hp
    rw [ServicePath.normalize, String.toList_ofList, collapse_of_slashFree (hps p hp).slashFree]
  rw [PathTemplate.names, List.map_map]
  exact List.map_congr_left hname

/-- A text that may stand in front of a path is empty or begins with a slash. -/
def Leads (lead : String) : Prop := lead = "" ∨ lead.toList.head? = some '/'

theorem head?_normalize_append (lead path : String) (hpath : path.toList.head? = some '/') :
    (ServicePath.normalize (lead ++ path)).toList.head? = some '/' ↔ Leads lead := by
  rw [toList_normalize, head?_collapse, String.toList_append]
  unfold Leads
  cases hlead : lead.toList with
  | nil =>
    have hempty : lead = "" := String.toList_eq_nil_iff.1 hlead
    simp [hpath, hempty]
  | cons c cs =>
    have hne : lead ≠ "" := by
      rintro rfl
      nomatch hlead
    simp [hne]

/-- A template behind a text that may stand in front of it is a template with the same names. -/
theorem IsTemplate.join {lead path : String} {names : List String} (h : IsTemplate path names)
    (hlead : Leads lead) (hbraces : BraceFree lead.toList) :
    IsTemplate (ServicePath.normalize (lead ++ path)) names := by
  obtain ⟨first, ps, hpath, hhead, hfirst, hps, rfl, hnodup⟩ := h
  have hnames : PathTemplate.names (ps.map Piece.collapsed) = PathTemplate.names ps := List.map_map
  refine ⟨collapse false (lead.toList ++ first), ps.map Piece.collapsed, ?_, ?_, ?_, ?_, hnames.symm, hnodup⟩
  · rw [toList_normalize, String.toList_append, hpath, ← List.append_assoc, collapse_append,
      collapse_flatMap_written hps]
  · rw [head?_collapse]
    rcases hlead with rfl | hlead
    · exact hhead
    · rw [List.head?_append, hlead]
      rfl
  · exact (hbraces.append hfirst).collapse false
  · intro p hp
    obtain ⟨q, hq, rfl⟩ := List.mem_map.1 hp
    exact (hps q hq).collapsed

end PathTemplate

namespace MergeState

open PathTemplate

variable {config : CombineConfig} {sources : List Source} {s : MergeState}

/-! ## The paths of the combined document -/

/-- What stands in front of the paths of a source. -/
def leadOf (config : CombineConfig) (source : Source) : String :=
  config.baseUrl ++ config.prefixOf source.service

/-- A path of a source that has an operation which the filter keeps goes under a key. -/
def ComesFrom (config : CombineConfig) (source : Source) (path key : String) : Prop :=
  finalPath config source path = key ∧
    ∃ item, (path, item) ∈ Source.membersAt source.document ["paths"] ∧
      ∃ o ∈ DocumentFault.operationsOf item, config.tagFilter.allows (tagsOf o.2) = true

/-- A key of the combined document, by the path that it comes from and what stands in front of it. -/
structure Joined (lead path key : String) : Prop where
  leading : key.toList.head? = some '/' ↔ Leads lead
  texts : BraceFree lead.toList → parameters key = (parameters path).map ServicePath.normalize
  names : BraceFree lead.toList → ∀ names, placeholders path = .ok names →
    parameters key = names ∧ (Leads lead → placeholders key = .ok names)

theorem joined_finalPath (config : CombineConfig) (source : Source) {path : String}
    (hpath : path.toList.head? = some '/') :
    Joined (leadOf config source) path (finalPath config source path) := by
  have hjoin : finalPath config source path = ServicePath.normalize (leadOf config source ++ path) := rfl
  have htexts (hbraces : BraceFree (leadOf config source).toList) :
      parameters (finalPath config source path) = (parameters path).map ServicePath.normalize := by
    rw [hjoin, parameters, ServicePath.toList_normalize, bracedTexts_collapse, String.toList_append,
      bracedTexts_append hbraces, parameters]
  refine ⟨head?_normalize_append (leadOf config source) path hpath, htexts, ?_⟩
  intro hbraces names hnames
  have htemplate := (placeholders_ok_iff path names).1 hnames
  refine ⟨?_, fun hlead => (placeholders_ok_iff _ _).2 (htemplate.join hlead hbraces)⟩
  rw [htexts hbraces, htemplate.parameters_eq, htemplate.map_normalize]

theorem exists_comesFrom (h : addAll config sources = .ok s) {key : String}
    (hkey : key ∈ Entries.keys (Source.membersAt (s.toDocument config) ["paths"])) :
    ∃ source ∈ sources, ∃ path, ComesFrom config source path key := by
  rw [(lastWriterWins_toDocument h).paths, List.mem_eraseDups] at hkey
  obtain ⟨⟨⟨key, method⟩, value⟩, hw, rfl⟩ := List.mem_map.1 hkey
  obtain ⟨t, ht, hw⟩ := List.mem_flatMap.1 hw
  obtain ⟨earlier, source, later, rfl, rfl⟩ := mem_settledSources.1 ht
  obtain ⟨path, item, operation, hitem, ho, hallows, hfinal⟩ :=
    (keepsOperation_settled earlier source key method).1 (exists_mem_keptOperations.1 ⟨value, hw⟩)
  exact ⟨source, by simp, path, hfinal, item, hitem, (method, operation), ho, hallows⟩

end MergeState

/-- Every path of a combined document comes from a path of a source, has no two slashes in a row, and keeps the
placeholders of each path that it comes from when there are no braces in front of that. It begins with a slash
exactly when what stands in front is empty or does so. -/
theorem combine_joins_paths (c : Combiner) {document : Json} (h : c.combine.2 = .ok document)
    (hslash : ∀ source ∈ c.sources, ∀ m ∈ Source.membersAt source.document ["paths"],
      m.1.toList.head? = some '/') :
    ∀ key ∈ Entries.keys (Source.membersAt document ["paths"]),
      ¬ ['/', '/'] <:+: key.toList ∧
      (∃ source ∈ c.sources, ∃ path, MergeState.ComesFrom c.config source path key) ∧
      ∀ source ∈ c.sources, ∀ path, MergeState.ComesFrom c.config source path key →
        MergeState.Joined (MergeState.leadOf c.config source) path key := by
  obtain ⟨s, hrun, rfl⟩ := Combiner.exists_addAll_of_combine h
  intro key hkey
  obtain ⟨source, hsource, path, hfrom⟩ := MergeState.exists_comesFrom hrun hkey
  refine ⟨?_, ⟨source, hsource, path, hfrom⟩, ?_⟩
  · rw [← hfrom.1, MergeState.finalPath, ServicePath.join, ServicePath.toList_normalize]
    exact ServicePath.not_infix_of_noRuns (ServicePath.noRuns_collapse false _)
  · rintro other hother path ⟨rfl, item, hitem, -⟩
    exact MergeState.joined_finalPath c.config other (hslash other hother (path, item) hitem)

/-- Two services whose paths are put behind `/api/`, one of them behind a prefix without a slash as well. -/
def prefixedUsers : Combiner where
  config := { baseUrl := "/api/", servicePrefix := [("b", "v1")] }
  sources :=
    [{ service := "a", document := .object [("paths", .object
        [("/users/{id}", .object [("get", .object [])])])] },
      { service := "b", document := .object [("paths", .object
        [("/users//{id}", .object [("get", .object [])])])] }]

theorem combine_joins_paths_prefixedUsers :
    ∃ document, prefixedUsers.combine.2 = .ok document ∧
      (∀ source ∈ prefixedUsers.sources, ∀ m ∈ Source.membersAt source.document ["paths"],
        m.1.toList.head? = some '/') ∧
      ∀ key ∈ Entries.keys (Source.membersAt document ["paths"]),
        ¬ ['/', '/'] <:+: key.toList ∧
        (∃ source ∈ prefixedUsers.sources, ∃ path,
          MergeState.ComesFrom prefixedUsers.config source path key) ∧
        ∀ source ∈ prefixedUsers.sources, ∀ path, MergeState.ComesFrom prefixedUsers.config source path key →
          MergeState.Joined (MergeState.leadOf prefixedUsers.config source) path key := by
  obtain ⟨document, h⟩ := exists_ok_of_isOk (x := prefixedUsers.combine.2) (by decide +kernel)
  have hslash : ∀ source ∈ prefixedUsers.sources, ∀ m ∈ Source.membersAt source.document ["paths"],
      m.1.toList.head? = some '/' := by decide +kernel
  exact ⟨document, h, hslash, combine_joins_paths prefixedUsers h hslash⟩

def usersOnly : Source where
  service := "user"
  document := .object [("paths", .object [("/users", .object [("get", .object [])])])]

def slashlessPrefix : CombineConfig := { servicePrefix := [("user", "v1")] }

/-- A prefix is taken without a slash, and the key behind it is no path. -/
theorem prefix_without_slash :
    ({} : CombineConfig).withPrefixText "user:v1" = .ok slashlessPrefix ∧
      ∃ c document, Combiner.ofConfig slashlessPrefix = .ok c ∧ (c.addSource usersOnly).combine.2 = .ok document ∧
        Entries.keys (Source.membersAt document ["paths"]) = ["v1/users"] := by
  -- the document is only known to exist, so its paths are computed together with it
  have hkeys : ((Combiner.addSource { config := slashlessPrefix } usersOnly).combine.2.toOption.map fun document =>
      Entries.keys (Source.membersAt document ["paths"])) = some ["v1/users"] := by decide +kernel
  cases hrun : (Combiner.addSource { config := slashlessPrefix } usersOnly).combine.2 with
  | error e =>
    rw [hrun] at hkeys
    nomatch hkeys
  | ok document =>
    rw [hrun] at hkeys
    exact ⟨rfl, _, document, rfl, hrun, Option.some_inj.1 hkeys⟩

end ApiDescription
