import ApiDescription.Proofs.Combine.Document

/-!
# States that stand for the same document

Two runs that have come to `Alike` states stay so whatever source comes next: the same schemas of it are renamed
(`renames_eq_of_schemaRenames`), and under every key both hold the same afterwards, be it what the source put
there last or what stood there (`LastPut`).
-/

set_option autoImplicit false

namespace ApiDescription

/-- The source with another document. -/
def Source.withDocument (document : Json) (source : Source) : Source := { source with document := document }

namespace MergeState

variable {config : CombineConfig} {strategy : ConflictStrategy} {service : String}
  {s s' t t' u : MergeState} {r r' : Renames}

/-! ## The last component under a key -/

theorem component?_of_inserts_ne {kind key kind' key' : String} {value : Json}
    (h : Inserts strategy service kind key value s t) (hne : (kind', key') ≠ (kind, key)) :
    t.component? kind' key' = s.component? kind' key' := by
  cases h with
  | absent => exact component?_writeComponent_ne value hne
  | shared => rfl
  | replaced => exact component?_writeComponent_ne value hne

/-- Under every kind and key stands what was put there last, or else what stood there before. -/
structure LastPut (s : MergeState) (writes : List ((String × String) × Json)) (t : MergeState) : Prop where
  put : ∀ place value, writes.reverse.lookup place = some value → t.Holds place.1 place.2 value
  old : ∀ place, writes.reverse.lookup place = none →
    t.component? place.1 place.2 = s.component? place.1 place.2

theorem LastPut.step {done : List ((String × String) × Json)} {w : (String × String) × Json}
    (h : LastPut s done t) (hd : w.2.distinct = true)
    (hi : Inserts strategy service w.1.1 w.1.2 w.2 t u) : LastPut s (done ++ [w]) u := by
  obtain ⟨⟨kind, key⟩, written⟩ := w
  have hlookup (place : String × String) : (done ++ [((kind, key), written)]).reverse.lookup place =
      if place = (kind, key) then some written else done.reverse.lookup place := by
    rw [List.reverse_append, List.reverse_singleton, List.singleton_append, List.lookup_cons]
    by_cases hplace : place = (kind, key)
    · simp [hplace]
    · rw [beq_eq_false_iff_ne.2 hplace, if_neg hplace]
  refine ⟨fun place value hvalue => ?_, fun place hnone => ?_⟩
  · rw [hlookup] at hvalue
    split at hvalue
    · next hplace =>
      cases hplace
      cases hvalue
      exact holds_of_inserts hd hi
    · next hplace =>
      obtain ⟨stored, hstored, hsame⟩ := h.put place value hvalue
      exact ⟨stored, (component?_of_inserts_ne hi hplace).trans hstored, hsame⟩
  · rw [hlookup] at hnone
    split at hnone
    · cases hnone
    · next hplace => exact (component?_of_inserts_ne hi hplace).trans (h.old place hnone)

theorem lastPut_of_mergeComponents {document : Json} (hd : document.distinct = true)
    (h : s.mergeComponents strategy service r document = .ok t) :
    LastPut s (componentWrites r document) t := by
  have hwrites : ∀ w ∈ componentWrites r document, w.2.distinct = true :=
    fun w hw => distinct_of_mem_componentWrites hd hw
  rw [mergeComponents_eq_foldlM] at h
  refine foldlM_induct (motive := fun done t => (∀ w ∈ done, w.2.distinct = true) → LastPut s done t)
    ?_ ?_ h hwrites
  · exact fun _ => ⟨fun _ _ hvalue => (nomatch hvalue), fun _ _ => rfl⟩
  · intro done w u v _ hu hv hdistinct
    have hdone := hu fun x hx => hdistinct x (List.mem_append_left _ hx)
    have hw := hdistinct w (List.mem_append_right _ (List.mem_singleton_self w))
    exact hdone.step hw (inserts_of_insertComponent hv)

/-! ## What a source leaves behind -/

/-- The source with its references redirected. -/
def redirected (r : Renames) (source : Source) : Source :=
  source.withDocument (r.redirect source.document)

/-- All that a document shows of the state behind a source, by the renames that were decided on. -/
theorem content_of_add {source : Source} (hd : source.document.distinct = true)
    (h : add config s source = .ok t) :
    ∃ decided r, s.schemaRenames config source.service source.document = .ok (decided, r) ∧
      t.paths = Entries.putAll s.paths (sourceWrites config (redirected r source)) ∧
      t.tags = tagsBehind (redirected r source) s.tags ∧
      LastPut s (componentWrites r (redirected r source).document) t := by
  obtain ⟨decided, r, inserted, placed, hdecided, hinserted, hplaced, rfl⟩ := add_ok_iff.1 h
  have hcontent := sameContent_of_schemaRenames hdecided
  have hpaths : placed.paths = Entries.putAll s.paths (sourceWrites config (redirected r source)) := by
    have hwrites : placed.paths =
        Entries.putAll inserted.paths (sourceWrites config (redirected r source)) :=
      paths_of_mergePaths hplaced
    rw [hwrites, paths_of_mergeComponents hinserted, hcontent.paths]
  have htags : placed.tags = s.tags := by
    rw [tags_of_mergePaths hplaced, tags_of_mergeComponents hinserted, hcontent.tags]
  have hput := lastPut_of_mergeComponents (Renames.distinct_redirect r hd) hinserted
  have hplacedKeeps := keepsComponents_of_mergePaths hplaced
  refine ⟨decided, r, hdecided, hpaths, congrArg (tagsBehind (redirected r source)) htags, ?_⟩
  constructor
  case put =>
    intro place value hvalue
    obtain ⟨stored, hstored, hsame⟩ := hput.put place value hvalue
    exact ⟨stored, (hplacedKeeps.component? _ _).trans hstored, hsame⟩
  case old =>
    intro place hnone
    have hold := (hplacedKeeps.component? place.1 place.2).trans (hput.old place hnone)
    exact hold.trans (hcontent.component? place.1 place.2)

/-! ## States that are alike -/

/-- Every component of the state is distinct. -/
def Clear (s : MergeState) : Prop :=
  ∀ kind key stored, s.component? kind key = some stored → stored.distinct = true

theorem clear_of_addAll {sources : List Source} (hd : ∀ source ∈ sources, source.document.distinct = true)
    (h : addAll config sources = .ok s) : Clear s :=
  fun _ _ _ hstored => distinct_of_component? hd h hstored

/-- The states show the same in a document. -/
structure Alike (s s' : MergeState) : Prop where
  paths : s.paths = s'.paths
  tags : s.tags = s'.tags
  components : ∀ kind key, Json.SameFound (s.component? kind key) (s'.component? kind key)

theorem sameFound_of_lastPut {writes writes' : List ((String × String) × Json)}
    (h : LastPut s writes t) (h' : LastPut s' writes' t') (hclear : Clear t')
    (hd : ∀ w ∈ writes', w.2.distinct = true)
    (hs : ∀ kind key, Json.SameFound (s.component? kind key) (s'.component? kind key))
    (hwrites : ∀ place, Json.SameFound (writes.reverse.lookup place) (writes'.reverse.lookup place))
    (kind key : String) : Json.SameFound (t.component? kind key) (t'.component? kind key) := by
  have hplace := hwrites (kind, key)
  cases hv : writes.reverse.lookup (kind, key) with
  | none =>
    have hnone := hplace.eq_none_iff.1 hv
    rw [h.old (kind, key) hv, h'.old (kind, key) hnone]
    exact hs kind key
  | some v =>
    cases hv' : writes'.reverse.lookup (kind, key) with
    | none =>
      rw [hplace.eq_none_iff.2 hv'] at hv
      cases hv
    | some v' =>
      rw [hv, hv'] at hplace
      obtain ⟨hsame⟩ := hplace
      obtain ⟨stored, hstored, hleft⟩ := h.put (kind, key) v hv
      obtain ⟨stored', hstored', hright⟩ := h'.put (kind, key) v' hv'
      have hback := Json.same_symm (hclear kind key stored' hstored')
        (hd _ (Entries.mem_of_lookup_reverse hv')) hright
      rw [hstored, hstored']
      exact .some (Json.same_trans (Json.same_trans hleft hsame) hback)

/-! ## Decisions behind states that are alike -/

theorem keeps_congr {m : String × Json} (h : SameContent s t) : Keeps t r m ↔ Keeps s r m := by
  unfold Keeps
  rw [h.component?]

theorem keeps_iff_of_sameFound (hs : Clear s) (hs' : Clear s')
    (h : ∀ kind key, Json.SameFound (s.component? kind key) (s'.component? kind key)) (r : Renames)
    (m : String × Json) : Keeps s r m ↔ Keeps s' r m := by
  have hfound := h schemaKind m.1
  have hd := hs schemaKind m.1
  have hd' := hs' schemaKind m.1
  unfold Keeps
  generalize s.component? schemaKind m.1 = found at hfound hd ⊢
  generalize s'.component? schemaKind m.1 = found' at hfound hd' ⊢
  cases hfound with
  | none => exact Iff.rfl
  | @some stored stored' hsame =>
    have hback := Json.same_symm (hd stored rfl) (hd' stored' rfl) hsame
    constructor
    · rintro hkeeps _ ⟨⟩
      exact Json.same_trans hback (hkeeps stored rfl)
    · rintro hkeeps _ ⟨⟩
      exact Json.same_trans hsame (hkeeps stored' rfl)

/-- Whether a schema is renamed only hangs on whether it can keep its name. -/
theorem Decides.verdict {p q : RenamePass} {name : String} {value : Json}
    (h : Decides strategy service p name value q) :
    (Keeps p.state p.renames (name, value) ∧ q.renames = p.renames ∧ q.kept = p.kept ++ [(name, value)]) ∨
    (¬ Keeps p.state p.renames (name, value) ∧
      q.renames = Entries.put p.renames name (namespaced service name) ∧ q.kept = p.kept) := by
  cases h with
  | absent hnone =>
    refine .inl ⟨fun existing hexisting => ?_, rfl, rfl⟩
    rw [hnone] at hexisting
    cases hexisting
  | shared existing hsome hsame =>
    refine .inl ⟨fun other hother => ?_, rfl, rfl⟩
    rw [hsome] at hother
    cases hother
    exact hsame
  | renamed existing hsome hsame =>
    refine .inr ⟨fun hkeeps => ?_, rfl, rfl⟩
    have hkept := hkeeps existing hsome
    rw [hsame] at hkept
    cases hkept

theorem renames_eq_of_decideAll {schemas : List (String × Json)} {renames : Renames}
    (h : decideAll strategy service s renames schemas = .ok (t, r))
    (h' : decideAll strategy service s' renames schemas = .ok (t', r'))
    (hkeeps : ∀ r m, Keeps s r m ↔ Keeps s' r m) : r = r' := by
  induction hn : schemas.length using Nat.strongRecOn generalizing s s' renames schemas with
  | ind n ih =>
    rw [decideAll] at h h'
    cases hp : schemas.foldlM (decide strategy service) { state := s, renames := renames } with
    | error c =>
      rw [hp] at h
      cases h
    | ok p =>
      cases hp' : schemas.foldlM (decide strategy service) { state := s', renames := renames } with
      | error c =>
        rw [hp'] at h'
        cases h'
      | ok p' =>
        -- in every round the two decide alike on each schema, so they go on with the same ones
        have hround : p.renames = p'.renames ∧ p.kept = p'.kept ∧
            ∀ r m, Keeps p.state r m ↔ Keeps p'.state r m := by
          refine foldlM_related (R := fun p p' => p.renames = p'.renames ∧ p.kept = p'.kept ∧
            ∀ r m, Keeps p.state r m ↔ Keeps p'.state r m) hp hp' ⟨rfl, rfl, hkeeps⟩ ?_
          rintro ⟨name, value⟩ - u u' v v' ⟨hrenames, hkept, hiff⟩ hv hv'
          have hd := decides_of_decide hv
          have hd' := decides_of_decide hv'
          have hiff' (r m) : Keeps v.state r m ↔ Keeps v'.state r m :=
            ((keeps_congr (sameContent_of_decides hd)).trans (hiff r m)).trans
              (keeps_congr (sameContent_of_decides hd')).symm
          obtain ⟨hk, hr, hl⟩ | ⟨hk, hr, hl⟩ := hd.verdict
          · obtain ⟨-, hr', hl'⟩ | ⟨hk', -, -⟩ := hd'.verdict
            · rw [hr, hr', hl, hl', hrenames, hkept]
              exact ⟨rfl, rfl, hiff'⟩
            · rw [← hrenames] at hk'
              exact absurd ((hiff _ _).1 hk) hk'
          · obtain ⟨hk', -, -⟩ | ⟨-, hr', hl'⟩ := hd'.verdict
            · rw [← hrenames] at hk'
              exact absurd ((hiff _ _).2 hk') hk
            · rw [hr, hr', hl, hl', hrenames, hkept]
              exact ⟨rfl, rfl, hiff'⟩
        obtain ⟨hrenames, hkept, hiff⟩ := hround
        rw [hp] at h
        rw [hp'] at h'
        dsimp only at h h'
        rw [← hkept, ← hrenames] at h'
        split at h
        · next hlt =>
          rw [if_pos hlt] at h'
          exact ih p.kept.length (hn ▸ hlt) h h' hiff rfl
        · next hge =>
          rw [if_neg hge] at h'
          cases h
          cases h'
          rfl

theorem renames_eq_of_schemaRenames {document : Json}
    (h : s.schemaRenames config service document = .ok (t, r))
    (h' : s'.schemaRenames config service document = .ok (t', r'))
    (hkeeps : ∀ r m, Keeps s r m ↔ Keeps s' r m) : r = r' := by
  unfold schemaRenames at h h'
  dsimp only at h h'
  split at h
  · next hmerge =>
    rw [if_pos hmerge] at h'
    exact renames_eq_of_decideAll h h' hkeeps
  · next hmerge =>
    rw [if_neg hmerge] at h'
    cases h
    cases h'
    rfl

/-! ## Runs that have come to alike states -/

theorem Alike.add {source : Source} (h : Alike s s') (hd : source.document.distinct = true)
    (hs : Clear s) (hs' : Clear s') (ht' : Clear t')
    (ht : add config s source = .ok t) (htt : add config s' source = .ok t') : Alike t t' := by
  obtain ⟨decided, r, hdecided, hpaths, htags, hput⟩ := content_of_add hd ht
  obtain ⟨decided', r', hdecided', hpaths', htags', hput'⟩ := content_of_add hd htt
  obtain rfl : r = r' :=
    renames_eq_of_schemaRenames hdecided hdecided' (keeps_iff_of_sameFound hs hs' h.components)
  have hwrites : ∀ w ∈ componentWrites r (redirected r source).document, w.2.distinct = true :=
    fun w hw => distinct_of_mem_componentWrites (Renames.distinct_redirect r hd) hw
  constructor
  case paths => rw [hpaths, hpaths', h.paths]
  case tags => rw [htags, htags', h.tags]
  case components =>
    refine sameFound_of_lastPut hput hput' ht' hwrites h.components fun place => ?_
    exact Json.sameFound_self fun v hv => hwrites _ (Entries.mem_of_lookup_reverse hv)

/-- Sources that come behind alike states leave alike states behind. -/
theorem alike_of_addAll {before before' later : List Source}
    (hd : ∀ source ∈ before ++ later, source.document.distinct = true)
    (hd' : ∀ source ∈ before' ++ later, source.document.distinct = true)
    (hb : addAll config before = .ok s) (hb' : addAll config before' = .ok s') (hs : Alike s s')
    (h : addAll config (before ++ later) = .ok t) (h' : addAll config (before' ++ later) = .ok t') :
    Alike t t' := by
  induction later using List.reverseRecOn generalizing t t' with
  | nil =>
    rw [List.append_nil, hb] at h
    rw [List.append_nil, hb'] at h'
    cases h
    cases h'
    exact hs
  | append_singleton later source ih =>
    rw [← List.append_assoc] at h h' hd hd'
    have hclear := clear_of_addAll hd' h'
    obtain ⟨u, hu, ht⟩ := foldlM_concat_ok.1 h
    obtain ⟨u', hu', htt⟩ := foldlM_concat_ok.1 h'
    have hsource : source.document.distinct = true :=
      hd source (List.mem_append_right _ (List.mem_singleton_self source))
    have hdone : ∀ other ∈ before ++ later, other.document.distinct = true :=
      fun other hother => hd other (List.mem_append_left _ hother)
    have hdone' : ∀ other ∈ before' ++ later, other.document.distinct = true :=
      fun other hother => hd' other (List.mem_append_left _ hother)
    exact (ih hdone hdone' hu hu').add hsource (clear_of_addAll hdone hu) (clear_of_addAll hdone' hu')
      hclear ht htt

/-- Runs that have come to alike states combine the same document. -/
theorem Alike.same_toDocument {sources sources' : List Source} (h : Alike s s')
    (hd' : ∀ source ∈ sources', source.document.distinct = true)
    (hs : addAll config sources = .ok s) (hs' : addAll config sources' = .ok s') :
    (s.toDocument config).same (s'.toDocument config) = true := by
  have hdistinct := distinct_toDocument hd' hs'
  have hpaths : (Json.ofTable s.paths).same (Json.ofTable s'.paths) = true := by
    rw [h.paths]
    have hmember : (s'.toDocument config).get? "paths" = some (Json.ofTable s'.paths) := rfl
    exact Json.same_refl (Json.distinct_of_get? hdistinct hmember)
  have hcomponents : (Json.ofTable s.components).same (Json.ofTable s'.components) = true :=
    Json.same_table (tidy_components_of_addAll hs) (tidy_components_of_addAll hs')
      (filled_components_of_addAll hs) (filled_components_of_addAll hs') h.components
  exact MergeState.same_toDocument hpaths hcomponents h.tags hdistinct

end MergeState

end ApiDescription
