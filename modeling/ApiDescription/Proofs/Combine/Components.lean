import ApiDescription.Proofs.Combine.SchemaRenames
import ApiDescription.Proofs.Combine.Settled

/-!
# What a run does to the components

Only putting components in changes them, and it changes one only when another one of its kind and key
gives way, which leaves a warning (`Overrides`). So whatever stands under a kind and a key stands there to the
end of the run, or a warning says that it does not (`Extends`), and a component that a source puts in
is found at the end (`holds_of_addAll`). `overrides_addAll_iff` says when there is such a warning.
-/

set_option autoImplicit false

namespace ApiDescription.MergeState

variable {config : CombineConfig} {strategy : ConflictStrategy} {service : String}
  {s t u : MergeState}

/-- Some component of the kind gave way to another one under the key. -/
def Overrides (s : MergeState) (kind key : String) : Prop :=
  ∃ c ∈ s.warnings, c.subject = .component kind key

/-- A component equal to the value stands under the kind and the key. -/
def Holds (s : MergeState) (kind key : String) (value : Json) : Prop :=
  ∃ stored, s.component? kind key = some stored ∧ stored.same value = true

/-! ## Steps that leave the components alone -/

/-- The states hold the same components, and none of them gave way from the first to the second. -/
structure KeepsComponents (s t : MergeState) : Prop where
  components : t.components = s.components
  overrides : ∀ kind key, t.Overrides kind key ↔ s.Overrides kind key

theorem KeepsComponents.refl (s : MergeState) : KeepsComponents s s := ⟨rfl, fun _ _ => Iff.rfl⟩

theorem KeepsComponents.trans (h : KeepsComponents s t) (h' : KeepsComponents t u) :
    KeepsComponents s u :=
  ⟨h'.components.trans h.components, fun kind key =>
    (h'.overrides kind key).trans (h.overrides kind key)⟩

theorem overrides_record_iff {c : Conflict} {kind key : String} :
    (s.record c).Overrides kind key ↔ s.Overrides kind key ∨ c.subject = .component kind key := by
  simp [Overrides, record, or_and_right, exists_or]

theorem keepsComponents_record {c : Conflict} (hc : ∀ kind key, c.subject ≠ .component kind key) :
    KeepsComponents s (s.record c) where
  components := rfl
  overrides kind key := by
    rw [overrides_record_iff]
    exact or_iff_left (hc kind key)

theorem keepsComponents_of_schemaRenames {document : Json} {r : Renames}
    (h : s.schemaRenames config service document = .ok (t, r)) : KeepsComponents s t := by
  refine schemaRenames_invariant (P := fun t => KeepsComponents s t) h (.refl s) ?_ ?_
  · intro u name previous hu
    exact hu.trans (keepsComponents_record (by simp))
  · intro u n hu
    exact ⟨hu.components, hu.overrides⟩

theorem keepsComponents_of_mergePaths {source : Source} {document : Json}
    (h : s.mergePaths config source document = .ok t) : KeepsComponents s t := by
  refine mergePaths_invariant (P := fun t => KeepsComponents s t) h (.refl s) ?_ ?_
  · intro u path name value hu
    exact hu.trans ⟨rfl, fun _ _ => Iff.rfl⟩
  · intro u method path service previous hu
    exact hu.trans (keepsComponents_record (by simp))

theorem KeepsComponents.component? (h : KeepsComponents s t) (kind key : String) :
    t.component? kind key = s.component? kind key := by
  unfold MergeState.component?
  rw [h.components]

/-! ## Steps that may put components in -/

/-- What the first state holds the second one holds, or it says that the component gave way. -/
structure Extends (s t : MergeState) : Prop where
  overrides : ∀ kind key, s.Overrides kind key → t.Overrides kind key
  component? : ∀ kind key existing, s.component? kind key = some existing →
    t.component? kind key = some existing ∨ t.Overrides kind key

theorem Extends.refl (s : MergeState) : Extends s s :=
  ⟨fun _ _ h => h, fun _ _ _ h => Or.inl h⟩

theorem Extends.trans (h : Extends s t) (h' : Extends t u) : Extends s u where
  overrides kind key hs := h'.overrides kind key (h.overrides kind key hs)
  component? kind key existing hs := by
    rcases h.component? kind key existing hs with ht | ht
    · exact h'.component? kind key existing ht
    · exact Or.inr (h'.overrides kind key ht)

theorem KeepsComponents.extends (h : KeepsComponents s t) : Extends s t where
  overrides kind key := (h.overrides kind key).2
  component? kind key _ hs := Or.inl ((h.component? kind key).trans hs)

theorem Extends.holds (h : Extends s t) {kind key : String} {value : Json}
    (hs : s.Holds kind key value) (ht : ¬ t.Overrides kind key) : t.Holds kind key value := by
  obtain ⟨stored, hstored, hsame⟩ := hs
  exact ⟨stored, (h.component? kind key stored hstored).resolve_right ht, hsame⟩

theorem component?_writeComponent_self (kind key : String) (value : Json) :
    (s.writeComponent service kind key value).component? kind key = some value :=
  Entries.at?_putAt_self s.components kind key value

theorem component?_writeComponent_ne {kind key kind' key' : String} (value : Json)
    (h : (kind', key') ≠ (kind, key)) :
    (s.writeComponent service kind key value).component? kind' key' = s.component? kind' key' :=
  Entries.at?_putAt_ne s.components value h

theorem extends_of_inserts {kind key : String} {value : Json}
    (h : Inserts strategy service kind key value s t) : Extends s t := by
  cases h with
  | absent hnone =>
    refine ⟨fun _ _ h => h, ?_⟩
    intro kind' key' existing he
    have hne : (kind', key') ≠ (kind, key) := by
      intro heq
      obtain ⟨rfl, rfl⟩ := Prod.mk.inj heq
      rw [hnone] at he
      cases he
    exact Or.inl ((component?_writeComponent_ne value hne).trans he)
  | shared => exact .refl s
  | replaced =>
    refine ⟨fun _ _ h => overrides_record_iff.2 (Or.inl h), ?_⟩
    intro kind' key' other he
    by_cases heq : (kind', key') = (kind, key)
    · obtain ⟨rfl, rfl⟩ := Prod.mk.inj heq
      exact Or.inr (overrides_record_iff.2 (Or.inr rfl))
    · exact Or.inl ((component?_writeComponent_ne value heq).trans he)

theorem holds_of_inserts {kind key : String} {value : Json} (hd : value.distinct = true)
    (h : Inserts strategy service kind key value s t) : t.Holds kind key value := by
  cases h with
  | absent => exact ⟨value, component?_writeComponent_self kind key value, Json.same_refl hd⟩
  | shared existing hsome hsame => exact ⟨existing, hsome, hsame⟩
  | replaced => exact ⟨value, component?_writeComponent_self kind key value, Json.same_refl hd⟩

/-! ## The components of a source -/

/-- The components of a document with the kinds and the keys under which they go. -/
def componentWrites (r : Renames) (document : Json) : List ((String × String) × Json) :=
  (componentsOf document).map fun c => ((c.1, componentKey r c.1 c.2.1), c.2.2)

theorem mergeComponents_eq_foldlM (r : Renames) (document : Json) (s : MergeState) :
    s.mergeComponents strategy service r document =
      (componentWrites r document).foldlM
        (fun s w => s.insertComponent strategy service w.1.1 w.1.2 w.2) s := by
  unfold mergeComponents componentWrites
  rw [List.foldlM_map]

theorem mem_componentWrites {r : Renames} {document : Json} {w : (String × String) × Json} :
    w ∈ componentWrites r document ↔ ∃ kind entries key value,
      (kind, entries) ∈ Source.membersAt document ["components"] ∧
      (key, value) ∈ entries.members?.getD [] ∧
      w = ((kind, componentKey r kind key), value) := by
  unfold componentWrites componentsOf
  constructor
  · intro h
    obtain ⟨c, hc, rfl⟩ := List.mem_map.1 h
    obtain ⟨⟨kind, entries⟩, he, hm⟩ := List.mem_flatMap.1 hc
    obtain ⟨⟨key, value⟩, hv, rfl⟩ := List.mem_map.1 hm
    exact ⟨kind, entries, key, value, he, hv, rfl⟩
  · rintro ⟨kind, entries, key, value, he, hv, rfl⟩
    refine List.mem_map.2 ⟨(kind, key, value), ?_, rfl⟩
    exact List.mem_flatMap.2 ⟨(kind, entries), he, List.mem_map.2 ⟨(key, value), hv, rfl⟩⟩

theorem distinct_of_mem_componentWrites {r : Renames} {document : Json}
    (hd : document.distinct = true) {w : (String × String) × Json}
    (hw : w ∈ componentWrites r document) : w.2.distinct = true := by
  obtain ⟨kind, entries, key, value, he, hv, rfl⟩ := mem_componentWrites.1 hw
  have hentries : entries.distinct = true :=
    Json.distinct_of_mem (Source.distinct_object_membersAt hd _) he
  cases entries with
  | object ms => exact Json.distinct_of_mem hentries hv
  | _ => cases hv

theorem mem_componentWrites_kind {r : Renames} {document : Json} (hd : document.distinct = true)
    {kind key : String} {value : Json} :
    ((kind, key), value) ∈ componentWrites r document ↔
      ∃ m ∈ Source.membersAt document ["components", kind],
        componentKey r kind m.1 = key ∧ m.2 = value := by
  rw [mem_componentWrites]
  have hmembers : ∀ entries, (kind, entries) ∈ Source.membersAt document ["components"] →
      entries.members?.getD [] = Source.membersAt document ["components", kind] := by
    intro entries he
    have hl : Source.lookup? document ["components", kind] = some entries :=
      Source.lookup?_concat_of_mem hd ["components"] he
    unfold Source.membersAt
    rw [hl]
    rfl
  constructor
  · rintro ⟨kind', entries, name, v, he, hv, heq⟩
    obtain ⟨⟨rfl, rfl⟩, rfl⟩ := by simpa only [Prod.mk.injEq] using heq
    exact ⟨(name, value), hmembers entries he ▸ hv, rfl, rfl⟩
  · rintro ⟨⟨name, v⟩, hm, rfl, rfl⟩
    obtain ⟨entries, he⟩ := Source.exists_mem_of_mem_membersAt ["components"] hm
    exact ⟨kind, entries, name, _, he, (hmembers entries he).symm ▸ hm, rfl⟩

/-! ## Putting the components of a source in -/

/-- Under the kind and the key the source has another component than the state, or two that differ. -/
def Clashes (s : MergeState) (writes : List ((String × String) × Json)) (kind key : String) : Prop :=
  (∃ w ∈ writes, w.1 = (kind, key) ∧
    ∃ existing, s.component? kind key = some existing ∧ existing.same w.2 = false) ∨
  ∃ w ∈ writes, ∃ w' ∈ writes, w.1 = (kind, key) ∧ w'.1 = (kind, key) ∧ w.2.same w'.2 = false

theorem Clashes.mono {writes writes' : List ((String × String) × Json)} {kind key : String}
    (h : s.Clashes writes kind key) (hsub : writes ⊆ writes') : s.Clashes writes' kind key := by
  rcases h with ⟨w, hw, hkey, hdiffers⟩ | ⟨w, hw, w', hw', hkey, hkey', hdiffers⟩
  · exact Or.inl ⟨w, hsub hw, hkey, hdiffers⟩
  · exact Or.inr ⟨w, hsub hw, w', hsub hw', hkey, hkey', hdiffers⟩

/-- What a run over components leaves behind: everything that was there or was put in, and a warning for
nothing but a clash. -/
structure WriteRun (s : MergeState) (done : List ((String × String) × Json)) (t : MergeState) :
    Prop where
  extends' : Extends s t
  holds : ∀ w ∈ done, w.2.distinct = true → ¬ t.Overrides w.1.1 w.1.2 → t.Holds w.1.1 w.1.2 w.2
  origin : ∀ kind key stored, t.component? kind key = some stored →
    s.component? kind key = some stored ∨ ((kind, key), stored) ∈ done
  clash : ∀ kind key, t.Overrides kind key → s.Overrides kind key ∨ s.Clashes done kind key

theorem WriteRun.step {done : List ((String × String) × Json)} {w : (String × String) × Json}
    (h : WriteRun s done t) (hi : Inserts strategy service w.1.1 w.1.2 w.2 t u) :
    WriteRun s (done ++ [w]) u := by
  have hsub : done ⊆ done ++ [w] := List.subset_append_left _ _
  have hlast : w ∈ done ++ [w] := by simp
  have hext : Extends t u := extends_of_inserts hi
  refine ⟨h.extends'.trans hext, ?_, ?_, ?_⟩
  · intro v hv hd ho
    rcases List.mem_append.1 hv with hv | hv
    · have ht : ¬ t.Overrides v.1.1 v.1.2 := fun ht => ho (hext.overrides _ _ ht)
      exact hext.holds (h.holds v hv hd ht) ho
    · rw [List.mem_singleton.1 hv] at hd ⊢
      exact holds_of_inserts hd hi
  -- a write that records a warning first puts in no other component than one that does not
  · have hwrite : ∀ v : MergeState, v.components = t.components → ∀ kind key stored,
        (v.writeComponent service w.1.1 w.1.2 w.2).component? kind key = some stored →
        s.component? kind key = some stored ∨ ((kind, key), stored) ∈ done ++ [w] := by
      intro v hv kind key stored hstored
      by_cases heq : (kind, key) = (w.1.1, w.1.2)
      · obtain ⟨rfl, rfl⟩ := Prod.mk.inj heq
        rw [component?_writeComponent_self] at hstored
        cases hstored
        exact Or.inr hlast
      · rw [component?_writeComponent_ne w.2 heq] at hstored
        have ht : t.component? kind key = some stored := by
          rw [← hstored]
          unfold MergeState.component?
          rw [hv]
        exact (h.origin kind key stored ht).imp_right fun hm => hsub hm
    cases hi with
    | absent => exact hwrite t rfl
    | shared =>
      intro kind key stored hstored
      exact (h.origin kind key stored hstored).imp_right fun hm => hsub hm
    | replaced => exact hwrite _ rfl
  · intro kind key ho
    have hold : t.Overrides kind key → s.Overrides kind key ∨ s.Clashes (done ++ [w]) kind key :=
      fun ht => (h.clash kind key ht).imp_right fun hc => hc.mono hsub
    cases hi with
    | absent => exact hold ho
    | shared => exact hold ho
    | replaced existing hsome hsame =>
      rcases overrides_record_iff.1 ho with ht | hc
      · exact hold ht
      · obtain ⟨rfl, rfl⟩ : w.1.1 = kind ∧ w.1.2 = key := by simpa using hc
        -- what gave way was there before the run, or the run itself put it in
        refine Or.inr ?_
        rcases h.origin _ _ existing hsome with hs | hm
        · exact Or.inl ⟨w, hlast, rfl, existing, hs, hsame⟩
        · exact Or.inr ⟨_, hsub hm, w, hlast, rfl, rfl, hsame⟩

theorem writeRun_of_foldlM {writes : List ((String × String) × Json)}
    (h : writes.foldlM (fun s w => s.insertComponent strategy service w.1.1 w.1.2 w.2) s = .ok t) :
    WriteRun s writes t := by
  refine foldlM_induct (motive := fun done t => WriteRun s done t) ?_ ?_ h
  · exact ⟨.refl s, by simp, fun _ _ _ h => Or.inl h, fun _ _ h => Or.inl h⟩
  · intro done w u v _ hu hv
    exact hu.step (inserts_of_insertComponent hv)

theorem writeRun_of_mergeComponents {r : Renames} {document : Json}
    (h : s.mergeComponents strategy service r document = .ok t) :
    WriteRun s (componentWrites r document) t := by
  rw [mergeComponents_eq_foldlM] at h
  exact writeRun_of_foldlM h

theorem WriteRun.between {s' t' : MergeState} {writes : List ((String × String) × Json)}
    (h : WriteRun s' writes t') (hs : KeepsComponents s s') (ht : KeepsComponents t' t) :
    WriteRun s writes t where
  extends' := (hs.extends.trans h.extends').trans ht.extends
  holds w hw hd ho := by
    have ho' : ¬ t'.Overrides w.1.1 w.1.2 := fun h => ho ((ht.overrides _ _).2 h)
    exact ht.extends.holds (h.holds w hw hd ho') ho
  origin kind key stored hstored := by
    rw [ht.component?] at hstored
    rw [← hs.component?]
    exact h.origin kind key stored hstored
  clash kind key ho := by
    rw [ht.overrides] at ho
    have hc := h.clash kind key ho
    rw [hs.overrides] at hc
    refine hc.imp_right ?_
    simp only [Clashes, hs.component?]
    exact id

/-! ## Runs over sources -/

/-- The components of a source that goes in behind others, with their kinds and keys. -/
def writesBehind (config : CombineConfig) (earlier : List Source) (source : Source) :
    List ((String × String) × Json) :=
  componentWrites (renamesBehind config earlier source) (settled config earlier source).document

theorem writeRun_of_add {earlier : List Source} {source : Source}
    (hs : addAll config earlier = .ok s) (h : add config s source = .ok t) :
    WriteRun s (writesBehind config earlier source) t := by
  obtain ⟨decided, inserted, placed, hd, hi, hp, rfl⟩ := add_behind hs h
  have htags : KeepsComponents placed
      (placed.mergeTags source (settled config earlier source).document) :=
    ⟨rfl, fun _ _ => Iff.rfl⟩
  exact (writeRun_of_mergeComponents hi).between (keepsComponents_of_schemaRenames hd)
    ((keepsComponents_of_mergePaths hp).trans htags)

theorem distinct_of_mem_writesBehind {earlier : List Source} {source : Source}
    (hd : source.document.distinct = true) {w : (String × String) × Json}
    (hw : w ∈ writesBehind config earlier source) : w.2.distinct = true :=
  distinct_of_mem_componentWrites (Renames.distinct_redirect _ hd) hw

theorem extends_of_foldlM_add {earlier later : List Source}
    (hs : addAll config earlier = .ok s) (h : later.foldlM (add config) s = .ok t) :
    Extends s t := by
  induction later generalizing earlier s with
  | nil =>
    cases h
    exact .refl _
  | cons source later ih =>
    obtain ⟨u, hu, hr⟩ := foldlM_cons_ok.1 h
    have hdone : addAll config (earlier ++ [source]) = .ok u := foldlM_concat_ok.2 ⟨s, hs, hu⟩
    exact (writeRun_of_add hs hu).extends'.trans (ih hdone hr)

/-- A component that a source puts in is held at the end, unless something of its kind and key gave
way. -/
theorem holds_of_addAll {earlier later : List Source} {source : Source}
    (h : addAll config (earlier ++ source :: later) = .ok s)
    (hd : source.document.distinct = true) {w : (String × String) × Json}
    (hw : w ∈ writesBehind config earlier source) (ho : ¬ s.Overrides w.1.1 w.1.2) :
    s.Holds w.1.1 w.1.2 w.2 := by
  obtain ⟨before, after, hb, ha, hl⟩ := addAll_split h
  have hdone : addAll config (earlier ++ [source]) = .ok after := foldlM_concat_ok.2 ⟨before, hb, ha⟩
  have hext : Extends after s := extends_of_foldlM_add hdone hl
  have hrun : WriteRun before (writesBehind config earlier source) after := writeRun_of_add hb ha
  refine hext.holds (hrun.holds w hw (distinct_of_mem_writesBehind hd hw) ?_) ho
  exact fun hafter => ho (hext.overrides _ _ hafter)

theorem origin_of_addAll {sources : List Source} (h : addAll config sources = .ok s)
    {kind key : String} {stored : Json} (hstored : s.component? kind key = some stored) :
    ∃ earlier source later, sources = earlier ++ source :: later ∧
      ((kind, key), stored) ∈ writesBehind config earlier source := by
  revert hstored
  refine addAll_induct (motive := fun sources s => s.component? kind key = some stored →
    ∃ earlier source later, sources = earlier ++ source :: later ∧
      ((kind, key), stored) ∈ writesBehind config earlier source) ?_ ?_ h
  · intro hstored
    cases hstored
  · intro done source s t hs ih ht hstored
    rcases (writeRun_of_add hs ht).origin kind key stored hstored with hold | hnew
    · obtain ⟨earlier, other, later, rfl, hm⟩ := ih hold
      exact ⟨earlier, other, later ++ [source], by simp, hm⟩
    · exact ⟨done, source, [], rfl, hnew⟩

theorem distinct_of_component? {sources : List Source}
    (hd : ∀ source ∈ sources, source.document.distinct = true)
    (h : addAll config sources = .ok s) {kind key : String} {stored : Json}
    (hstored : s.component? kind key = some stored) : stored.distinct = true := by
  obtain ⟨earlier, source, later, rfl, hm⟩ := origin_of_addAll h hstored
  exact distinct_of_mem_writesBehind (hd source (by simp)) hm

/-- A clash is never passed over in silence. -/
theorem WriteRun.overrides_of_clashes {writes : List ((String × String) × Json)}
    (h : WriteRun s writes t) {kind key : String}
    (hs : ∀ stored, s.component? kind key = some stored → stored.distinct = true)
    (hw : ∀ w ∈ writes, w.2.distinct = true) (hc : s.Clashes writes kind key) :
    t.Overrides kind key := by
  by_contra ho
  -- without a warning, one component is the same as all that went under the key
  have hheld : ∀ w ∈ writes, w.1 = (kind, key) → t.Holds kind key w.2 := by
    intro w hm hkey
    have hholds := h.holds w hm (hw w hm)
    rw [hkey] at hholds
    exact hholds ho
  rcases hc with ⟨w, hm, hkey, existing, he, hdiffers⟩ | ⟨w, hm, w', hm', hkey, hkey', hdiffers⟩
  · obtain ⟨stored, hstored, hsame⟩ := hheld w hm hkey
    have hkept := (h.extends'.component? kind key existing he).resolve_right ho
    rw [hkept] at hstored
    cases hstored
    rw [hdiffers] at hsame
    cases hsame
  · obtain ⟨stored, hstored, hsame⟩ := hheld w hm hkey
    obtain ⟨stored', hstored', hsame'⟩ := hheld w' hm' hkey'
    rw [hstored] at hstored'
    cases hstored'
    have hd : stored.distinct = true := by
      rcases h.origin kind key stored hstored with hold | hnew
      · exact hs stored hold
      · exact hw _ hnew
    have hboth : w.2.same w'.2 = true := Json.same_trans (Json.same_symm hd (hw w hm) hsame) hsame'
    rw [hdiffers] at hboth
    cases hboth

/-- Something gives way in a run exactly when a source clashes with those before it or with itself. -/
theorem overrides_addAll_iff {sources : List Source}
    (hd : ∀ source ∈ sources, source.document.distinct = true)
    (h : addAll config sources = .ok s) (kind key : String) :
    s.Overrides kind key ↔ ∃ earlier source later before, sources = earlier ++ source :: later ∧
      addAll config earlier = .ok before ∧
      before.Clashes (writesBehind config earlier source) kind key := by
  constructor
  · refine addAll_induct (motive := fun sources s => s.Overrides kind key →
      ∃ earlier source later before, sources = earlier ++ source :: later ∧
        addAll config earlier = .ok before ∧
        before.Clashes (writesBehind config earlier source) kind key) ?_ ?_ h
    · rintro ⟨c, hc, _⟩
      cases hc
    · intro done source s t hs ih ht ho
      rcases (writeRun_of_add hs ht).clash kind key ho with hold | hnew
      · obtain ⟨earlier, other, later, before, rfl, hb, hc⟩ := ih hold
        exact ⟨earlier, other, later ++ [source], before, by simp, hb, hc⟩
      · exact ⟨done, source, [], s, rfl, hs, hnew⟩
  · rintro ⟨earlier, source, later, before, rfl, hb, hc⟩
    obtain ⟨before', after, hb', ha, hl⟩ := addAll_split h
    rw [hb] at hb'
    cases hb'
    have hdone : addAll config (earlier ++ [source]) = .ok after :=
      foldlM_concat_ok.2 ⟨before, hb, ha⟩
    have hearlier : ∀ other ∈ earlier, other.document.distinct = true := by
      intro other hm
      exact hd other (List.mem_append_left _ hm)
    refine (extends_of_foldlM_add hdone hl).overrides kind key ?_
    refine (writeRun_of_add hb ha).overrides_of_clashes ?_ ?_ hc
    · exact fun stored hstored => distinct_of_component? hearlier hb hstored
    · exact fun w hw => distinct_of_mem_writesBehind (hd source (by simp)) hw

/-! ## Schemas -/

/-- The schemas of a document. -/
def schemasOf (document : Json) : List (String × Json) :=
  Source.membersAt document ["components", schemaKind]

/-- The name that a schema of a source has in the combined document. -/
def schemaName (config : CombineConfig) (earlier : List Source) (source : Source) (name : String) :
    String :=
  componentKey (renamesBehind config earlier source) schemaKind name

/-- What a source puts in as schemas are its own ones, under their names in the combined document and
with their references redirected. -/
theorem mem_writesBehind_schema {earlier : List Source} {source : Source}
    (hd : source.document.distinct = true) {key : String} {value : Json} :
    ((schemaKind, key), value) ∈ writesBehind config earlier source ↔
      ∃ m ∈ schemasOf source.document, schemaName config earlier source m.1 = key ∧
        (renamesBehind config earlier source).redirectMember m.1 m.2 = value := by
  have hmembers : Source.membersAt (settled config earlier source).document
      ["components", schemaKind] = (schemasOf source.document).map fun m =>
        (m.1, (renamesBehind config earlier source).redirectMember m.1 m.2) :=
    Renames.membersAt_redirect (renamesBehind config earlier source) source.document (by decide)
  have hsettled : (settled config earlier source).document.distinct = true :=
    Renames.distinct_redirect _ hd
  rw [writesBehind, mem_componentWrites_kind hsettled, hmembers]
  constructor
  · rintro ⟨m', hm', hkey, hvalue⟩
    obtain ⟨m, hm, rfl⟩ := List.mem_map.1 hm'
    exact ⟨m, hm, hkey, hvalue⟩
  · rintro ⟨m, hm, hkey, hvalue⟩
    exact ⟨_, List.mem_map.2 ⟨m, hm, rfl⟩, hkey, hvalue⟩

theorem componentKey_of_not_mem {r : Renames} {name : String} (h : name ∉ Entries.keys r) :
    componentKey r schemaKind name = name := by
  rw [componentKey, if_pos rfl, (Entries.get?_eq_none_iff r name).2 h, Option.getD_none]

theorem RenamesOf.componentKey {service : String} {schemas : List (String × Json)} {r : Renames}
    (h : RenamesOf service schemas r) {name : String} (hr : name ∈ Entries.keys r) :
    componentKey r schemaKind name = namespaced service name := by
  obtain ⟨new, hnew⟩ := Option.isSome_iff_exists.1 ((Entries.get?_isSome_iff r name).2 hr)
  rw [MergeState.componentKey, if_pos rfl, hnew, Option.getD_some]
  exact h.named name new hnew

theorem renamesOf_renamesBehind (config : CombineConfig) (earlier : List Source) (source : Source) :
    RenamesOf source.service (schemasOf source.document) (renamesBehind config earlier source) := by
  have hnil : RenamesOf source.service (schemasOf source.document) [] :=
    ⟨by simp [Entries.keys], by simp⟩
  unfold renamesBehind
  cases addAll config earlier with
  | error _ => exact hnil
  | ok before =>
    simp only
    split
    · exact hnil
    · next h => exact renamesOf_schemaRenames h

/-- A schema of a source that keeps its name is new, or the same as an earlier one. -/
theorem keeps_of_addAll {earlier later : List Source} {source : Source} {before : MergeState}
    (h : addAll config (earlier ++ source :: later) = .ok s)
    (hb : addAll config earlier = .ok before) {m : String × Json}
    (hm : m ∈ schemasOf source.document)
    (hr : m.1 ∉ Entries.keys (renamesBehind config earlier source)) :
    Keeps before (renamesBehind config earlier source) m := by
  obtain ⟨before', after, hb', ha, -⟩ := addAll_split h
  rw [hb] at hb'
  cases hb'
  obtain ⟨decided, -, -, hd, -⟩ := add_behind hb ha
  exact kept_of_schemaRenames hd hm hr

/-! ## The components of the combined document -/

/-- The components of a run are a table that was filled by writes. -/
theorem exists_writes_of_addAll {sources : List Source} (h : addAll config sources = .ok s) :
    ∃ writes, s.components = Entries.putAll [] writes := by
  refine addAll_induct (motive := fun _ s => ∃ writes, s.components = Entries.putAll [] writes)
    ⟨[], rfl⟩ ?_ h
  intro done source s t hs ih ht
  obtain ⟨decided, inserted, placed, hd, hi, hp, rfl⟩ := add_behind hs ht
  have hdecided : ∃ writes, decided.components = Entries.putAll [] writes := by
    rw [(keepsComponents_of_schemaRenames hd).components]
    exact ih
  show ∃ writes, placed.components = Entries.putAll [] writes
  rw [(keepsComponents_of_mergePaths hp).components]
  refine mergeComponents_invariant (P := fun t => ∃ writes, t.components = Entries.putAll [] writes)
    hi hdecided ?_ fun _ _ _ _ hu => hu
  rintro u kind key value ⟨writes, hwrites⟩
  refine ⟨writes ++ [((kind, key), value)], ?_⟩
  rw [Entries.putAll_append, ← hwrites]
  rfl

theorem tidy_components_of_addAll {sources : List Source} (h : addAll config sources = .ok s) :
    Entries.Tidy s.components := by
  obtain ⟨writes, hwrites⟩ := exists_writes_of_addAll h
  rw [hwrites]
  exact Entries.tidy_putAll Entries.tidy_nil writes

theorem filled_components_of_addAll {sources : List Source} (h : addAll config sources = .ok s) :
    Entries.Filled s.components := by
  obtain ⟨writes, hwrites⟩ := exists_writes_of_addAll h
  rw [hwrites]
  exact Entries.filled_putAll Entries.filled_nil writes

theorem get?_components_toDocument (s : MergeState) :
    (s.toDocument config).get? "components" =
      Entries.get? (componentsMember s.components) "components" := by
  have htags : Entries.get? (Json.listMember "tags" id s.tags) "components" = none := by
    unfold Json.listMember
    split <;> rfl
  have hget : (s.toDocument config).get? "components" =
      Entries.get? (componentsMember s.components ++ Json.listMember "tags" id s.tags)
        "components" := rfl
  rw [hget]
  cases hc : s.components with
  | nil => exact htags
  | cons => rfl

theorem membersAt_components_toDocument (s : MergeState) :
    Source.membersAt (s.toDocument config) ["components"] =
      s.components.map fun e => (e.1, .object e.2) := by
  unfold Source.membersAt
  rw [Source.lookup?_cons, get?_components_toDocument]
  cases s.components <;> rfl

theorem lookup?_components_toDocument (s : MergeState) (kind key : String) :
    Source.lookup? (s.toDocument config) ["components", kind, key] = s.component? kind key :=
  Source.lookup?_table ["components"] (membersAt_components_toDocument s) kind key

end ApiDescription.MergeState
