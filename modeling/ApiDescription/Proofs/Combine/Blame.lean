import ApiDescription.Proofs.Combine.Counts
import ApiDescription.Proofs.Combine.References
import ApiDescription.Proofs.Combine.Security

/-!
# Whom a conflict names

No table holds which service an operation came from: a conflict reads it off the tags of the operation that
stands there. A run is followed by the operations that it puts in, each with its service and with the service
that its tags record (`Recounts`); so its conflicts tell of the overwrites among them in their order, and name
what the operation put there last has on record (`reported_addAll`). That is the service which put it there,
unless the operation is no object, or has the tag of another service in front of its own
(`recordedFor_eq_iff`).
-/

set_option autoImplicit false

namespace ApiDescription

/-! ## Tags of services -/

namespace Service

theorem stripStart?_tagStart_iff {text service : String} :
    stripStart? tagStart text = some service ↔ text = tag service := stripStart?_eq_some_iff

theorem stripStart?_tag (service : String) : stripStart? tagStart (tag service) = some service :=
  stripStart?_append _ _

theorem ofTags?_eq_none_iff {tags : List String} : ofTags? tags = none ↔ ∀ service, tag service ∉ tags := by
  rw [ofTags?, List.findSome?_eq_none_iff]
  constructor
  · intro hnone service hmem
    have hstrip := hnone _ hmem
    rw [stripStart?_tag] at hstrip
    nomatch hstrip
  · intro hnone text htext
    by_contra hstrip
    obtain ⟨service, hservice⟩ := Option.ne_none_iff_exists'.1 hstrip
    rw [stripStart?_tagStart_iff.1 hservice] at htext
    exact hnone service htext

theorem tag_mem_of_ofTags? {tags : List String} {service : String} (h : ofTags? tags = some service) :
    tag service ∈ tags := by
  obtain ⟨text, htext, hstrip⟩ := List.exists_of_findSome?_eq_some h
  rwa [← stripStart?_tagStart_iff.1 hstrip]

/-- Tags that hold the tag of a service record that service exactly when no tag of another one stands in
front. -/
theorem ofTags?_eq_some_iff {tags : List String} {service : String} (hown : tag service ∈ tags) :
    ofTags? tags = some service ↔ ¬ ∃ other, tag other ∈ tags.takeWhile (· != tag service) := by
  obtain ⟨before, after, rfl, hbefore⟩ := List.eq_append_cons_of_mem hown
  have hfront : (before ++ tag service :: after).takeWhile (· != tag service) = before := by
    rw [List.takeWhile_append_of_pos, List.takeWhile_cons_of_neg (by simp), List.append_nil]
    intro text htext
    have hne : text ≠ tag service := fun heq => hbefore (heq ▸ htext)
    simpa using hne
  have hcut : ofTags? (before ++ tag service :: after) = (ofTags? before).or (some service) := by
    rw [ofTags?, List.findSome?_append, List.findSome?_cons, stripStart?_tag]
    rfl
  rw [hfront, hcut, not_exists, ← ofTags?_eq_none_iff]
  cases hother : ofTags? before with
  | none => simp
  | some other =>
    -- the tag found in front is not the own one, since that one does not stand there
    have hne : other ≠ service := by
      rintro rfl
      exact hbefore (tag_mem_of_ofTags? hother)
    simp [hne]

end Service

namespace MergeState

variable {config : CombineConfig} {strategy : ConflictStrategy} {service : String} {source : Source}
  {sources : List Source} {s t : MergeState}

/-! ## What the tags of an operation record -/

/-- The service that the tags of an operation record. -/
def recordedService (operation : Json) : String :=
  (Service.ofTags? (tagsOf operation)).getD unknownOwner

/-- The tags that say something about an operation of a source: its own, and those of the source. -/
def statedTags (source : Source) (operation : Json) : List String := tagsOf operation ++ source.tags

/-- The service that the tags of an operation of a source record in the combined document. -/
def recordedFor (source : Source) (operation : Json) : String :=
  if operation.isObject = false then unknownOwner
  else if Service.tag source.service ∈ statedTags source operation then
    (Service.ofTags? (statedTags source operation)).getD unknownOwner
  else source.service

/-- The operation is no object, so that it has no tags, or the tag of its service stands behind that of
another one. -/
def Misrecorded (source : Source) (operation : Json) : Prop :=
  (operation.isObject = false ∧ source.service ≠ unknownOwner) ∨
    (operation.isObject = true ∧ Service.tag source.service ∈ statedTags source operation ∧
      ∃ other, Service.tag other ∈
        (statedTags source operation).takeWhile (· != Service.tag source.service))

theorem mem_foldl_addTag_iff {tags added : List String} {tag : String} :
    tag ∈ added.foldl addTag tags ↔ tag ∈ tags ++ added := by
  induction added generalizing tags with
  | nil => simp
  | cons first added ih =>
    have hfirst : tag ∈ addTag tags first ↔ tag ∈ tags ∨ tag = first := by
      unfold addTag
      split
      · next hin =>
        have hmem : first ∈ tags := List.contains_iff_mem.1 hin
        exact ⟨Or.inl, fun h => h.elim id fun heq => heq ▸ hmem⟩
      · simp
    rw [List.foldl_cons, ih]
    simp only [List.mem_append, List.mem_cons, hfirst, or_assoc]

/-- A search of tags does not see that repeated ones are left out. -/
theorem findSome?_foldl_addTag {β : Type} (f : String → Option β) (tags added : List String) :
    (added.foldl addTag tags).findSome? f = (tags ++ added).findSome? f := by
  induction added generalizing tags with
  | nil => rw [List.append_nil]; rfl
  | cons tag added ih =>
    have hone : (addTag tags tag).findSome? f = (tags.findSome? f).or (f tag) := by
      unfold addTag
      split
      · next hin =>
        cases hf : tags.findSome? f with
        | some b => rfl
        | none =>
          have hnone : f tag = none := List.findSome?_eq_none_iff.1 hf tag (List.contains_iff_mem.1 hin)
          rw [hnone]
          rfl
      · rw [List.findSome?_append]
        cases hf : f tag <;> simp [hf]
    rw [List.foldl_cons, ih, List.findSome?_append, hone, List.findSome?_append, List.findSome?_cons,
      Option.or_assoc]
    cases f tag <;> rfl

theorem ofTags?_combinedTags (source : Source) (operation : Json) :
    Service.ofTags? (combinedTags source operation) =
      if Service.tag source.service ∈ statedTags source operation then
        Service.ofTags? (statedTags source operation)
      else some source.service := by
  have hall : Service.ofTags? (source.tags.foldl addTag (tagsOf operation)) =
      Service.ofTags? (statedTags source operation) := findSome?_foldl_addTag _ _ _
  rw [combinedTags_eq]
  by_cases hown : Service.tag source.service ∈ statedTags source operation
  · have hin : (source.tags.foldl addTag (tagsOf operation)).contains (Service.tag source.service) = true :=
      List.contains_iff_mem.2 (mem_foldl_addTag_iff.2 hown)
    rw [if_pos hin, if_pos hown, hall]
  · have hout : ¬ (source.tags.foldl addTag (tagsOf operation)).contains
        (Service.tag source.service) = true :=
      fun hin => hown (mem_foldl_addTag_iff.1 (List.contains_iff_mem.1 hin))
    rw [if_neg hout, if_neg hown, Service.ofTags?, List.findSome?_cons, Service.stripStart?_tag]

theorem recordedService_prepare (source : Source) (security : Option Json) (operation : Json) :
    recordedService (prepare source security operation) = recordedFor source operation := by
  cases operation with
  | object members =>
    have hobject : ¬ (Json.object members).isObject = false := by simp [Json.isObject]
    rw [recordedService, tagsOf_prepare, recordedFor, if_neg hobject, ofTags?_combinedTags]
    split <;> rfl
  | _ => rfl

/-- The tags of an operation record the service that it came from, unless they are misleading. -/
theorem recordedFor_eq_iff (source : Source) (operation : Json) :
    recordedFor source operation = source.service ↔ ¬ Misrecorded source operation := by
  unfold recordedFor Misrecorded
  cases hobject : operation.isObject with
  | false => simp [eq_comm]
  | true =>
    by_cases hown : Service.tag source.service ∈ statedTags source operation
    · have hsome : Service.ofTags? (statedTags source operation) ≠ none :=
        fun hnone => Service.ofTags?_eq_none_iff.1 hnone _ hown
      obtain ⟨recorded, hrecorded⟩ := Option.ne_none_iff_exists'.1 hsome
      have hiff := Service.ofTags?_eq_some_iff hown
      rw [hrecorded, Option.some_inj] at hiff
      simp [hown, hrecorded, hiff]
    · simp [hown]

/-! ## Operations that give way -/

/-- A value that goes in under a path and a method, and the one that was put there last. -/
structure Overwrite (α : Type) where
  path : String
  method : String
  next : α
  last : α

/-- The conflict that tells of an overwrite, given whom it names for the two values. -/
def Overwrite.conflict {α : Type} (service previous : α → String) (o : Overwrite α) : Conflict :=
  ⟨.operation o.method o.path, service o.next, previous o.last⟩

section

variable {α β : Type}

/-- A value that goes in behind others overwrites the last of them under its path and method. -/
def overwrite? (before : List ((String × String) × α)) (w : (String × String) × α) : Option (Overwrite α) :=
  (before.reverse.lookup w.1).map fun last => ⟨w.1.1, w.1.2, w.2, last⟩

/-- The overwrites by values that go in behind others, one after the other. -/
def overwritesBehind (before : List ((String × String) × α)) :
    List ((String × String) × α) → List (Overwrite α)
  | [] => []
  | w :: rest => (overwrite? before w).toList ++ overwritesBehind (before ++ [w]) rest

theorem overwritesBehind_concat (before ws : List ((String × String) × α)) (w : (String × String) × α) :
    overwritesBehind before (ws ++ [w]) =
      overwritesBehind before ws ++ (overwrite? (before ++ ws) w).toList := by
  induction ws generalizing before with
  | nil => simp [overwritesBehind]
  | cons first ws ih =>
    rw [List.cons_append, overwritesBehind, ih, overwritesBehind, List.append_assoc, List.append_assoc,
      List.singleton_append]

/-- Overwrites go by paths and methods alone, whatever is kept of the values. -/
theorem overwritesBehind_map (f : α → β) (before ws : List ((String × String) × α)) :
    overwritesBehind (before.map fun w => (w.1, f w.2)) (ws.map fun w => (w.1, f w.2)) =
      (overwritesBehind before ws).map fun o => ⟨o.path, o.method, f o.next, f o.last⟩ := by
  induction ws generalizing before with
  | nil => rfl
  | cons w ws ih =>
    have hone : overwrite? (before.map fun w => (w.1, f w.2)) (w.1, f w.2) =
        (overwrite? before w).map fun o => ⟨o.path, o.method, f o.next, f o.last⟩ := by
      unfold overwrite?
      rw [← List.map_reverse, Entries.lookup_map, Option.map_map, Option.map_map]
      rfl
    have hrest := ih (before ++ [w])
    rw [List.map_append, List.map_singleton] at hrest
    rw [List.map_cons, overwritesBehind, overwritesBehind, List.map_append, hone, hrest]
    cases overwrite? before w <;> rfl

end

/-- What a conflict has to say of an operation that was put in: the service that put it there, and the one
that its tags record. -/
structure Credit where
  service : String
  recorded : String

/-- The conflicts about operations that a state reports tell of the overwrites among those put in, and the tags
of the operations that stand record what those put in last do. -/
structure Recounts (s : MergeState) (ws : List ((String × String) × Credit)) : Prop where
  reported : s.warnings.filter (·.subject.isOperation) =
    (overwritesBehind [] ws).map (Overwrite.conflict Credit.service Credit.recorded)
  standing : ∀ path method, DocumentFault.isMethod method = true →
    (Entries.at? s.paths path method).map recordedService =
      (ws.reverse.lookup (path, method)).map Credit.recorded

theorem Recounts.record {ws : List ((String × String) × Credit)} (h : Recounts s ws) {c : Conflict}
    (hc : c.subject.isOperation = false) : Recounts (s.record c) ws where
  reported := by
    rw [← h.reported]
    simp [MergeState.record, hc]
  standing := h.standing

theorem Recounts.sameContent {ws : List ((String × String) × Credit)} (h : Recounts s ws)
    (hwarnings : t.warnings = s.warnings) (hpaths : t.paths = s.paths) : Recounts t ws where
  reported := by rw [hwarnings, h.reported]
  standing := by rw [hpaths]; exact h.standing

/-- A member that is no operation is put in besides them. -/
theorem Recounts.putMember {ws : List ((String × String) × Credit)} (h : Recounts s ws)
    {path name : String} (hname : DocumentFault.isMethod name = false) (value : Json) :
    Recounts (s.putMember path name value) ws where
  reported := h.reported
  standing := by
    intro path' method hmethod
    have hne : (path', method) ≠ (path, name) := by
      intro heq
      rw [(Prod.mk.inj heq).2, hname] at hmethod
      nomatch hmethod
    show (Entries.at? (Entries.putAt s.paths path name value) path' method).map recordedService = _
    rw [Entries.at?_putAt_ne _ _ hne]
    exact h.standing path' method hmethod

/-- An operation that is put in takes the place of the last one under its path and method. -/
theorem Recounts.insertOperation {ws : List ((String × String) × Credit)} (h : Recounts s ws)
    {path method : String} (hmethod : DocumentFault.isMethod method = true) {value : Json}
    (ht : s.insertOperation strategy service path (method, value) = .ok t) :
    Recounts t (ws ++ [((path, method), ⟨service, recordedService value⟩)]) := by
  have hplaces := places_of_insertOperation ht
  have hlast := h.standing path method hmethod
  constructor
  case reported =>
    rw [overwritesBehind_concat, List.nil_append, List.map_append, ← h.reported, overwrite?]
    cases hplaces with
    | absent hnone =>
      rw [hnone, Option.map_none] at hlast
      have hnew : ws.reverse.lookup (path, method) = none := Option.map_eq_none_iff.1 hlast.symm
      rw [hnew]
      exact (List.append_nil _).symm
    | replaced existing hsome =>
      rw [hsome, Option.map_some] at hlast
      obtain ⟨last, hfound, hrecorded⟩ := Option.map_eq_some_iff.1 hlast.symm
      have hkept : (s.record ⟨.operation method path, service, recordedService existing⟩).warnings.filter
          (·.subject.isOperation) = s.warnings.filter (·.subject.isOperation) ++
            [⟨.operation method path, service, recordedService existing⟩] := by
        simp [MergeState.record, ConflictSubject.isOperation]
      rw [hfound, Option.map_some, Option.toList_some, List.map_singleton, Overwrite.conflict, hrecorded]
      exact hkept
  case standing =>
    intro path' method' hmethod'
    rw [paths_of_places hplaces, List.reverse_append, List.reverse_singleton, List.singleton_append,
      List.lookup_cons]
    by_cases heq : (path', method') = (path, method)
    · obtain ⟨rfl, rfl⟩ := Prod.mk.inj heq
      simp
    · rw [Entries.at?_putAt_ne _ _ heq, beq_eq_false_iff_ne.2 heq]
      exact h.standing path' method' hmethod'

/-! ## Whole sources -/

/-- The operations among the members that a service puts in. -/
def creditsOf (service : String) (writes : List ((String × String) × Json)) :
    List ((String × String) × Credit) :=
  (writes.filter fun w => DocumentFault.isMethod w.1.2).map fun w => (w.1, ⟨service, recordedService w.2⟩)

theorem Recounts.placeWrites {ws : List ((String × String) × Credit)} (h : Recounts s ws)
    {writes : List ((String × String) × Json)}
    (ht : writes.foldlM (placeWrite strategy service) s = .ok t) :
    Recounts t (ws ++ creditsOf service writes) := by
  induction writes generalizing s ws with
  | nil =>
    cases ht
    rw [creditsOf, List.filter_nil, List.map_nil, List.append_nil]
    exact h
  | cons w writes ih =>
    obtain ⟨u, hu, hr⟩ := foldlM_cons_ok.1 ht
    unfold placeWrite at hu
    cases hmethod : DocumentFault.isMethod w.1.2 with
    | true =>
      rw [if_pos hmethod] at hu
      have hnext := ih (h.insertOperation hmethod hu) hr
      have hcredits : creditsOf service (w :: writes) =
          (w.1, ⟨service, recordedService w.2⟩) :: creditsOf service writes := by
        simp [creditsOf, hmethod]
      rw [hcredits]
      simpa using hnext
    | false =>
      rw [if_neg (by simp [hmethod])] at hu
      cases hu
      have hnext := ih (h.putMember hmethod w.2) hr
      have hcredits : creditsOf service (w :: writes) = creditsOf service writes := by
        simp [creditsOf, hmethod]
      rw [hcredits]
      exact hnext

/-- What a conflict has to say of an operation, by the source that it comes from. -/
def credit (w : (String × String) × (Source × Json)) : (String × String) × Credit :=
  (w.1, ⟨w.2.1.service, recordedFor w.2.1 w.2.2⟩)

theorem creditsOf_sourceWrites (source : Source) :
    creditsOf source.service (sourceWrites config source) = (keptOrigins config source).map credit := by
  have hservice : ∀ w ∈ keptOrigins config source, w.2.1 = source := by
    intro w hw
    obtain ⟨e, -, hw⟩ := List.mem_flatMap.1 hw
    obtain ⟨o, -, rfl⟩ := List.mem_map.1 hw
    rfl
  rw [creditsOf, filter_sourceWrites, keptOperations_eq_map, List.map_map]
  refine List.map_congr_left fun w hw => ?_
  show (w.1, Credit.mk source.service (recordedService (prepare w.2.1 _ w.2.2))) = credit w
  rw [recordedService_prepare, credit, hservice w hw]

/-- Redirecting changes neither where an operation goes nor what is on its record. -/
theorem map_credit_keptOrigins_settled (earlier : List Source) (source : Source) :
    (keptOrigins config (settled config earlier source)).map credit =
      (keptOrigins config source).map credit := by
  have hpaths : Source.membersAt (settled config earlier source).document ["paths"] =
      (Source.membersAt source.document ["paths"]).map fun m =>
        (m.1, (renamesBehind config earlier source).redirectMember m.1 m.2) :=
    Renames.membersAt_redirect _ _ (by decide)
  unfold keptOrigins
  rw [hpaths, List.flatMap_map, List.map_flatMap, List.map_flatMap]
  refine List.flatMap_congr fun e _ => ?_
  obtain ⟨f, htags, hobject, hops⟩ := Renames.operationsOf_redirectMember
    (renamesBehind config earlier source) e.1 e.2
  have hcredit : ∀ o, recordedFor (settled config earlier source) (f o) = recordedFor source o := by
    intro o
    rw [recordedFor, statedTags, htags, hobject]
    rfl
  simp only [hops, List.filter_map, List.map_map, Function.comp_def, htags, credit, hcredit]
  rfl

theorem Recounts.add {ws : List ((String × String) × Credit)} (h : Recounts s ws) {earlier : List Source}
    {source : Source} (hs : addAll config earlier = .ok s) (ht : add config s source = .ok t) :
    Recounts t (ws ++ (keptOrigins config source).map credit) := by
  obtain ⟨decided, inserted, placed, hd, hi, hp, rfl⟩ := add_behind hs ht
  have hdecided : Recounts decided ws :=
    schemaRenames_invariant (P := fun u => Recounts u ws) hd h (fun _ _ _ hu => hu.record rfl)
      fun _ _ hu => hu.sameContent rfl rfl
  have hinserted : Recounts inserted ws :=
    mergeComponents_invariant (P := fun u => Recounts u ws) hi hdecided
      (fun _ _ _ _ hu => hu.sameContent rfl rfl) fun _ _ _ _ hu => hu.record rfl
  have hwrites : (sourceWrites config (settled config earlier source)).foldlM
      (placeWrite config.conflictStrategy source.service) inserted = .ok placed :=
    (mergePaths_eq_foldlM (settled config earlier source) inserted).symm.trans hp
  have hplaced := hinserted.placeWrites hwrites
  have hservice : (settled config earlier source).service = source.service := rfl
  rw [← hservice, creditsOf_sourceWrites, map_credit_keptOrigins_settled] at hplaced
  exact hplaced.sameContent rfl rfl

/-- The operations of the sources that the filter keeps, in the order in which they go in. -/
def history (config : CombineConfig) (sources : List Source) : List ((String × String) × (Source × Json)) :=
  sources.flatMap (keptOrigins config)

theorem recounts_addAll (h : addAll config sources = .ok s) :
    Recounts s ((history config sources).map credit) := by
  refine addAll_induct (motive := fun sources s => Recounts s ((history config sources).map credit))
    ⟨rfl, fun _ _ _ => rfl⟩ ?_ h
  intro done source s t hs ih ht
  have hnext := ih.add hs ht
  rwa [← List.map_append, history, ← List.flatMap_singleton (keptOrigins config) source,
    ← List.flatMap_append] at hnext

/-- The operations of the sources that give way, each with the one that takes its place. -/
def overwrites (config : CombineConfig) (sources : List Source) : List (Overwrite (Source × Json)) :=
  overwritesBehind [] (history config sources)

theorem reported_addAll (h : addAll config sources = .ok s) :
    s.warnings.filter (·.subject.isOperation) = (overwrites config sources).map
      (Overwrite.conflict (·.1.service) fun w => recordedFor w.1 w.2) := by
  have hmap := overwritesBehind_map (fun w : Source × Json => Credit.mk w.1.service (recordedFor w.1 w.2)) []
    (history config sources)
  rw [List.map_nil] at hmap
  rw [(recounts_addAll h).reported]
  refine (congrArg _ hmap).trans ?_
  rw [List.map_map]
  rfl

end MergeState

/-! ## What a run tells of -/

namespace Combiner

/-- The conflicts that a run tells of: its warnings, and the one that it fails with. -/
def reports (c : Combiner) : List Conflict :=
  c.combine.1.warnings ++
    match c.combine.2 with
    | .error (.conflict conflict) => [conflict]
    | _ => []

/-- What a run tells of are the first warnings of a run over the same sources that nothing stops. -/
theorem reports_prefix_warnings {c : Combiner} (hne : c.sources ≠ []) :
    ∃ strategy s, MergeState.addAll (c.config.withStrategy strategy) c.sources = .ok s ∧
      c.reports <+: s.warnings ∧ (c.config.conflictStrategy ≠ .error → c.reports = s.warnings) := by
  by_cases hs : c.config.conflictStrategy = .error
  · obtain ⟨s, added, hgo, hadded, hstop⟩ := MergeState.firstOf_addAll_override hs c.sources
    refine ⟨.override, s, hgo, ?_, absurd hs⟩
    rw [hadded, List.nil_append]
    generalize hrun : MergeState.addAll c.config c.sources = stopping at hstop
    cases hstop with
    | reached =>
      rw [reports, combine_eq hne hrun, hadded]
      exact List.prefix_refl []
    | stopped first later state hstate =>
      rw [reports, combine_eq_error hne hrun]
      show state.warnings ++ [first] <+: first :: later
      rw [hstate]
      exact ⟨later, rfl⟩
  · obtain ⟨s, hgo⟩ := MergeState.exists_addAll_ok hs c.sources
    have hall : c.reports = s.warnings := by
      rw [reports, combine_eq hne hgo]
      exact List.append_nil _
    exact ⟨c.config.conflictStrategy, s, hgo, hall ▸ List.prefix_refl _, fun _ => hall⟩

end Combiner

/-- The conflicts about operations, be they warnings or what the run fails with, tell of the overwrites among
the operations of the sources, one by one: all of them under a strategy that goes on, and the first ones else.
Each names the service on record for the operation put there last, which is the service that put it there
exactly when the tags of that operation are not misleading. -/
theorem combine_blames_last_writer_iff (c : Combiner) (hne : c.sources ≠ []) :
    (c.reports.filter (·.subject.isOperation) <+: (MergeState.overwrites c.config c.sources).map
      (MergeState.Overwrite.conflict (·.1.service) fun w => MergeState.recordedFor w.1 w.2)) ∧
    (c.config.conflictStrategy ≠ .error →
      c.reports.filter (·.subject.isOperation) = (MergeState.overwrites c.config c.sources).map
        (MergeState.Overwrite.conflict (·.1.service) fun w => MergeState.recordedFor w.1 w.2)) ∧
    ∀ o ∈ MergeState.overwrites c.config c.sources,
      MergeState.recordedFor o.last.1 o.last.2 = o.last.1.service ↔
        ¬ MergeState.Misrecorded o.last.1 o.last.2 := by
  obtain ⟨strategy, s, hrun, hfirst, hall⟩ := Combiner.reports_prefix_warnings hne
  -- which operations give way does not depend on the strategy
  have hreported := MergeState.reported_addAll hrun
  refine ⟨?_, ?_, fun o _ => MergeState.recordedFor_eq_iff _ _⟩
  · exact hreported ▸ hfirst.filter _
  · intro hs
    rw [hall hs]
    exact hreported

/-- Three services that list users, of which the second one still has the tag of the first on its operation. -/
def passedOn : Combiner where
  config := {}
  sources :=
    let document (tags : List String) : Json := .object
      [("paths", .object [("/users", .object [("get", .object [("tags", .array (tags.map .string))])])])]
    [{ service := "a", document := document [] },
      { service := "b", document := document ["service:a", "service:b"] },
      { service := "c", document := document [] }]

theorem combine_blames_last_writer_iff_passedOn :
    passedOn.sources ≠ [] ∧ passedOn.config.conflictStrategy ≠ .error ∧
      passedOn.reports = [⟨.operation "get" "/users", "b", "a"⟩, ⟨.operation "get" "/users", "c", "a"⟩] ∧
      passedOn.reports.filter (·.subject.isOperation) =
        (MergeState.overwrites passedOn.config passedOn.sources).map
          (MergeState.Overwrite.conflict (·.1.service) fun w => MergeState.recordedFor w.1 w.2) ∧
      ∀ o ∈ MergeState.overwrites passedOn.config passedOn.sources,
        MergeState.recordedFor o.last.1 o.last.2 = o.last.1.service ↔
          ¬ MergeState.Misrecorded o.last.1 o.last.2 := by
  have hne : passedOn.sources ≠ [] := by simp [passedOn]
  have hgo : passedOn.config.conflictStrategy ≠ .error := by decide
  have hreports : passedOn.reports =
      [⟨.operation "get" "/users", "b", "a"⟩, ⟨.operation "get" "/users", "c", "a"⟩] := by decide +kernel
  obtain ⟨-, hall, hiff⟩ := combine_blames_last_writer_iff passedOn hne
  exact ⟨hne, hgo, hreports, hall hgo, hiff⟩

/-- The operation of the second service gives way to that of the third, and the warning names the first. -/
theorem passedOn_blames_another :
    ¬ passedOn.reports.filter (·.subject.isOperation) <+:
      (MergeState.overwrites passedOn.config passedOn.sources).map
        (MergeState.Overwrite.conflict (·.1.service) (·.1.service)) := by
  decide +kernel

end ApiDescription
