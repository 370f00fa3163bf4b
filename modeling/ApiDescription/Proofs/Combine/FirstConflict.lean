import ApiDescription.Proofs.Combine.Settled

/-!
# The first conflict

Two runs over the same sources, one that stops at a conflict and one that records it, go the same way
up to the first conflict. `FirstOf` says this of two computations: the one fails with the first conflict
that the other one records, and they give the same when there is none. Every step of combining is such a
pair and so are steps one after the other, so the strategy `error` fails with the first warning of the
strategy `override` (`combine_error_first_warning`).
-/

set_option autoImplicit false

namespace ApiDescription

/-- The options with another strategy for conflicts. -/
def CombineConfig.withStrategy (strategy : ConflictStrategy) (c : CombineConfig) : CombineConfig :=
  { c with conflictStrategy := strategy }

/-- The combiner with another strategy for conflicts. -/
def Combiner.withStrategy (strategy : ConflictStrategy) (c : Combiner) : Combiner :=
  { c with config := c.config.withStrategy strategy }

/-! ## Two computations -/

/-- How a computation comes out that stops at the first of the conflicts on the way to a value: with the value
when there are none, and else with the first one, and no more on record than there was before. -/
inductive StopsWith {α : Type} (before : List Conflict) (a : α) :
    List Conflict → Except MergeStop α → Prop
  | reached : StopsWith before a [] (.ok a)
  | stopped (c : Conflict) (later : List Conflict) (state : MergeState)
      (h : state.warnings = before) : StopsWith before a (c :: later) (.error ⟨c, state⟩)

/-- Of two computations that start with some warnings, `go` adds further ones to them and gives a value,
and `stop` fails with the first that is added, or else gives the same value. -/
def FirstOf {α : Type} (reported : α → List Conflict) (before : List Conflict)
    (stop go : Except MergeStop α) : Prop :=
  ∃ a added, go = .ok a ∧ reported a = before ++ added ∧ StopsWith before a added stop

namespace FirstOf

variable {α β : Type} {w : α → List Conflict} {v : β → List Conflict}
  {before : List Conflict}

theorem ok {a : α} (h : w a = before) : FirstOf w before (.ok a) (.ok a) :=
  ⟨a, [], rfl, by rw [h, List.append_nil], .reached⟩

theorem bind {stop go : Except MergeStop α} {stop' go' : α → Except MergeStop β}
    (h : FirstOf w before stop go)
    (h' : ∀ a, FirstOf v (w a) (stop' a) (go' a)) :
    FirstOf v before (stop >>= stop') (go >>= go') := by
  obtain ⟨a, added, rfl, ha, hfirst⟩ := h
  obtain ⟨b, added', hb, hadded, hsecond⟩ := h' a
  refine ⟨b, added ++ added', hb, by rw [hadded, ha, List.append_assoc], ?_⟩
  -- what the second computation records only counts when the first one records nothing
  cases hfirst with
  | reached =>
    rw [ha, List.append_nil] at hsecond
    exact hsecond
  | stopped c later state hstate => exact .stopped c (later ++ added') state hstate

theorem map {stop go : Except MergeStop α} {f : α → β} (h : FirstOf w before stop go)
    (hf : ∀ a, v (f a) = w a) :
    FirstOf v before (stop.map f) (go.map f) := by
  obtain ⟨a, added, rfl, ha, hfirst⟩ := h
  refine ⟨f a, added, rfl, (hf a).trans ha, ?_⟩
  cases hfirst with
  | reached => exact .reached
  | stopped c later state hstate => exact .stopped c later state hstate

theorem foldlM {stop go : α → β → Except MergeStop α} {l : List β}
    (h : ∀ b ∈ l, ∀ a, FirstOf w (w a) (stop a b) (go a b)) (a : α) :
    FirstOf w (w a) (l.foldlM stop a) (l.foldlM go a) := by
  induction l generalizing a with
  | nil => exact .ok rfl
  | cons b l ih =>
    rw [List.foldlM_cons, List.foldlM_cons]
    exact (h b List.mem_cons_self a).bind fun a' => ih (fun b hb => h b (List.mem_cons_of_mem _ hb)) a'

theorem ok_iff {stop go : Except MergeStop α} (h : FirstOf w before stop go) {a : α} :
    stop = .ok a ↔ go = .ok a ∧ w a = before := by
  obtain ⟨a', added, rfl, ha, hfirst⟩ := h
  cases hfirst with
  | reached =>
    rw [List.append_nil] at ha
    constructor
    · intro h
      cases h
      exact ⟨rfl, ha⟩
    · rintro ⟨h, -⟩
      cases h
      rfl
  | stopped c later state hstate =>
    constructor
    · intro h
      cases h
    · rintro ⟨h, hreported⟩
      cases h
      rw [ha] at hreported
      simp at hreported

/-- A computation that stops has recorded nothing on its way. -/
theorem warnings_eq {stop : MergeStop} {go : Except MergeStop α}
    (h : FirstOf w before (.error stop) go) : stop.state.warnings = before := by
  obtain ⟨a, added, -, -, hfirst⟩ := h
  cases hfirst with
  | stopped c later state hstate => exact hstate

end FirstOf

namespace MergeState

variable {strategy : ConflictStrategy} {service : String}

/-! ## The steps of combining -/

theorem firstOf_settle (hs : strategy ≠ .error) (c : Conflict) (s : MergeState) :
    FirstOf warnings s.warnings (s.settle .error c) (s.settle strategy c) :=
  ⟨s.record c, [c], settle_ok_iff.2 ⟨hs, rfl⟩, rfl, .stopped c [] s rfl⟩

theorem firstOf_decide (hs : strategy ≠ .error) (p : RenamePass) (schema : String × Json) :
    FirstOf (·.state.warnings) p.state.warnings (decide .error service p schema)
      (decide strategy service p schema) := by
  obtain ⟨name, value⟩ := schema
  simp only [decide]
  cases p.state.component? schemaKind name with
  | none => exact .ok rfl
  | some existing =>
    simp only
    split
    · exact .ok rfl
    · exact (firstOf_settle hs _ p.state).bind fun s => .ok rfl

/-- How deciding goes on behind a round over a number of schemas. -/
def afterRound (strategy : ConflictStrategy) (service : String) (size : Nat) (p : RenamePass) :
    Except MergeStop (MergeState × Renames) :=
  if p.kept.length < size then decideAll strategy service p.state p.renames p.kept
  else .ok ({ p.state with mergedSchemas := p.state.mergedSchemas + p.shared }, p.renames)

theorem decideAll_eq_bind (strategy : ConflictStrategy) (service : String) (s : MergeState)
    (renames : Renames) (schemas : List (String × Json)) :
    decideAll strategy service s renames schemas =
      schemas.foldlM (decide strategy service) { state := s, renames := renames } >>=
        afterRound strategy service schemas.length := by
  rw [decideAll]
  cases schemas.foldlM (decide strategy service) { state := s, renames := renames } <;> rfl

theorem firstOf_decideAll (hs : strategy ≠ .error) (s : MergeState) (renames : Renames)
    (schemas : List (String × Json)) :
    FirstOf (fun r : MergeState × Renames => r.1.warnings) s.warnings
      (decideAll .error service s renames schemas) (decideAll strategy service s renames schemas) := by
  induction hn : schemas.length using Nat.strongRecOn generalizing s renames schemas with
  | ind n ih =>
    rw [decideAll_eq_bind, decideAll_eq_bind]
    refine FirstOf.bind (w := fun p => p.state.warnings)
      (FirstOf.foldlM (fun m _ p => firstOf_decide hs p m) _) fun p => ?_
    unfold afterRound
    by_cases hlt : p.kept.length < schemas.length
    · rw [if_pos hlt, if_pos hlt]
      exact ih p.kept.length (hn ▸ hlt) p.state p.renames p.kept rfl
    · rw [if_neg hlt, if_neg hlt]
      exact .ok rfl

theorem firstOf_insertComponent (hs : strategy ≠ .error) (kind key : String) (value : Json)
    (s : MergeState) :
    FirstOf warnings s.warnings (s.insertComponent .error service kind key value)
      (s.insertComponent strategy service kind key value) := by
  unfold insertComponent
  cases s.component? kind key with
  | none => exact .ok rfl
  | some existing =>
    simp only
    split
    · exact .ok rfl
    · exact (firstOf_settle hs _ s).map fun s => rfl

theorem firstOf_insertOperation (hs : strategy ≠ .error) (path : String) (operation : String × Json)
    (s : MergeState) :
    FirstOf warnings s.warnings (s.insertOperation .error service path operation)
      (s.insertOperation strategy service path operation) := by
  obtain ⟨method, value⟩ := operation
  unfold insertOperation
  simp only
  cases Entries.get? (s.pathItem path) method with
  | none => exact .ok rfl
  | some existing => exact (firstOf_settle hs _ s).bind fun s => .ok rfl

theorem warnings_foldl_putMember (path : String) (ms : List (String × Json)) (s : MergeState) :
    (ms.foldl (fun s m => s.putMember path m.1 m.2) s).warnings = s.warnings := by
  induction ms generalizing s with
  | nil => rfl
  | cons m ms ih => exact ih (s.putMember path m.1 m.2)

/-! ## Whole sources -/

section Sources

variable {config : CombineConfig} (hs : config.conflictStrategy ≠ .error)

include hs

theorem firstOf_schemaRenames (service : String) (document : Json) (s : MergeState) :
    FirstOf (fun r : MergeState × Renames => r.1.warnings) s.warnings
      (s.schemaRenames (config.withStrategy .error) service document)
      (s.schemaRenames config service document) := by
  unfold schemaRenames
  cases hm : config.mergeSchemas with
  | true =>
    simp only [CombineConfig.withStrategy, hm, if_true]
    exact firstOf_decideAll hs s [] _
  | false =>
    simp only [CombineConfig.withStrategy, hm]
    exact .ok rfl

theorem firstOf_mergeItem (source : Source) (security : Option Json) (s : MergeState)
    (entry : String × Json) :
    FirstOf warnings s.warnings (s.mergeItem (config.withStrategy .error) source security entry)
      (s.mergeItem config source security entry) := by
  obtain ⟨path, item⟩ := entry
  have hkept : retained (config.withStrategy .error).tagFilter source security item =
    retained config.tagFilter source security item := rfl
  unfold mergeItem
  simp only [hkept]
  cases retained config.tagFilter source security item with
  | nil => exact .ok rfl
  | cons o operations =>
    simp only
    rw [← warnings_foldl_putMember]
    exact FirstOf.foldlM (fun o _ u => firstOf_insertOperation hs _ o u) _

theorem firstOf_add (s : MergeState) (source : Source) :
    FirstOf warnings s.warnings (add (config.withStrategy .error) s source) (add config s source) := by
  unfold add
  refine (firstOf_schemaRenames hs source.service source.document s).bind ?_
  rintro ⟨decided, renames⟩
  refine FirstOf.bind (w := warnings) (FirstOf.foldlM (fun c _ u => ?_) decided) fun inserted =>
    FirstOf.bind (w := warnings) (FirstOf.foldlM (fun e _ u => ?_) inserted) fun placed => .ok rfl
  · exact firstOf_insertComponent hs _ _ _ u
  · exact firstOf_mergeItem hs source _ u e

theorem firstOf_addAll (sources : List Source) :
    FirstOf warnings [] (addAll (config.withStrategy .error) sources) (addAll config sources) :=
  FirstOf.foldlM (fun source _ u => firstOf_add hs u source) {}

end Sources

/-- A run that stops at conflicts comes out in one of two ways, and records nothing in either. -/
theorem firstOf_addAll_override {config : CombineConfig} (hs : config.conflictStrategy = .error)
    (sources : List Source) :
    FirstOf warnings [] (addAll config sources) (addAll (config.withStrategy .override) sources) := by
  have hoverride : (config.withStrategy .override).conflictStrategy ≠ .error := by
    simp [CombineConfig.withStrategy]
  have hconfig : (config.withStrategy .override).withStrategy .error = config := by
    rw [← hs]
    rfl
  have hfirst := firstOf_addAll hoverride sources
  rwa [hconfig] at hfirst

end MergeState

/-! ## Whole runs -/

/-- A run that stops at conflicts goes as one that records them: up to the first one. -/
structure StopsAtFirst (stopping recording : Combiner) : Prop where
  /-- It succeeds exactly when the other one has nothing to record. -/
  succeeds_iff : (∃ document, stopping.combine.2 = .ok document) ↔ recording.combine.1.warnings = []
  /-- Then both give the same document, and count the same. -/
  same : recording.combine.1.warnings = [] →
    stopping.combine.2 = recording.combine.2 ∧ stopping.combine.1.stats = recording.combine.1.stats
  /-- Else it fails with the first conflict that the other one records. -/
  first : ∀ conflict later, recording.combine.1.warnings = conflict :: later →
    stopping.combine.2 = .error (.conflict conflict)

/-- Combining with the strategy `error` succeeds exactly when the strategy `override` records no warning, with the
same document and the same counts, and fails with the first warning otherwise. The strategy `override` always
gives a document. -/
theorem combine_error_first_warning (c : Combiner) (hne : c.sources ≠ []) :
    (∃ document, (c.withStrategy .override).combine.2 = .ok document) ∧
      StopsAtFirst (c.withStrategy .error) (c.withStrategy .override) := by
  have hoverride : (c.config.withStrategy .override).conflictStrategy ≠ .error := by
    simp [CombineConfig.withStrategy]
  obtain ⟨s, added, hgo, hadded, hstop⟩ := MergeState.firstOf_addAll hoverride c.sources
  have hrecording := Combiner.combine_eq (c := c.withStrategy .override) hne hgo
  have hwarnings : (c.withStrategy .override).combine.1.warnings = added := by
    rw [hrecording]
    exact hadded
  refine ⟨⟨_, by rw [hrecording]⟩, ?_⟩
  generalize hrun : MergeState.addAll ((c.config.withStrategy .override).withStrategy .error) c.sources =
    stopping at hstop
  cases hstop with
  | reached =>
    have hstopping := Combiner.combine_eq (c := c.withStrategy .error) hne hrun
    refine ⟨⟨fun _ => hwarnings, fun _ => ⟨_, by rw [hstopping]⟩⟩, ?_, ?_⟩
    · intro _
      rw [hstopping, hrecording]
      exact ⟨rfl, rfl⟩
    · intro conflict later h
      rw [hwarnings] at h
      cases h
  | stopped conflict later state _ =>
    have hstopping : (c.withStrategy .error).combine.2 = .error (.conflict conflict) :=
      congrArg Prod.snd (Combiner.combine_eq_error (c := c.withStrategy .error) hne hrun)
    refine ⟨⟨?_, ?_⟩, ?_, ?_⟩
    · rintro ⟨document, h⟩
      rw [hstopping] at h
      cases h
    · intro h
      rw [hwarnings] at h
      cases h
    · intro h
      rw [hwarnings] at h
      cases h
    · intro conflict' later' h
      rw [hwarnings] at h
      cases h
      exact hstopping

/-- Two services whose users differ, and that list them under one path. -/
def twoUsers : Combiner where
  config := {}
  sources :=
    let document (user : String) : Json := .object
      [("paths", .object [("/users", .object [("get", .object [("summary", .string user)])])]),
        ("components", .object [("schemas", .object [("User", .object [("type", .string user)])])])]
    [{ service := "a", document := document "string" },
      { service := "b", document := document "object" }]

theorem combine_error_first_warning_twoUsers :
    twoUsers.sources ≠ [] ∧
      (twoUsers.withStrategy .override).combine.1.warnings =
        [⟨.schema "User", "b", "a"⟩, ⟨.operation "get" "/users", "b", "a"⟩] ∧
      (∃ document, (twoUsers.withStrategy .override).combine.2 = .ok document) ∧
      StopsAtFirst (twoUsers.withStrategy .error) (twoUsers.withStrategy .override) := by
  have hne : twoUsers.sources ≠ [] := by simp [twoUsers]
  exact ⟨hne, by decide +kernel, combine_error_first_warning twoUsers hne⟩

end ApiDescription
