import ApiDescription.Proofs.Combine.SchemaRenames
import ApiDescription.Proofs.Combine.Source

/-!
# What deciding on schemas amounts to

Renames are added one after the other, each because a schema differs from the earlier one of its name once the
renames before it are followed (`Forced`). A round keeps the schemas that are not renamed by then, and counts those
whose names are taken (`Tally`), so it leaves fewer schemas exactly when it renames one (`length_kept_lt_iff`). Only
the last round renames nothing and adds what it counted, so over all rounds every conflict is one rename, and every
schema that shares its name is counted once (`decided_of_decideAll`).
-/

set_option autoImplicit false

namespace ApiDescription.MergeState

variable {strategy : ConflictStrategy} {service : String}
  {s t : MergeState} {renames r : Renames} {schemas all : List (String × Json)}

/-! ## Renames one after the other -/

/-- Each of the renames was made of a schema that is not the same as the one under its name, its references
following the renames before. -/
inductive Forced (s : MergeState) (service : String) (schemas : List (String × Json)) : Renames → Prop
  | nil : Forced s service schemas []
  | concat {r : Renames} {name : String} {value existing : Json} (h : Forced s service schemas r)
      (hm : (name, value) ∈ schemas) (hnew : name ∉ Entries.keys r)
      (hexisting : s.component? schemaKind name = some existing)
      (hsame : existing.same (r.redirect value) = false) :
      Forced s service schemas (r ++ [(name, namespaced service name)])

theorem Forced.nodup (h : Forced s service schemas r) : (Entries.keys r).Nodup := by
  induction h with
  | nil => exact List.nodup_nil
  | @concat r name _ _ _ _ hnew _ _ ih =>
    rw [Entries.keys_concat, ← List.concat_eq_append]
    exact ih.concat hnew

theorem Forced.named (h : Forced s service schemas r) :
    ∀ e ∈ r, e.1 ∈ Entries.keys schemas ∧ e.2 = namespaced service e.1 := by
  induction h with
  | nil => simp
  | concat _ hm _ _ _ ih =>
    intro e he
    rcases List.mem_append.1 he with he | he
    · exact ih e he
    · cases List.mem_singleton.1 he
      exact ⟨Entries.mem_keys_of_mem hm, rfl⟩

/-! ## One round -/

/-- An earlier source has a schema of that name. -/
def isTaken (s : MergeState) (schema : String × Json) : Bool := (s.component? schemaKind schema.1).isSome

/-- The schema has no new name. -/
def isKept (r : Renames) (schema : String × Json) : Bool := !Entries.has r schema.1

theorem isKept_iff {m : String × Json} : isKept r m = true ↔ m.1 ∉ Entries.keys r := by
  rw [isKept, Bool.not_eq_true', Entries.has, Option.isSome_eq_false_iff, Option.isNone_iff_eq_none,
    Entries.get?_eq_none_iff]

/-- What a round has come to behind some of its schemas. -/
structure Tally (s : MergeState) (service : String) (all : List (String × Json)) (renames : Renames)
    (done : List (String × Json)) (p : RenamePass) : Prop where
  forced : Forced s service all p.renames
  keys : Entries.keys p.renames ⊆ Entries.keys renames ++ Entries.keys done
  kept : p.kept = done.filter (isKept p.renames)
  shared : p.shared = p.kept.countP s.isTaken
  conflicts : p.state.conflicts + renames.length = s.conflicts + p.renames.length
  mergedSchemas : p.state.mergedSchemas = s.mergedSchemas

/-- The names of the schemas, and those renamed before, are distinct. -/
def Fresh (renames : Renames) (schemas : List (String × Json)) : Prop :=
  (Entries.keys renames ++ Entries.keys schemas).Nodup

theorem Fresh.nodup (h : Fresh renames schemas) : (Entries.keys schemas).Nodup :=
  (List.nodup_append.1 h).2.1

theorem Fresh.of_concat {done : List (String × Json)} {m : String × Json}
    (h : Fresh renames (done ++ [m])) :
    Fresh renames done ∧ m.1 ∉ Entries.keys renames ++ Entries.keys done := by
  rw [Fresh, Entries.keys_concat, ← List.append_assoc, List.nodup_append] at h
  exact ⟨h.1, fun hm => h.2.2 m.1 hm m.1 (List.mem_singleton_self _) rfl⟩

theorem Fresh.isKept (h : Fresh renames schemas) {m : String × Json} (hm : m ∈ schemas) :
    isKept renames m = true :=
  isKept_iff.2 fun hr => (List.nodup_append.1 h).2.2 m.1 hr m.1 (Entries.mem_keys_of_mem hm) rfl

theorem Tally.step {done : List (String × Json)} {p q : RenamePass} {name : String} {value : Json}
    (h : Tally s service all renames done p) (hcontent : SameContent s p.state)
    (hnew : name ∉ Entries.keys renames ++ Entries.keys done) (hall : (name, value) ∈ all)
    (hd : Decides strategy service p name value q) :
    Tally s service all renames (done ++ [(name, value)]) q := by
  have hfree : name ∉ Entries.keys p.renames := fun hm => hnew (h.keys hm)
  have hcomponent := hcontent.component? schemaKind name
  have hkeys : Entries.keys p.renames ⊆
      Entries.keys renames ++ Entries.keys (done ++ [(name, value)]) := by
    rw [Entries.keys_concat, ← List.append_assoc]
    exact List.subset_append_of_subset_left _ h.keys
  have hone : isKept p.renames (name, value) = true := isKept_iff.2 hfree
  cases hd with
  | absent hnone =>
    rw [hcomponent] at hnone
    have htaken : s.isTaken (name, value) = false := by rw [isTaken, hnone]; rfl
    refine ⟨h.forced, hkeys, ?_, ?_, h.conflicts, h.mergedSchemas⟩
    · simp [h.kept, hone]
    · simp [h.shared, htaken]
  | shared existing hsome hsame =>
    rw [hcomponent] at hsome
    have htaken : s.isTaken (name, value) = true := by rw [isTaken, hsome]; rfl
    refine ⟨h.forced, hkeys, ?_, ?_, h.conflicts, h.mergedSchemas⟩
    · simp [h.kept, hone]
    · simp [h.shared, htaken]
  | renamed existing hsome hsame hs =>
    rw [hcomponent] at hsome
    have hput : Entries.put p.renames name (namespaced service name) =
        p.renames ++ [(name, namespaced service name)] :=
      Entries.put_of_get?_eq_none ((Entries.get?_eq_none_iff _ _).2 hfree) _
    have hsplit (m : String × Json) : isKept (p.renames ++ [(name, namespaced service name)]) m =
        (isKept p.renames m && m.1 != name) := by
      rw [Bool.eq_iff_iff, Bool.and_eq_true, isKept_iff, isKept_iff, bne_iff_ne, Entries.keys_concat]
      simp
    -- the schema that is renamed goes, and no schema before it has its name
    have hgone : (done ++ [(name, value)]).filter (isKept (p.renames ++ [(name, namespaced service name)])) =
        done.filter (isKept p.renames) := by
      rw [List.filter_append, List.filter_singleton, hsplit, bne_self_eq_false, Bool.and_false, cond_false,
        List.append_nil]
      refine List.filter_congr fun m hm => ?_
      have hne : m.1 ≠ name := by
        rintro rfl
        exact hnew (List.mem_append_right _ (Entries.mem_keys_of_mem hm))
      rw [hsplit, bne_iff_ne.2 hne, Bool.and_true]
    constructor
    case forced =>
      rw [hput]
      exact h.forced.concat hall hfree hsome hsame
    case keys =>
      rw [hput, Entries.keys_concat]
      refine List.append_subset.2 ⟨hkeys, ?_⟩
      simp [Entries.keys]
    case kept => rw [hput, hgone, h.kept]
    case shared => exact h.shared
    case conflicts =>
      have := h.conflicts
      simp only [hput, record, List.length_append, List.length_singleton]
      omega
    case mergedSchemas => exact h.mergedSchemas

theorem tally_of_foldlM {p : RenamePass} (hall : schemas ⊆ all) (hfresh : Fresh renames schemas)
    (hforced : Forced s service all renames)
    (h : schemas.foldlM (decide strategy service) { state := s, renames := renames } = .ok p) :
    Tally s service all renames schemas p := by
  refine foldlM_induct
    (motive := fun done p => done ⊆ all → Fresh renames done → Tally s service all renames done p)
    ?_ ?_ h hall hfresh
  · intro _ _
    exact ⟨hforced, by simp, rfl, rfl, rfl, rfl⟩
  · intro done m u v hu ih hv hall hfresh
    obtain ⟨hdone, hnew⟩ := hfresh.of_concat
    have htally := ih (List.append_subset.1 hall).1 hdone
    have hm : m ∈ all := hall (List.mem_append_right _ (List.mem_singleton_self m))
    exact htally.step (round_of_foldlM hu).content hnew hm (decides_of_decide hv)

/-- A round leaves fewer schemas with their names exactly when it renames one. -/
theorem length_kept_lt_iff {p : RenamePass} (hall : schemas ⊆ all) (hfresh : Fresh renames schemas)
    (hforced : Forced s service all renames)
    (h : schemas.foldlM (decide strategy service) { state := s, renames := renames } = .ok p) :
    p.kept.length < schemas.length ↔ p.renames ≠ renames := by
  have hround := round_of_foldlM h
  constructor
  · intro hlt hsame
    have hkept : p.kept = schemas := by
      rw [(tally_of_foldlM hall hfresh hforced h).kept, hsame]
      exact List.filter_eq_self.2 fun m hm => hfresh.isKept hm
    rw [hkept] at hlt
    exact absurd hlt (Nat.lt_irrefl _)
  · intro hne
    by_contra hge
    have hle := hround.length_le
    exact hne (hround.still (by omega)).1

/-! ## All rounds -/

/-- What deciding on schemas behind some renames amounts to. -/
structure Decided (s : MergeState) (service : String) (all : List (String × Json)) (renames : Renames)
    (schemas : List (String × Json)) (t : MergeState) (r : Renames) : Prop where
  forced : Forced s service all r
  conflicts : t.conflicts + renames.length = s.conflicts + r.length
  mergedSchemas : t.mergedSchemas =
    s.mergedSchemas + schemas.countP fun m => isKept r m && s.isTaken m

theorem Forced.of_content {s' : MergeState} (hcontent : SameContent s s')
    (h : Forced s' service schemas r) : Forced s service schemas r := by
  induction h with
  | nil => exact .nil
  | concat _ hm hnew hexisting hsame ih =>
    exact ih.concat hm hnew ((hcontent.component? _ _).symm.trans hexisting) hsame

theorem SameContent.isTaken_eq {s' : MergeState} (h : SameContent s s') : s'.isTaken = s.isTaken := by
  funext m
  rw [isTaken, isTaken, h.component?]

theorem SameContent.symm {s' : MergeState} (h : SameContent s s') : SameContent s' s :=
  ⟨h.paths.symm, h.components.symm, h.owners.symm, h.tags.symm⟩

theorem Tally.fresh {p : RenamePass} (h : Tally s service all renames schemas p)
    (hfresh : Fresh renames schemas) : Fresh p.renames p.kept := by
  have hkept : p.kept.Sublist schemas := h.kept ▸ List.filter_sublist
  refine List.nodup_append.2 ⟨h.forced.nodup, hfresh.nodup.sublist (hkept.map _), ?_⟩
  rintro name hname _ hk rfl
  obtain ⟨m, hm, rfl⟩ := List.mem_map.1 hk
  rw [h.kept, List.mem_filter, isKept_iff] at hm
  exact hm.2 hname

/-- Over all rounds, every conflict is one rename, and the schemas that keep a name that is taken are counted
once. -/
theorem decided_of_decideAll (hall : schemas ⊆ all) (hfresh : Fresh renames schemas)
    (hforced : Forced s service all renames)
    (h : decideAll strategy service s renames schemas = .ok (t, r)) :
    Decided s service all renames schemas t r := by
  induction hn : schemas.length using Nat.strongRecOn generalizing s renames schemas with
  | ind n ih =>
    rw [decideAll] at h
    cases hp : schemas.foldlM (decide strategy service) { state := s, renames := renames } with
    | error c =>
      rw [hp] at h
      cases h
    | ok p =>
      have htally := tally_of_foldlM hall hfresh hforced hp
      have hcontent := (round_of_foldlM hp).content
      rw [hp] at h
      dsimp only at h
      split at h
      · next hlt =>
        have hkept : p.kept ⊆ schemas := htally.kept ▸ List.filter_sublist.subset
        have hnext := ih p.kept.length (hn ▸ hlt) (List.Subset.trans hkept hall) (htally.fresh hfresh)
          (htally.forced.of_content hcontent.symm) h rfl
        -- what this round renamed stays renamed, so nothing of it is counted later
        have hlater (m : String × Json) : isKept r m = true → isKept p.renames m = true := by
          rw [isKept_iff, isKept_iff]
          exact fun hm hr => hm (keys_subset_of_decideAll h hr)
        constructor
        case forced => exact hnext.forced.of_content hcontent
        case conflicts =>
          have := hnext.conflicts
          have := htally.conflicts
          omega
        case mergedSchemas =>
          rw [hnext.mergedSchemas, htally.mergedSchemas, hcontent.isTaken_eq, htally.kept, List.countP_filter]
          congr 1
          refine List.countP_congr fun m _ => ?_
          simp only [Bool.and_eq_true]
          exact ⟨And.left, fun hm => ⟨hm, hlater m hm.1⟩⟩
      · next hge =>
        cases h
        -- the last round renames nothing, so those that it shares are all that keep a name that is taken
        have hsame : p.renames = renames :=
          not_ne_iff.1 fun hne => hge ((length_kept_lt_iff hall hfresh hforced hp).2 hne)
        have hkeep : ∀ m ∈ schemas, isKept p.renames m = true := fun m hm => by
          rw [hsame]
          exact hfresh.isKept hm
        constructor
        case forced => exact htally.forced
        case conflicts => exact htally.conflicts
        case mergedSchemas =>
          have hshared : p.shared = schemas.countP s.isTaken := by
            rw [htally.shared, htally.kept, List.filter_eq_self.2 hkeep]
          show p.state.mergedSchemas + p.shared = _
          rw [htally.mergedSchemas, hshared]
          congr 1
          refine List.countP_congr fun m hm => ?_
          rw [hkeep m hm, Bool.true_and]

/-! ## The decision on a source -/

/-- A decision on the schemas of a source that holds together with what earlier sources left. -/
structure Settles (s : MergeState) (service : String) (schemas : List (String × Json)) (t : MergeState)
    (r : Renames) : Prop where
  /-- A schema that keeps its name is new, or the same as the earlier one once it follows the renames. -/
  kept : ∀ m ∈ schemas, m.1 ∉ Entries.keys r → s.component? schemaKind m.1 = none ∨
    ∃ existing, s.component? schemaKind m.1 = some existing ∧ existing.same (r.redirect m.2) = true
  /-- Only schemas of the source are renamed, each once and to the name with the service in front. -/
  renamed : ∀ name new, (name, new) ∈ r → name ∈ Entries.keys schemas ∧ new = namespaced service name
  once : (Entries.keys r).Nodup
  /-- None is renamed without need. -/
  forced : Forced s service schemas r
  conflicts : t.conflicts = s.conflicts + r.length
  mergedSchemas : t.mergedSchemas = s.mergedSchemas + (schemas.filter fun m =>
    m.1 ∉ Entries.keys r ∧ (s.component? schemaKind m.1).isSome).length

/-- Behind any sources, deciding on the schemas of one more comes to an end under the strategy `override`, with a
decision that holds together. -/
theorem schemaRenames_settles {config : CombineConfig} (hmerge : config.mergeSchemas = true)
    (hs : config.conflictStrategy = .override) (s : MergeState) {source : Source}
    (hd : source.document.distinct = true) :
    ∃ t r, s.schemaRenames config source.service source.document = .ok (t, r) ∧
      Settles s source.service (Source.membersAt source.document ["components", schemaKind]) t r := by
  have hne : config.conflictStrategy ≠ .error := by simp [hs]
  obtain ⟨⟨t, r⟩, h⟩ := exists_schemaRenames_ok hne source.service source.document s
  refine ⟨t, r, h, ?_⟩
  have hkept := fun m hm => kept_of_schemaRenames h (m := m) hm
  have hnodup := Source.nodup_keys_membersAt hd ["components", schemaKind]
  rw [schemaRenames, if_pos hmerge] at h
  generalize Source.membersAt source.document ["components", schemaKind] = schemas at h hkept hnodup ⊢
  have hfresh : Fresh [] schemas := hnodup
  have hdecided := decided_of_decideAll (List.Subset.refl schemas) hfresh .nil h
  constructor
  case kept =>
    intro m hm hr
    cases hexisting : s.component? schemaKind m.1 with
    | none => exact .inl rfl
    | some existing => exact .inr ⟨existing, rfl, hkept m hm hr existing hexisting⟩
  case renamed => exact fun name new he => hdecided.forced.named (name, new) he
  case once => exact hdecided.forced.nodup
  case forced => exact hdecided.forced
  case conflicts => exact hdecided.conflicts
  case mergedSchemas =>
    rw [hdecided.mergedSchemas, List.countP_eq_length_filter]
    congr 2
    refine List.filter_congr fun m _ => ?_
    rw [Bool.eq_iff_iff, Bool.and_eq_true, isKept_iff, decide_eq_true_iff]
    rfl

/-- The schemas of a source whose users are of a type. Its orders refer to users, and its prices to nothing. -/
def orderSchemas (user : String) : List (String × Json) :=
  [("Order", .object [("items", .object [("$ref", .string (Renames.referenceStart ++ "User"))])]),
    ("User", .object [("type", .string user)]), ("Price", .object [("type", .string "integer")])]

/-- A source `b` with other users than the source before it. Its orders are the same until the users are renamed. -/
theorem schemaRenames_settles_orders :
    let s : MergeState := { components := [(schemaKind, orderSchemas "array")] }
    let schemas := ("Cart", .object []) :: orderSchemas "object"
    let source : Source :=
      { service := "b", document := .object [("components", .object [(schemaKind, .object schemas)])] }
    ({} : CombineConfig).mergeSchemas = true ∧ ({} : CombineConfig).conflictStrategy = .override ∧
      source.document.distinct = true ∧
      ∃ t r, s.schemaRenames {} source.service source.document = .ok (t, r) ∧
        Settles s source.service schemas t r ∧ r = [("User", "b.User"), ("Order", "b.Order")] ∧
        t.conflicts = 2 ∧ t.mergedSchemas = 1 := by
  intro s schemas source
  have hmerge : ({} : CombineConfig).mergeSchemas = true := rfl
  have hs : ({} : CombineConfig).conflictStrategy = .override := rfl
  have hd : source.document.distinct = true := by decide
  obtain ⟨t, r, h, hsettles⟩ := schemaRenames_settles hmerge hs s hd
  have hdecision : ((s.schemaRenames {} source.service source.document).toOption.map fun q =>
      (q.2, q.1.conflicts, q.1.mergedSchemas)) = some ([("User", "b.User"), ("Order", "b.Order")], 2, 1) := by
    decide +kernel
  simp only [h, Except.toOption, Option.map_some, Option.some_inj, Prod.mk.injEq] at hdecision
  exact ⟨hmerge, hs, hd, t, r, h, hsettles, hdecision⟩

end ApiDescription.MergeState
