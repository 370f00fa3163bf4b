import ApiDescription.Proofs.Combine.Compatible
import ApiDescription.Proofs.Combine.Prepare
import ApiDescription.Proofs.Json.Table

/-!
# What parameters an operation takes

An operation takes the parameters that its path item lists for all operations, unless it overrides them,
and its own. Its own ones go with it into the combined document; those of the path item do not: of all items
that go under one path, the last one to list parameters lists them for all (`lastShared`). So an operation
keeps its parameters exactly when that item shares the same ones with it as its own did
(`combine_keeps_parameters_iff`), also when the run stops at conflicts.
-/

set_option autoImplicit false

namespace ApiDescription

/-! ## Parameters -/

/-- The parameters that a path item or an operation lists. -/
def parametersOf (j : Json) : List Json := Source.itemsAt j "parameters"

/-- The name and the place of a parameter that are written out. -/
def parameterKey? (parameter : Json) : Option (String × String) := do
  let name ← (parameter.get? "name").bind Json.string?
  let place ← (parameter.get? "in").bind Json.string?
  some (name, place)

/-- One of the parameters has the name and the place of the given one. -/
def overrides (own : List Json) (parameter : Json) : Bool :=
  match parameterKey? parameter with
  | some key => own.any (parameterKey? · == some key)
  | none => false

/-- The shared parameters that an operation does not override. -/
def inherited (shared : List Json) (operation : Json) : List Json :=
  shared.filter fun parameter => !overrides (parametersOf operation) parameter

/-- The parameters that an operation takes, when its path item lists the shared ones. -/
def effectiveParameters (shared : List Json) (operation : Json) : List Json :=
  inherited shared operation ++ parametersOf operation

/-- The two lists have the same parameters in the same order. -/
def sameParameters (ps qs : List Json) : Bool := (Json.array ps).same (.array qs)

theorem sameParameters_iff (ps qs : List Json) :
    sameParameters ps qs = true ↔ List.Forall₂ (fun p q => p.same q = true) ps qs := by
  rw [sameParameters, Json.same_array_iff]
  simp

theorem distinct_of_mem_parametersOf {j parameter : Json} (hd : j.distinct = true)
    (h : parameter ∈ parametersOf j) : parameter.distinct = true :=
  Source.distinct_of_mem_itemsAt hd h

theorem parameterKey?_of_same {p q : Json} (hp : p.distinct = true) (hq : q.distinct = true)
    (h : p.same q = true) : parameterKey? p = parameterKey? q := by
  have hname := (Json.sameFound_get? hp hq h "name").string?_eq
  have hplace := (Json.sameFound_get? hp hq h "in").string?_eq
  rw [parameterKey?, parameterKey?, hname, hplace]

/-- What an operation inherits is the same where the shared parameters are. -/
theorem same_inherited {shared shared' : List Json} (hd : ∀ p ∈ shared, p.distinct = true)
    (hd' : ∀ p ∈ shared', p.distinct = true) (h : sameParameters shared shared' = true)
    (operation : Json) :
    sameParameters (inherited shared operation) (inherited shared' operation) = true := by
  rw [sameParameters_iff] at h ⊢
  induction h with
  | nil => exact .nil
  | @cons p q ps qs hsame _ ih =>
    rw [List.forall_mem_cons] at hd hd'
    have hkey : overrides (parametersOf operation) p = overrides (parametersOf operation) q := by
      rw [overrides, overrides, parameterKey?_of_same hd.1 hd'.1 hsame]
    have hrest := ih hd.2 hd'.2
    unfold inherited at hrest ⊢
    rw [List.filter_cons, List.filter_cons, hkey]
    split
    · exact .cons hsame hrest
    · exact hrest

/-- An operation takes the same parameters in two items when it inherits the same ones there. -/
theorem same_effectiveParameters_iff {shared shared' : List Json} {operation : Json}
    (hd : operation.distinct = true) :
    sameParameters (effectiveParameters shared operation) (effectiveParameters shared' operation) =
        true ↔
      sameParameters (inherited shared operation) (inherited shared' operation) = true := by
  have hown : List.Forall₂ (fun p q => p.same q = true) (parametersOf operation)
      (parametersOf operation) :=
    List.forall₂_same.2 fun p hp => Json.same_refl (distinct_of_mem_parametersOf hd hp)
  rw [sameParameters_iff, sameParameters_iff, effectiveParameters, effectiveParameters]
  constructor
  · intro h
    -- the own parameters stand at the end of both lists, so the lists part at the same place
    have hlength : (inherited shared' operation).length = (inherited shared operation).length := by
      have htotal := h.length_eq
      rw [List.length_append, List.length_append] at htotal
      omega
    have htake := List.forall₂_take_append _ _ _ h
    rwa [hlength, List.take_left] at htake
  · exact fun h => List.rel_append h hown

namespace MergeState

/-! ## Operations as they go in -/

/-- Its own parameters go with an operation. -/
theorem parametersOf_prepare (source : Source) (security : Option Json) (operation : Json) :
    parametersOf (prepare source security operation) = parametersOf operation := by
  unfold parametersOf Source.itemsAt
  rw [get?_prepare_ne source security operation (by decide) (by decide)]

theorem effectiveParameters_prepare (shared : List Json) (source : Source) (security : Option Json)
    (operation : Json) :
    effectiveParameters shared (prepare source security operation) =
      effectiveParameters shared operation := by
  unfold effectiveParameters inherited
  rw [parametersOf_prepare]

variable {config : CombineConfig} {sources : List Source} {source : Source} {s : MergeState}

/-- A source has the operation in the path item, and the filter keeps it. -/
structure KeptIn (config : CombineConfig) (source : Source) (e o : String × Json) : Prop where
  item : e ∈ Source.membersAt source.document ["paths"]
  operation : o ∈ DocumentFault.operationsOf e.2
  allowed : config.tagFilter.allows (tagsOf o.2) = true

theorem keptOf_ne_nil_iff {e : String × Json} (he : e ∈ Source.membersAt source.document ["paths"]) :
    keptOf config source e.2 ≠ [] ↔ ∃ o, KeptIn config source e o := by
  constructor
  · intro h
    obtain ⟨m, hm⟩ := List.exists_mem_of_ne_nil _ h
    obtain ⟨o, ho, rfl⟩ := List.mem_map.1 hm
    obtain ⟨ho, hallowed⟩ := List.mem_filter.1 ho
    exact ⟨o, he, ho, hallowed⟩
  · rintro ⟨o, ho⟩
    exact List.ne_nil_of_mem
      (List.mem_map.2 ⟨o, List.mem_filter.2 ⟨ho.operation, ho.allowed⟩, rfl⟩)

/-- The parameters that are listed for all operations of a path of a document. -/
def sharedAt (document : Json) (path : String) : List Json :=
  ((Source.lookup? document ["paths", path, "parameters"]).bind Json.items?).getD []

/-- The parameters that the last of the items under a path to list any lists for all operations. -/
def lastShared (config : CombineConfig) (sources : List Source) (path : String) : List Json :=
  ((((sources.map (ownSettled config)).flatMap (keptFields config)).reverse.lookup
    (path, "parameters")).bind Json.items?).getD []

/-- What parameters the operations of a combined document take, by what those of the sources take. -/
structure KeepsParameters (config : CombineConfig) (sources : List Source) (document : Json) :
    Prop where
  /-- Every operation is one of a source. -/
  origin : ∀ path method operation, DocumentFault.isMethod method = true →
    Source.lookup? document ["paths", path, method] = some operation →
      ∃ source ∈ sources, ∃ e o, KeptIn config (ownSettled config source) e o ∧
        finalPath config source e.1 = path ∧ o.1 = method
  /-- It takes the same parameters as there exactly when it inherits the same ones from the last item under
  its path to list any. -/
  iff : ∀ source ∈ sources, ∀ e o, KeptIn config (ownSettled config source) e o →
    ∃ operation,
      Source.lookup? document ["paths", finalPath config source e.1, o.1] = some operation ∧
      (sameParameters
          (effectiveParameters (sharedAt document (finalPath config source e.1)) operation)
          (effectiveParameters (parametersOf e.2) o.2) = true ↔
        sameParameters (inherited (lastShared config sources (finalPath config source e.1)) o.2)
          (inherited (parametersOf e.2) o.2) = true)
  /-- It does when all items under its path list the same ones. -/
  plain : ∀ source ∈ sources, ∀ e o, KeptIn config (ownSettled config source) e o →
    (∀ other ∈ sources, ∀ e' o', KeptIn config (ownSettled config other) e' o' →
      finalPath config other e'.1 = finalPath config source e.1 →
        sameParameters (parametersOf e'.2) (parametersOf e.2) = true) →
    ∃ operation,
      Source.lookup? document ["paths", finalPath config source e.1, o.1] = some operation ∧
      sameParameters
        (effectiveParameters (sharedAt document (finalPath config source e.1)) operation)
        (effectiveParameters (parametersOf e.2) o.2) = true

/-! ## Items under one path -/

theorem distinct_of_mem_operationsOf {item : Json} (hd : item.distinct = true) {o : String × Json}
    (ho : o ∈ DocumentFault.operationsOf item) : o.2.distinct = true :=
  Json.distinct_of_mem_members? hd (List.mem_filter.1 ho).1

theorem KeptIn.distinct_item (hd : source.document.distinct = true) {e o : String × Json}
    (h : KeptIn config source e o) : e.2.distinct = true :=
  Json.distinct_of_mem (Source.distinct_object_membersAt hd ["paths"]) h.item

/-- What an item lists as its parameters is what it writes under that name. -/
theorem parametersOf_of_mem_fieldsOf {item v : Json} (hd : item.distinct = true)
    (h : ("parameters", v) ∈ fieldsOf item) : parametersOf item = v.items?.getD [] := by
  obtain ⟨h, -⟩ := List.mem_filter.1 h
  cases item with
  | object ms =>
    have hget : Entries.get? ms "parameters" = some v :=
      Entries.get?_eq_some_of_mem ((Json.distinct_object_iff ms).1 hd).1 h
    simp [parametersOf, Source.itemsAt, Json.get?, hget]
  | _ => cases h

theorem mem_fieldsOf_of_parametersOf {item : Json} (h : parametersOf item ≠ []) :
    ∃ v, ("parameters", v) ∈ fieldsOf item := by
  have hfield : (!DocumentFault.isMethod "parameters") = true := by decide
  cases hget : item.get? "parameters" with
  | none => simp [parametersOf, Source.itemsAt, hget] at h
  | some v =>
    cases item with
    | object ms =>
      exact ⟨v, List.mem_filter.2 ⟨Entries.mem_of_get?_eq_some hget, hfield⟩⟩
    | _ => cases hget

section Listed

variable (hd : ∀ source ∈ sources, source.document.distinct = true)

include hd

theorem distinct_ownSettled (hsource : source ∈ sources) :
    (ownSettled config source).document.distinct = true :=
  Renames.distinct_redirect _ (hd source hsource)

/-- The parameters listed last under a path are those of an item there, or no item lists any. -/
theorem lastShared_cases (config : CombineConfig) (path : String) :
    (∃ source ∈ sources, ∃ e o, KeptIn config (ownSettled config source) e o ∧
      finalPath config source e.1 = path ∧ lastShared config sources path = parametersOf e.2) ∨
    (lastShared config sources path = [] ∧
      ∀ source ∈ sources, ∀ e o, KeptIn config (ownSettled config source) e o →
        finalPath config source e.1 = path → parametersOf e.2 = []) := by
  unfold lastShared
  cases hlast : ((sources.map (ownSettled config)).flatMap (keptFields config)).reverse.lookup
    (path, "parameters") with
  | some v =>
    refine Or.inl ?_
    obtain ⟨settled, hsettled, hw⟩ := List.mem_flatMap.1 (Entries.mem_of_lookup_reverse hlast)
    obtain ⟨source, hsource, rfl⟩ := List.mem_map.1 hsettled
    obtain ⟨⟨p, item⟩, he, hkept, ⟨name, value⟩, hm, heq⟩ := mem_keptFields.1 hw
    simp only [Prod.mk.injEq] at heq
    obtain ⟨⟨hpath, rfl⟩, rfl⟩ := heq
    obtain ⟨o, ho⟩ := (keptOf_ne_nil_iff he).1 hkept
    have hitem : item.distinct = true := ho.distinct_item (distinct_ownSettled hd hsource)
    exact ⟨source, hsource, (p, item), o, ho, hpath, (parametersOf_of_mem_fieldsOf hitem hm).symm⟩
  | none =>
    -- an item with a kept operation that listed parameters would have written them
    refine Or.inr ⟨rfl, ?_⟩
    rintro source hsource ⟨p, item⟩ o ho rfl
    by_contra hlisted
    obtain ⟨v, hv⟩ := mem_fieldsOf_of_parametersOf hlisted
    have hw : ((finalPath config source p, "parameters"), v) ∈
        keptFields config (ownSettled config source) :=
      mem_keptFields.2 ⟨(p, item), ho.item, (keptOf_ne_nil_iff ho.item).2 ⟨o, ho⟩,
        ("parameters", v), hv, rfl⟩
    have hall : ((finalPath config source p, "parameters"), v) ∈
        (sources.map (ownSettled config)).flatMap (keptFields config) :=
      List.mem_flatMap.2 ⟨_, List.mem_map.2 ⟨source, hsource, rfl⟩, hw⟩
    exact Entries.lookup_reverse_eq_none_iff.1 hlast (List.mem_map.2 ⟨_, hall, rfl⟩)

end Listed

/-! ## Runs that stop at conflicts -/

section Runs

variable (hs : config.conflictStrategy = .error) (h : addAll config sources = .ok s)

include hs h

theorem sharedAt_toDocument (path : String) :
    sharedAt (s.toDocument config) path = lastShared config sources path := by
  have hlast := (lastWriterWins_toDocument h).field path "parameters" (by decide)
  rw [settledSources_error hs h] at hlast
  rw [sharedAt, hlast, lastShared]

/-- Every kept operation stands in the document, prepared. -/
theorem lookup?_of_keptIn (hsource : source ∈ sources) {e o : String × Json}
    (ho : KeptIn config (ownSettled config source) e o) :
    Source.lookup? (s.toDocument config) ["paths", finalPath config source e.1, o.1] =
      some (prepare source (documentSecurity? (ownSettled config source).document) o.2) := by
  have hmethod : DocumentFault.isMethod o.1 = true := (List.mem_filter.1 ho.operation).2
  have hown : ((finalPath config source e.1, o.1),
      prepare source (documentSecurity? (ownSettled config source).document) o.2) ∈
        ownOperations config source :=
    mem_keptOperations.2 ⟨e, ho.item, o, ho.operation, ho.allowed, rfl⟩
  rw [lookup?_paths_toDocument, at?_paths_error hs h hmethod]
  exact Entries.lookup_reverse_eq_some_of_mem (nodup_operations_of_addAll hs h)
    (List.mem_flatMap.2 ⟨source, hsource, hown⟩)

theorem exists_keptIn_of_lookup? {path method : String} {operation : Json}
    (hmethod : DocumentFault.isMethod method = true)
    (hlookup : Source.lookup? (s.toDocument config) ["paths", path, method] = some operation) :
    ∃ source ∈ sources, ∃ e o, KeptIn config (ownSettled config source) e o ∧
      finalPath config source e.1 = path ∧ o.1 = method := by
  rw [lookup?_paths_toDocument, at?_paths_error hs h hmethod] at hlookup
  obtain ⟨source, hsource, hown⟩ := List.mem_flatMap.1 (Entries.mem_of_lookup_reverse hlookup)
  obtain ⟨e, he, o, ho, hallowed, heq⟩ := mem_keptOperations.1 hown
  exact ⟨source, hsource, e, o, ⟨he, ho, hallowed⟩, congrArg (·.1.1) heq, congrArg (·.1.2) heq⟩

theorem same_effectiveParameters_toDocument
    (hd : ∀ source ∈ sources, source.document.distinct = true) (hsource : source ∈ sources)
    {e o : String × Json} (ho : KeptIn config (ownSettled config source) e o) :
    ∃ operation,
      Source.lookup? (s.toDocument config) ["paths", finalPath config source e.1, o.1] =
        some operation ∧
      (sameParameters
          (effectiveParameters (sharedAt (s.toDocument config) (finalPath config source e.1)) operation)
          (effectiveParameters (parametersOf e.2) o.2) = true ↔
        sameParameters (inherited (lastShared config sources (finalPath config source e.1)) o.2)
          (inherited (parametersOf e.2) o.2) = true) := by
  have hoperation : o.2.distinct = true :=
    distinct_of_mem_operationsOf (ho.distinct_item (distinct_ownSettled hd hsource)) ho.operation
  refine ⟨_, lookup?_of_keptIn hs h hsource ho, ?_⟩
  rw [effectiveParameters_prepare, sharedAt_toDocument hs h]
  exact same_effectiveParameters_iff hoperation

theorem keepsParameters_toDocument (hd : ∀ source ∈ sources, source.document.distinct = true) :
    KeepsParameters config sources (s.toDocument config) where
  origin _ _ _ hmethod hlookup := exists_keptIn_of_lookup? hs h hmethod hlookup
  iff source hsource e o ho := same_effectiveParameters_toDocument hs h hd hsource ho
  plain := by
    intro source hsource e o ho hshared
    obtain ⟨operation, hlookup, hiff⟩ := same_effectiveParameters_toDocument hs h hd hsource ho
    refine ⟨operation, hlookup, hiff.2 ?_⟩
    have hlisted : ∀ p ∈ parametersOf e.2, p.distinct = true := fun p hp =>
      distinct_of_mem_parametersOf (ho.distinct_item (distinct_ownSettled hd hsource)) hp
    rcases lastShared_cases hd config (finalPath config source e.1) with
      ⟨other, hother, e', o', ho', hpath, hlast⟩ | ⟨hlast, hnone⟩
    · have hlisted' : ∀ p ∈ parametersOf e'.2, p.distinct = true := fun p hp =>
        distinct_of_mem_parametersOf (ho'.distinct_item (distinct_ownSettled hd hother)) hp
      rw [hlast]
      exact same_inherited hlisted' hlisted (hshared other hother e' o' ho' hpath) o.2
    · rw [hlast, hnone source hsource e o ho rfl]
      rfl

end Runs

end MergeState

/-- Under the strategy `error`, an operation of the combined document takes the parameters that it took in its
source exactly when it inherits the same ones from the last item under its path to list any. Documents
that were loaded are distinct (`Combiner.distinct_loadFiles`). -/
theorem combine_keeps_parameters_iff (c : Combiner) (hs : c.config.conflictStrategy = .error)
    (hd : ∀ source ∈ c.sources, source.document.distinct = true) {document : Json}
    (h : c.combine.2 = .ok document) :
    MergeState.KeepsParameters c.config c.sources document := by
  obtain ⟨s, hrun, rfl⟩ := Combiner.exists_addAll_of_combine h
  exact MergeState.keepsParameters_toDocument hs hrun hd

/-- A path item with one operation, and one parameter for all of its operations. -/
def usersItem (parameter method : String) : Json := .object
  [("parameters", .array [.object [("name", .string parameter), ("in", .string "query")]]),
    (method, .object [])]

/-- Two services with one such item each under one path. -/
def tenantAndLimit : Combiner where
  config := { conflictStrategy := .error }
  sources :=
    [{ service := "a", document := .object [("paths", .object
        [("/users", usersItem "tenant" "get")])] },
      { service := "b", document := .object [("paths", .object
        [("/users", usersItem "limit" "post")])] }]

theorem combine_keeps_parameters_iff_tenantAndLimit :
    tenantAndLimit.config.conflictStrategy = .error ∧
      (∀ source ∈ tenantAndLimit.sources, source.document.distinct = true) ∧
      ∃ document, tenantAndLimit.combine.2 = .ok document ∧
        MergeState.KeepsParameters tenantAndLimit.config tenantAndLimit.sources document := by
  have hd : ∀ source ∈ tenantAndLimit.sources, source.document.distinct = true := by decide
  have hruns : tenantAndLimit.combine.2.toOption.isSome = true := by decide +kernel
  cases h : tenantAndLimit.combine.2 with
  | error e =>
    rw [h] at hruns
    cases hruns
  | ok document => exact ⟨rfl, hd, document, rfl, combine_keeps_parameters_iff tenantAndLimit rfl hd h⟩

/-- The run succeeds, and the operation of the first service takes the parameter of the second one. -/
theorem tenantAndLimit_trades_parameters :
    tenantAndLimit.config.conflictStrategy = .error ∧
      ∃ document, tenantAndLimit.combine.2 = .ok document ∧
        ∃ source ∈ tenantAndLimit.sources, ∃ e o operation,
          MergeState.KeptIn tenantAndLimit.config
            (MergeState.ownSettled tenantAndLimit.config source) e o ∧
          Source.lookup? document
            ["paths", MergeState.finalPath tenantAndLimit.config source e.1, o.1] = some operation ∧
          sameParameters
            (effectiveParameters (MergeState.sharedAt document
              (MergeState.finalPath tenantAndLimit.config source e.1)) operation)
            (effectiveParameters (parametersOf e.2) o.2) = false := by
  have hruns : (tenantAndLimit.combine.2.toOption.bind fun document =>
      (Source.lookup? document ["paths", "/users", "get"]).map fun operation =>
        sameParameters (effectiveParameters (MergeState.sharedAt document "/users") operation)
          (effectiveParameters (parametersOf (usersItem "tenant" "get")) (.object []))) =
      some false := by decide +kernel
  refine ⟨rfl, ?_⟩
  cases h : tenantAndLimit.combine.2 with
  | error e =>
    rw [h] at hruns
    cases hruns
  | ok document =>
    rw [h] at hruns
    obtain ⟨operation, hoperation, hdiffer⟩ := Option.map_eq_some_iff.1 hruns
    refine ⟨document, rfl, _, List.mem_cons_self, ("/users", usersItem "tenant" "get"),
      ("get", .object []), operation, ?_, ?_, ?_⟩
    · exact ⟨List.mem_singleton.2 rfl, List.mem_singleton.2 rfl, rfl⟩
    · exact hoperation
    · exact hdiffer

end ApiDescription
