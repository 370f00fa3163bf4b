import ApiDescription.Manifest.Schema
import ApiDescription.Proofs.Fold
import ApiDescription.Proofs.Schema.Written

/-!
# Definitions below definitions

Which of the definitions below it a definition reads depends on its form (`takes`): a composition reads its members,
an array its items, and an object its properties. The children of the schema that it describes are those that
the definitions it reads describe, each under its own step (`children_of_toSchema`). So the nodes of the schema
are what the definitions that are read on the way describe, and no definition is lost exactly when each one that is
reached reads all below it (`nodes_of_toSchema`).
-/

set_option autoImplicit false

namespace ApiDescription

/-- Where the definition after a step stands, as errors tell it. -/
def SchemaStep.below (place : String) : SchemaStep → String
  | .items => place ++ ".items"
  | .property name => place ++ "." ++ name
  | .member keyword index =>
    if keyword = "not" then place ++ ".not" else place ++ "." ++ keyword ++ "[" ++ toString index ++ "]"

def SchemaStep.farBelow (place : String) (steps : List SchemaStep) : String := steps.foldl below place

def ListKeyword.ofName? (name : String) : Option ListKeyword := [.oneOf, .allOf, .anyOf].find? (·.name == name)

theorem ListKeyword.ofName?_eq_some_iff {name : String} {keyword : ListKeyword} :
    ofName? name = some keyword ↔ name = keyword.name := by
  constructor
  · intro h
    unfold ofName? at h
    have hfound := List.find?_some h
    exact (eq_of_beq hfound).symm
  · rintro rfl
    cases keyword <;> decide

theorem ListKeyword.name_ne_not (keyword : ListKeyword) : keyword.name ≠ "not" := by
  cases keyword <;> decide

/-! ## Keywords that leave the children alone -/

theorem Schema.children_refineAll [PatternReader] {rs : List Refinement}
    (hrs : ∀ r ∈ rs, r.isPlain = true) (s : Schema) : (s.refineAll rs).children = s.children := by
  induction rs generalizing s with
  | nil => rfl
  | cons r rs ih =>
    rw [List.forall_mem_cons] at hrs
    rw [refineAll, List.foldl_cons, ← refineAll, ih hrs.2, children_of_bare (bare_refine hrs.1 s)]

/-- The keywords of a definition ask for plain refinements alone. -/
theorem DefinitionKeywords.isPlain_refinements (k : DefinitionKeywords) :
    ∀ r ∈ k.refinements, r.isPlain = true := by
  have given {α : Type} {make : α → Refinement} (hmake : ∀ a, (make a).isPlain = true) (a : Option α) :
      ∀ r ∈ (a.map make).toList, r.isPlain = true := by
    intro r hr
    obtain ⟨a, -, rfl⟩ := Option.map_eq_some_iff.1 (Option.mem_toList.1 hr)
    exact hmake a
  have flag {plain : Refinement} (hplain : plain.isPlain = true) (isSet : Bool) :
      ∀ r ∈ (if isSet then [plain] else [] : List Refinement), r.isPlain = true := by
    cases isSet <;> simp [hplain]
  unfold refinements
  dsimp only
  simp only [List.forall_mem_append]
  and_intros
  all_goals first | exact flag rfl _ | exact given (fun _ => rfl) _

theorem DefinitionKeywords.children_refine [PatternReader] (k : DefinitionKeywords) (s : Schema) :
    (k.refine s).children = s.children :=
  Schema.children_refineAll k.isPlain_refinements s

/-! ## What a definition reads -/

namespace SchemaDefinition

def list (keyword : ListKeyword) : SchemaDefinition → List SchemaDefinition
  | .mk _ _ _ one all any _ =>
    (match keyword with
      | .oneOf => one
      | .allOf => all
      | .anyOf => any).getD []

/-- The definition after a step. Of properties with the same name the last one counts. -/
def child? : SchemaDefinition → SchemaStep → Option SchemaDefinition
  | .mk _ items _ _ _ _ _, .items => items
  | .mk _ _ properties _ _ _ _, .property name => (properties.getD []).reverse.lookup name
  | .mk k items properties one all any negated, .member name index =>
    if name = "not" then if index = 0 then negated else none
    else (ListKeyword.ofName? name).bind fun keyword =>
      ((mk k items properties one all any negated).list keyword)[index]?

/-- The type of a definition that is neither a reference nor a composition. -/
def plainType? : SchemaDefinition → Option String
  | .mk k _ properties one all any negated =>
    if k.reference.isSome || (one.isSome || all.isSome || any.isSome || negated.isSome) then none
    else k.type.or (properties.map fun _ => "object")

/-- The form of a definition says which of the definitions below it are read. -/
def takes (d : SchemaDefinition) : SchemaStep → Bool
  | .items => d.plainType? == some "array"
  | .property _ => d.plainType? == some "object"
  | .member _ _ => true

/-- The definition after a step, when it is read. -/
def read? (d : SchemaDefinition) (step : SchemaStep) : Option SchemaDefinition :=
  if d.takes step then d.child? step else none

def at? (d : SchemaDefinition) (steps : List SchemaStep) : Option SchemaDefinition := steps.foldlM child? d

/-- The definition after several steps, when each one on the way is read. -/
def readAt? (d : SchemaDefinition) (steps : List SchemaStep) : Option SchemaDefinition := steps.foldlM read? d

variable {d : SchemaDefinition}

theorem read?_member (d : SchemaDefinition) (name : String) (index : Nat) :
    d.read? (.member name index) =
      if name = "not" then if index = 0 then d.child? (.member "not" 0) else none
      else (ListKeyword.ofName? name).bind fun keyword => (d.list keyword)[index]? := by
  cases d with
  | mk k items properties one all any negated =>
    by_cases hname : name = "not" <;> simp [read?, takes, child?, hname]

theorem readAt?_cons (step : SchemaStep) (steps : List SchemaStep) :
    d.readAt? (step :: steps) = (d.read? step).bind (·.readAt? steps) := rfl

theorem at?_cons (step : SchemaStep) (steps : List SchemaStep) :
    d.at? (step :: steps) = (d.child? step).bind (·.at? steps) := rfl

theorem readAt?_concat (steps : List SchemaStep) (step : SchemaStep) :
    d.readAt? (steps ++ [step]) = (d.readAt? steps).bind (·.read? step) :=
  foldlM_concat_option read? steps step d

theorem at?_concat (steps : List SchemaStep) (step : SchemaStep) :
    d.at? (steps ++ [step]) = (d.at? steps).bind (·.child? step) :=
  foldlM_concat_option child? steps step d

theorem at?_of_readAt? {steps : List SchemaStep} {e : SchemaDefinition} (he : d.readAt? steps = some e) :
    d.at? steps = some e := by
  induction steps generalizing d with
  | nil => exact he
  | cons step steps ih =>
    rw [readAt?_cons] at he
    obtain ⟨c, hread, he⟩ := Option.bind_eq_some_iff.1 he
    unfold read? at hread
    split at hread
    · rw [at?_cons, hread, Option.bind_some]
      exact ih he
    · nomatch hread

/-- Every definition right below is read. -/
def TakesAll (d : SchemaDefinition) : Prop := ∀ step, (d.child? step).isSome = true → d.takes step = true

theorem readAt?_of_at? (htakes : ∀ steps e, d.readAt? steps = some e → e.TakesAll) {steps : List SchemaStep}
    {e : SchemaDefinition} (he : d.at? steps = some e) : d.readAt? steps = some e := by
  induction steps using List.reverseRecOn generalizing e with
  | nil => exact he
  | append_singleton steps step ih =>
    rw [at?_concat] at he
    obtain ⟨outer, houter, hchild⟩ := Option.bind_eq_some_iff.1 he
    have hread := ih houter
    have htaken : outer.takes step = true := htakes steps outer hread step (by rw [hchild]; rfl)
    rw [readAt?_concat, hread, Option.bind_some, read?, if_pos htaken, hchild]

/-! ## Building the parts -/

variable {place keyword : String} {s t : Schema}

/-- A slot of a composition is filled with what it is given, and stays empty when it is given nothing. -/
def Fills {α : Type} (slot : Option (Except DefinitionError α)) (empty filled : α) : Prop :=
  slot = none ∧ filled = empty ∨ slot = some (.ok filled)

theorem ofType_ok {type : String} {items : Option (Except DefinitionError Schema)}
    {properties : Option (Except DefinitionError (List (String × Schema)))}
    (h : ofType place type items properties = .ok s) :
    (∃ item, type = "array" ∧ items = some (.ok item) ∧ s = .array {} item) ∨
      (∃ qs, type = "object" ∧ Fills properties [] qs ∧ s = .ofProperties qs) ∨
      type ≠ "array" ∧ type ≠ "object" ∧ ∃ t, s = .primitive {} t := by
  unfold ofType at h
  split at h
  · match items, h with
    | some (.ok item), h =>
      cases h
      exact .inl ⟨item, rfl, rfl, rfl⟩
  · match properties, h with
    | none, h =>
      cases h
      exact .inr (.inl ⟨[], rfl, .inl ⟨rfl, rfl⟩, rfl⟩)
    | some (.ok qs), h =>
      cases h
      exact .inr (.inl ⟨qs, rfl, .inr rfl, rfl⟩)
  · next harray hobject =>
    split at h
    · cases h
      exact .inr (.inr ⟨harray, hobject, _, rfl⟩)
    · nomatch h

theorem compose_eq {f : Facets} {one all any : List Schema} {n : Option Schema} (k : ListKeyword) (ss : List Schema)
    (hempty : (Schema.composition f one all any n).members k = []) :
    ∃ g, (Schema.composition f one all any n).compose k ss =
      match k with
      | .oneOf => .composition g ss all any n
      | .allOf => .composition g one ss any n
      | .anyOf => .composition g one all ss n := by
  cases ss with
  | nil =>
    -- the keyword is faulted, and nothing is what it had
    cases k <;> cases hempty <;> exact ⟨_, rfl⟩
  | cons s ss => cases k <;> cases hempty <;> exact ⟨f, rfl⟩

section Building

variable [PatternReader]

theorem membersToSchemas_ok {index : Nat} {ds : List SchemaDefinition} {ss : List Schema}
    (h : membersToSchemas place keyword index ds = .ok ss) :
    ds.mapIdx (fun i d => d.toSchema (place ++ "." ++ keyword ++ "[" ++ toString (index + i) ++ "]")) =
      ss.map .ok := by
  induction ds generalizing index ss with
  | nil =>
    cases h
    rfl
  | cons d ds ih =>
    obtain ⟨s, hs, h⟩ := bind_ok_iff.1 h
    obtain ⟨ss, hss, ⟨⟩⟩ := bind_ok_iff.1 h
    have hrest := ih hss
    simp only [Nat.add_assoc, Nat.add_comm 1] at hrest
    rw [List.mapIdx_cons, List.map_cons, Nat.add_zero, hs, hrest]

theorem propertiesToSchemas_ok {ps : List (String × SchemaDefinition)} {qs : List (String × Schema)}
    (h : propertiesToSchemas place ps = .ok qs) :
    ps.map (fun p => (p.1, p.2.toSchema (place ++ "." ++ p.1))) = qs.map fun q => (q.1, .ok q.2) := by
  induction ps generalizing qs with
  | nil =>
    cases h
    rfl
  | cons p ps ih =>
    obtain ⟨s, hs, h⟩ := bind_ok_iff.1 h
    obtain ⟨qs, hqs, ⟨⟩⟩ := bind_ok_iff.1 h
    rw [List.map_cons, List.map_cons, hs, ih hqs]

def fillSlot (s : Schema) (slot : ListKeyword × Option (Except DefinitionError (List Schema))) :
    Except DefinitionError Schema :=
  match slot.2 with
  | some schemas => schemas.map (s.refine <| .compose slot.1 ·)
  | none => .ok s

theorem fillSlot_ok {f : Facets} {one all any : List Schema} {n : Option Schema} {k : ListKeyword}
    {slot : Option (Except DefinitionError (List Schema))}
    (h : fillSlot (.composition f one all any n) (k, slot) = .ok s)
    (hempty : (Schema.composition f one all any n).members k = []) :
    ∃ g ss, Fills slot [] ss ∧ s =
      match k with
      | .oneOf => .composition g ss all any n
      | .allOf => .composition g one ss any n
      | .anyOf => .composition g one all ss n := by
  cases slot with
  | none =>
    cases h
    refine ⟨f, [], .inl ⟨rfl, rfl⟩, ?_⟩
    cases k <;> cases hempty <;> rfl
  | some schemas =>
    cases schemas with
    | error e => nomatch h
    | ok ss =>
      cases h
      obtain ⟨g, hg⟩ := compose_eq k ss hempty
      exact ⟨g, ss, .inr rfl, hg⟩

theorem ofSlots_ok {one all any : Option (Except DefinitionError (List Schema))}
    {negated : Option (Except DefinitionError Schema)}
    (h : ofSlots [(.oneOf, one), (.allOf, all), (.anyOf, any)] negated = .ok s) :
    ∃ f os as bs n, s = .composition f os as bs n ∧ Fills one [] os ∧ Fills all [] as ∧ Fills any [] bs ∧
      negated = n.map .ok := by
  obtain ⟨filled, hslots, h⟩ := bind_ok_iff.1 h
  have hrun : [(.oneOf, one), (.allOf, all), (.anyOf, any)].foldlM fillSlot Schema.emptyComposition = .ok filled :=
    hslots
  obtain ⟨first, hone, hslots⟩ := foldlM_cons_ok.1 hrun
  obtain ⟨second, hall, hslots⟩ := foldlM_cons_ok.1 hslots
  obtain ⟨third, hany, ⟨⟩⟩ := foldlM_cons_ok.1 hslots
  obtain ⟨f, os, hos, rfl⟩ := fillSlot_ok hone rfl
  obtain ⟨f, as, has, rfl⟩ := fillSlot_ok hall rfl
  obtain ⟨f, bs, hbs, rfl⟩ := fillSlot_ok hany rfl
  cases negated with
  | none =>
    cases h
    exact ⟨f, os, as, bs, none, rfl, hos, has, hbs, rfl⟩
  | some built =>
    cases built with
    | error e => nomatch h
    | ok n =>
      cases h
      exact ⟨f, os, as, bs, some n, rfl, hos, has, hbs, rfl⟩

/-! ## Parts that correspond -/

/-- The parts of a schema are what the parts of a definition that it reads describe. -/
structure Mirrors (place : String) (d : SchemaDefinition) (s : Schema) : Prop where
  items : (d.read? .items).map (toSchema (SchemaStep.items.below place)) = s.item?.map .ok
  property : ∀ name, (d.read? (.property name)).map (toSchema ((SchemaStep.property name).below place)) =
    (Entries.get? s.ownProperties name).map .ok
  member : ∀ (keyword : ListKeyword) index,
    ((d.list keyword)[index]?).map (toSchema ((SchemaStep.member keyword.name index).below place)) =
      (s.members keyword)[index]?.map .ok
  negated : (d.child? (.member "not" 0)).map (toSchema ((SchemaStep.member "not" 0).below place)) =
    s.negated?.map .ok
  keys : (Entries.keys s.ownProperties).Nodup

/-- After each step there is the schema that the definition there describes, if the definition is read. -/
theorem Mirrors.child {d : SchemaDefinition} (h : Mirrors place d s) (step : SchemaStep) :
    ∃ o : Option Schema, (d.read? step).map (toSchema (step.below place)) = o.map .ok ∧
      ∀ t, (step, t) ∈ s.children ↔ o = some t := by
  cases step with
  | items => exact ⟨s.item?, h.items, fun _ => Schema.items_mem_children_iff⟩
  | property name =>
    refine ⟨Entries.get? s.ownProperties name, h.property name, fun t => ?_⟩
    rw [Schema.property_mem_children_iff]
    exact ⟨Entries.get?_eq_some_of_mem h.keys, Entries.mem_of_get?_eq_some⟩
  | member name index =>
    simp only [Schema.member_mem_children_iff, read?_member]
    by_cases hnot : name = "not"
    · subst hnot
      have hkeyword (k : ListKeyword) : "not" ≠ k.name := k.name_ne_not.symm
      by_cases hindex : index = 0
      · subst hindex
        exact ⟨s.negated?, by simpa using h.negated, by simp [hkeyword]⟩
      · exact ⟨none, by simp [hindex], by simp [hkeyword, hindex]⟩
    · cases hname : ListKeyword.ofName? name with
      | some k =>
        obtain rfl := ListKeyword.ofName?_eq_some_iff.1 hname
        refine ⟨(s.members k)[index]?, by simpa [hnot] using h.member k index, fun t => ?_⟩
        have hunique (k' : ListKeyword) : k.name = k'.name ↔ k' = k := by
          rw [← ListKeyword.ofName?_eq_some_iff, hname, Option.some_inj, eq_comm]
        simp [hunique, hnot]
      | none =>
        have hnone (k : ListKeyword) : name ≠ k.name := by
          rw [ne_eq, ← ListKeyword.ofName?_eq_some_iff, hname]
          simp
        exact ⟨none, by simp [hnot], by simp [hnot, hnone]⟩

/-! ## The forms of a definition -/

section Forms

abbrev uncomposed (k : DefinitionKeywords) (items : Option SchemaDefinition)
    (properties : Option (List (String × SchemaDefinition))) : SchemaDefinition :=
  .mk k items properties none none none none

variable {k : DefinitionKeywords} {items negated : Option SchemaDefinition}
  {properties : Option (List (String × SchemaDefinition))} {one all any : Option (List SchemaDefinition)}

theorem mirrors_uncomposed (hmembers : ∀ keyword, s.members keyword = []) (hnegated : s.negated? = none)
    (hitems : ((uncomposed k items properties).read? .items).map (toSchema (SchemaStep.items.below place)) =
      s.item?.map .ok)
    (hproperty : ∀ name, ((uncomposed k items properties).read? (.property name)).map
      (toSchema ((SchemaStep.property name).below place)) = (Entries.get? s.ownProperties name).map .ok)
    (hkeys : (Entries.keys s.ownProperties).Nodup) : Mirrors place (uncomposed k items properties) s where
  items := hitems
  property := hproperty
  member keyword index := by
    rw [hmembers keyword]
    cases keyword <;> rfl
  negated := by
    rw [hnegated]
    rfl
  keys := hkeys

theorem mirrors_reference (hreference : k.reference.isSome = true) (f : Facets) (name : String) :
    Mirrors place (uncomposed k items properties) (.reference f name) := by
  have hplain : plainType? (uncomposed k items properties) = none := by
    simp [plainType?, hreference]
  refine mirrors_uncomposed (fun _ => rfl) rfl ?_ (fun _ => ?_) List.nodup_nil
  · simp [read?, takes, hplain, Schema.item?]
  · simp [read?, takes, hplain, Schema.ownProperties, Schema.properties?]

theorem getElem?_of_fills (keyword : ListKeyword) {ds : Option (List SchemaDefinition)} {ss : List Schema}
    (h : Fills (membersToSchemas? place keyword.name ds) [] ss) (index : Nat) :
    ((ds.getD [])[index]?).map (toSchema ((SchemaStep.member keyword.name index).below place)) =
      ss[index]?.map .ok := by
  cases ds with
  | none =>
    obtain ⟨-, rfl⟩ | h := h
    · rfl
    · nomatch h
  | some ds =>
    obtain ⟨h, -⟩ | h := h
    · nomatch h
    · have hbuilt := membersToSchemas_ok (Option.some_inj.1 h)
      have hat := congrArg (·[index]?) hbuilt
      simpa [SchemaStep.below, keyword.name_ne_not] using hat

theorem mirrors_composition (hcomposed : (one.isSome || all.isSome || any.isSome || negated.isSome) = true)
    (h : ofSlots [(.oneOf, membersToSchemas? place "oneOf" one), (.allOf, membersToSchemas? place "allOf" all),
      (.anyOf, membersToSchemas? place "anyOf" any)] (childToSchema? (place ++ ".not") negated) = .ok s) :
    Mirrors place (.mk k items properties one all any negated) s := by
  obtain ⟨f, os, as, bs, n, rfl, hone, hall, hany, hnegated⟩ := ofSlots_ok h
  have hplain : plainType? (.mk k items properties one all any negated) = none := by
    simp [plainType?, hcomposed]
  exact {
    items := by simp [read?, takes, hplain, Schema.item?]
    property := by simp [read?, takes, hplain, Schema.ownProperties, Schema.properties?]
    member := fun keyword index => by
      cases keyword with
      | oneOf => exact getElem?_of_fills .oneOf hone index
      | allOf => exact getElem?_of_fills .allOf hall index
      | anyOf => exact getElem?_of_fills .anyOf hany index
    negated := by
      have hchild : negated.map (toSchema (place ++ ".not")) = n.map .ok := by
        rw [← hnegated]
        cases negated <;> rfl
      exact hchild
    keys := List.nodup_nil }

theorem get?_ofList_of_fills {ps : Option (List (String × SchemaDefinition))} {qs : List (String × Schema)}
    (h : Fills (propertiesToSchemas? place ps) [] qs) (name : String) :
    ((ps.getD []).reverse.lookup name).map (toSchema ((SchemaStep.property name).below place)) =
      (Entries.get? (Entries.ofList qs) name).map .ok := by
  cases ps with
  | none =>
    obtain ⟨-, rfl⟩ | h := h
    · rfl
    · nomatch h
  | some ps =>
    obtain ⟨h, -⟩ | h := h
    · nomatch h
    · have hbuilt := congrArg (fun es => es.reverse.lookup name) (propertiesToSchemas_ok (Option.some_inj.1 h))
      simp only [← List.map_reverse] at hbuilt
      rw [Entries.lookup_map_key fun name => toSchema (place ++ "." ++ name), Entries.lookup_map] at hbuilt
      rw [Entries.get?_ofList, ← hbuilt]
      rfl

theorem mirrors_plain {type : String}
    (htype : plainType? (uncomposed k items properties) = some type)
    (h : ofType place type (childToSchema? (place ++ ".items") items) (propertiesToSchemas? place properties) = .ok s) :
    Mirrors place (uncomposed k items properties) s := by
  obtain ⟨item, rfl, hitem, rfl⟩ | ⟨qs, rfl, hqs, rfl⟩ | ⟨harray, hobject, t, rfl⟩ := ofType_ok h
  · refine mirrors_uncomposed (fun _ => rfl) rfl ?_ (fun _ => ?_) List.nodup_nil
    · have hchild : items.map (toSchema (place ++ ".items")) = some (.ok item) := by
        rw [← hitem]
        cases items <;> rfl
      rw [read?, takes, htype, if_pos (beq_self_eq_true _)]
      exact hchild
    · simp [read?, takes, htype, Schema.ownProperties, Schema.properties?]
  · refine mirrors_uncomposed (fun _ => rfl) rfl ?_ (fun name => ?_) (Entries.nodup_keys_ofList qs)
    · simp [read?, takes, htype, Schema.item?, Schema.ofProperties]
    · rw [read?, takes, htype, if_pos (beq_self_eq_true _)]
      exact get?_ofList_of_fills hqs name
  · refine mirrors_uncomposed (fun _ => rfl) rfl ?_ (fun _ => ?_) List.nodup_nil
    · simp [read?, takes, htype, harray, Schema.item?]
    · simp [read?, takes, htype, hobject, Schema.ownProperties, Schema.properties?]

end Forms

/-- A definition has a schema when it has one of its forms, and then the keywords only refine what the form gives. -/
theorem exists_mirrors_of_toSchema {k : DefinitionKeywords} {items negated : Option SchemaDefinition}
    {properties : Option (List (String × SchemaDefinition))} {one all any : Option (List SchemaDefinition)}
    (h : (mk k items properties one all any negated).toSchema place = .ok s) :
    ∃ base, Mirrors place (.mk k items properties one all any negated) base ∧ s = k.refine base := by
  rw [toSchema] at h
  have huncomposed (hnone : (one.isSome || all.isSome || any.isSome || negated.isSome) = false) :
      one = none ∧ all = none ∧ any = none ∧ negated = none := by
    simpa [and_assoc] using hnone
  -- a reference takes neither a type nor a composition, and a composition takes no type
  split at h
  · cases h
  · cases h
  · next name hreference hnone _ =>
    obtain ⟨rfl, rfl, rfl, rfl⟩ := huncomposed hnone
    exact ⟨_, mirrors_reference (by simp [hreference]) {} name, (Except.ok.inj h).symm⟩
  · cases h
  · next hreference hcomposed _ =>
    obtain ⟨base, hbase, hs⟩ := bind_ok_iff.1 h
    exact ⟨base, mirrors_composition hcomposed hbase, (Except.ok.inj hs).symm⟩
  · next hreference hnone =>
    obtain ⟨rfl, rfl, rfl, rfl⟩ := huncomposed hnone
    split at h
    · next type htype =>
      obtain ⟨base, hbase, hs⟩ := bind_ok_iff.1 h
      have hplain : plainType? (uncomposed k items properties) = some type := by
        simpa [plainType?, hreference] using htype
      exact ⟨base, mirrors_plain hplain hbase, (Except.ok.inj hs).symm⟩
    · cases h

/-! ## Nodes -/

/-- The children of the schema of a definition are what the definitions that it reads describe. -/
theorem children_of_toSchema (h : d.toSchema place = .ok s) (step : SchemaStep) :
    ∃ o : Option Schema, (d.read? step).map (toSchema (step.below place)) = o.map .ok ∧
      ∀ t, (step, t) ∈ s.children ↔ o = some t := by
  cases d with
  | mk k items properties one all any negated =>
    obtain ⟨base, hbase, hs⟩ := exists_mirrors_of_toSchema h
    rw [hs, k.children_refine]
    exact hbase.child step

theorem mem_children_iff (h : d.toSchema place = .ok s) {step : SchemaStep} :
    (step, t) ∈ s.children ↔ ∃ c, d.read? step = some c ∧ c.toSchema (step.below place) = .ok t := by
  obtain ⟨o, ho, hchildren⟩ := children_of_toSchema h step
  have hsome : o = some t ↔ o.map .ok = some (Except.ok (ε := DefinitionError) t) := by
    cases o <;> simp
  rw [hchildren, hsome, ← ho, Option.map_eq_some_iff]

theorem exists_toSchema_of_read? (h : d.toSchema place = .ok s) {step : SchemaStep} {c : SchemaDefinition}
    (hc : d.read? step = some c) : ∃ t, c.toSchema (step.below place) = .ok t := by
  obtain ⟨o, ho, -⟩ := children_of_toSchema h step
  rw [hc, Option.map_some] at ho
  obtain ⟨t, -, ht⟩ := Option.map_eq_some_iff.1 ho.symm
  exact ⟨t, ht.symm⟩

/-- The nodes of the schema of a definition are what the definitions describe that are read on the way there. -/
theorem node_iff_readAt? (h : d.toSchema place = .ok s) {steps : List SchemaStep} :
    s.Node steps t ↔ ∃ e, d.readAt? steps = some e ∧ e.toSchema (SchemaStep.farBelow place steps) = .ok t := by
  induction steps generalizing d place s with
  | nil =>
    constructor
    · rintro ⟨⟩
      exact ⟨d, rfl, h⟩
    · rintro ⟨_, ⟨⟩, ht⟩
      cases h.symm.trans ht
      exact .root _
  | cons step steps ih =>
    simp only [readAt?_cons, Option.bind_eq_some_iff]
    constructor
    · rintro (_ | ⟨hc, ht⟩)
      obtain ⟨c, hread, hcs⟩ := (mem_children_iff h).1 hc
      obtain ⟨e, he, het⟩ := (ih hcs).1 ht
      exact ⟨e, ⟨c, hread, he⟩, het⟩
    · rintro ⟨e, ⟨c, hread, he⟩, het⟩
      obtain ⟨u, hu⟩ := exists_toSchema_of_read? h hread
      exact .inside ((mem_children_iff h).2 ⟨c, hread, hu⟩) ((ih hu).2 ⟨e, he, het⟩)

theorem exists_toSchema_of_readAt? (h : d.toSchema place = .ok s) {steps : List SchemaStep} {e : SchemaDefinition}
    (he : d.readAt? steps = some e) : ∃ t, e.toSchema (SchemaStep.farBelow place steps) = .ok t := by
  induction steps generalizing d place s with
  | nil =>
    cases he
    exact ⟨s, h⟩
  | cons step steps ih =>
    rw [readAt?_cons] at he
    obtain ⟨c, hread, he⟩ := Option.bind_eq_some_iff.1 he
    obtain ⟨u, hu⟩ := exists_toSchema_of_read? h hread
    exact ih hu he

theorem exists_node_iff (h : d.toSchema place = .ok s) {steps : List SchemaStep} :
    (∃ t, s.Node steps t) ↔ (d.readAt? steps).isSome = true := by
  simp only [node_iff_readAt? h]
  constructor
  · rintro ⟨t, e, he, -⟩
    rw [he]
    rfl
  · intro hsome
    obtain ⟨e, he⟩ := Option.isSome_iff_exists.1 hsome
    obtain ⟨t, ht⟩ := exists_toSchema_of_readAt? h he
    exact ⟨t, e, he, ht⟩

/-- The nodes of the schema of a definition stand exactly where each definition on the way is read, and are what the
definitions there describe. So no definition is lost exactly when all that are reached read everything below them. -/
theorem nodes_of_toSchema (h : d.toSchema place = .ok s) :
    (∀ steps t, s.Node steps t ↔
      ∃ e, d.readAt? steps = some e ∧ e.toSchema (SchemaStep.farBelow place steps) = .ok t) ∧
    (∀ steps, (∃ t, s.Node steps t) ↔ (d.readAt? steps).isSome = true) ∧
    ((∀ steps e, d.at? steps = some e → ∃ t, s.Node steps t) ↔
      ∀ steps e, d.readAt? steps = some e → e.TakesAll) := by
  refine ⟨fun steps t => node_iff_readAt? h, fun steps => exists_node_iff h, ?_, ?_⟩
  · -- what stands below a definition that is reached is a definition of the tree, and has a node only when it is read
    intro hkept steps e he step hchild
    obtain ⟨c, hc⟩ := Option.isSome_iff_exists.1 hchild
    have hplace : d.at? (steps ++ [step]) = some c := by
      rw [at?_concat, at?_of_readAt? he, Option.bind_some, hc]
    have hread := (exists_node_iff h).1 (hkept _ c hplace)
    rw [readAt?_concat, he, Option.bind_some, read?] at hread
    by_contra htakes
    rw [if_neg htakes] at hread
    nomatch hread
  · intro htakes steps e he
    rw [exists_node_iff h, readAt?_of_at? htakes he]
    rfl

end Building

/-- An object of names, the last of which is a text with a property of its own. -/
def names : SchemaDefinition :=
  let text : SchemaDefinition := .mk { type := some "string" } none none none none none none
  .mk {} none (some [("all", .mk { type := some "array" } (some text) none none none none none),
    ("last", .mk { type := some "string" } none (some [("first", text)]) none none none none)]) none none none none

attribute [local instance] PatternReader.lenient

theorem nodes_of_toSchema_names :
    ∃ s, names.toSchema "schemas.Names" = .ok s ∧
      (∀ steps t, s.Node steps t ↔
        ∃ e, names.readAt? steps = some e ∧ e.toSchema (SchemaStep.farBelow "schemas.Names" steps) = .ok t) ∧
      (∀ steps, (∃ t, s.Node steps t) ↔ (names.readAt? steps).isSome = true) ∧
      ((∀ steps e, names.at? steps = some e → ∃ t, s.Node steps t) ↔
        ∀ steps e, names.readAt? steps = some e → e.TakesAll) := by
  obtain ⟨s, h⟩ := exists_ok_of_isOk (x := names.toSchema "schemas.Names") (by decide +kernel)
  exact ⟨s, h, nodes_of_toSchema h⟩

/-- The property of a text is lost, and no check tells. -/
theorem property_of_text_lost :
    ∃ s, names.toSchema "schemas.Names" = .ok s ∧ s.check = .ok () ∧
      (names.at? [.property "last", .property "first"]).isSome = true ∧
      ¬ ∃ t, s.Node [.property "last", .property "first"] t := by
  have h : names.toSchema "schemas.Names" =
      .ok (.object {} [("all", .array {} (.primitive {} .string)), ("last", .primitive {} .string)]) := rfl
  refine ⟨_, h, rfl, by decide +kernel, ?_⟩
  rw [exists_node_iff h]
  decide +kernel

end SchemaDefinition

end ApiDescription
