import ApiDescription.Proofs.Schema.Node
import Mathlib.Data.List.Basic

/-!
# Schema trees in pre-order

`Schema.preorder` lists the schemas of a tree with their places, each of them in front of the schemas inside it. A
search that looks at the root and then into the children one after the other goes along this list
(`search_eq_findSome?`). So the check reports the first node with a fault, the search for examples the first one
with examples of both kinds, and each of them finds something exactly when there is such a node
(`searches_find_first`). Both write where: an error that goes out step by step is wrapped once, with the place that
the steps make (`SchemaError.foldr_under`), and so are the locations that the other search joins
(`SchemaStep.foldr_innerLocation`).
-/

set_option autoImplicit false

namespace ApiDescription

/-! ## Written places -/

namespace SchemaStep

/-- The written place: the steps from the root with dots between them. -/
def place (steps : List SchemaStep) : String := ".".intercalate (steps.map text)

theorem text_ne_empty (step : SchemaStep) : step.text ≠ "" := by
  intro h
  have hlength : step.text.length = 0 := by rw [h]; rfl
  cases step with
  | items => exact absurd hlength (by decide)
  | property name =>
    have : 0 < "properties.".length := by decide
    rw [text, String.length_append] at hlength
    omega
  | member keyword index =>
    have : 0 < "[".length := by decide
    rw [text, String.length_append, String.length_append, String.length_append] at hlength
    omega

theorem place_cons (step : SchemaStep) (steps : List SchemaStep) :
    place (step :: steps) = if steps = [] then step.text else step.text ++ "." ++ place steps := by
  cases steps with
  | nil => rfl
  | cons next steps => exact String.intercalate_cons_cons

theorem place_eq_empty_iff (steps : List SchemaStep) : place steps = "" ↔ steps = [] := by
  cases steps with
  | nil => exact iff_of_true rfl rfl
  | cons step steps =>
    refine iff_of_false ?_ (List.cons_ne_nil _ _)
    intro h
    rw [place_cons] at h
    split at h
    · exact step.text_ne_empty h
    · exact step.text_ne_empty (String.append_eq_empty_iff.1 (String.append_eq_empty_iff.1 h).1).1

/-- Joining from the inside outwards writes the place. -/
theorem foldr_innerLocation (steps : List SchemaStep) :
    steps.foldr (fun step => Schema.innerLocation step.text) "" = place steps := by
  induction steps with
  | nil => rfl
  | cons step steps ih =>
    have hempty : (place steps).isEmpty = true ↔ steps = [] :=
      String.isEmpty_iff.trans (place_eq_empty_iff steps)
    rw [List.foldr_cons, ih, Schema.innerLocation, place_cons]
    simp only [hempty]

end SchemaStep

namespace SchemaError

/-- The error of a node: its fault as it is at the root, and elsewhere wrapped once with the written place. -/
def atPlace (steps : List SchemaStep) (fault : SchemaFault) : SchemaError :=
  if steps = [] then .own fault else .nested (SchemaStep.place steps) (.own fault)

/-- Handing the error out step by step wraps it once. -/
theorem foldr_under (steps : List SchemaStep) (fault : SchemaFault) :
    steps.foldr (fun step => under step.text) (.own fault) = atPlace steps fault := by
  induction steps with
  | nil => rfl
  | cons step steps ih =>
    rw [List.foldr_cons, ih, atPlace, atPlace, if_neg (List.cons_ne_nil step steps), SchemaStep.place_cons]
    split <;> rfl

end SchemaError

namespace Schema

/-! ## Pre-order -/

theorem sizeOf_of_mem_membersFrom {keyword : String} {index : Nat} {ss : List Schema}
    {c : SchemaStep × Schema} (h : c ∈ membersFrom keyword index ss) : sizeOf c.2 < sizeOf ss :=
  List.sizeOf_lt_of_mem (exists_mem_membersFrom_iff.1 ⟨c.1, h⟩)

theorem sizeOf_of_mem_children {s : Schema} {c : SchemaStep × Schema} (h : c ∈ s.children) :
    sizeOf c.2 < sizeOf s := by
  cases s with
  | primitive | reference => exact absurd h List.not_mem_nil
  | array f item =>
    cases List.mem_singleton.1 h
    simp only [array.sizeOf_spec]
    omega
  | object f ps =>
    obtain ⟨p, hp, rfl⟩ := List.mem_map.1 h
    have hlist := List.sizeOf_lt_of_mem hp
    obtain ⟨name, t⟩ := p
    simp only [Prod.mk.sizeOf_spec, object.sizeOf_spec] at hlist ⊢
    omega
  | composition f one all any n =>
    simp only [composition.sizeOf_spec]
    simp only [children, List.mem_append] at h
    obtain ((h | h) | h) | h := h
    · have := sizeOf_of_mem_membersFrom h
      omega
    · have := sizeOf_of_mem_membersFrom h
      omega
    · have := sizeOf_of_mem_membersFrom h
      omega
    · obtain ⟨t, ht, rfl⟩ := List.mem_map.1 h
      cases n with
      | none => exact absurd ht List.not_mem_nil
      | some u =>
        cases List.mem_singleton.1 ht
        simp only [Option.some.sizeOf_spec]
        omega

/-- The schemas of a tree with their places: the root, and then the trees of its children one after the other. -/
def preorder (s : Schema) : List (List SchemaStep × Schema) :=
  ([], s) :: s.children.attach.flatMap fun c => (preorder c.1.2).map fun n => (c.1.1 :: n.1, n.2)
  termination_by s
  decreasing_by exact sizeOf_of_mem_children c.2

theorem preorder_eq (s : Schema) : s.preorder =
    ([], s) :: s.children.flatMap fun c => (preorder c.2).map fun n => (c.1 :: n.1, n.2) := by
  rw [preorder]
  congr 1
  rw [← List.flatMap_map Subtype.val (fun c : SchemaStep × Schema =>
    (preorder c.2).map fun n => (c.1 :: n.1, n.2)), List.attach_map_subtype_val]

theorem mem_preorder_iff {s t : Schema} {place : List SchemaStep} :
    (place, t) ∈ s.preorder ↔ s.Node place t := by
  induction s using induct generalizing place t with
  | step s ih =>
    rw [preorder_eq, List.mem_cons, List.mem_flatMap]
    constructor
    · rintro (hroot | ⟨c, hc, hn⟩)
      · cases hroot
        exact .root s
      · obtain ⟨⟨inner, u⟩, hinner, hplace⟩ := List.mem_map.1 hn
        cases hplace
        exact .inside hc ((ih c hc).1 hinner)
    · intro h
      cases h with
      | root => exact .inl rfl
      | @inside _ c _ step inner hc h =>
        exact .inr ⟨(step, c), hc, List.mem_map.2 ⟨(inner, t), (ih _ hc).2 h, rfl⟩⟩

/-! ## Searches -/

section Search

variable {α β : Type}

theorem findSome?_flatMap (f : β → Option α) (g : SchemaStep × Schema → List β)
    (cs : List (SchemaStep × Schema)) :
    (cs.flatMap g).findSome? f = cs.findSome? fun c => (g c).findSome? f := by
  induction cs with
  | nil => rfl
  | cons c cs ih =>
    rw [List.flatMap_cons, List.findSome?_append, List.findSome?_cons, ih]
    cases (g c).findSome? f <;> rfl

theorem findSome?_congr {f g : SchemaStep × Schema → Option α} {cs : List (SchemaStep × Schema)}
    (h : ∀ c ∈ cs, f c = g c) : cs.findSome? f = cs.findSome? g := by
  induction cs with
  | nil => rfl
  | cons c cs ih =>
    rw [List.findSome?_cons, List.findSome?_cons, h c List.mem_cons_self,
      ih fun d hd => h d (List.mem_cons_of_mem c hd)]

/-- A search that asks the root first, and then the children one after the other, asks all nodes in pre-order.
What a child finds goes out step by step. -/
theorem search_eq_findSome? {own search : Schema → Option α} (out : SchemaStep → α → α)
    (h : ∀ s, search s = (own s).or (s.children.findSome? fun c => (search c.2).map (out c.1)))
    (s : Schema) : search s = s.preorder.findSome? fun n => (own n.2).map (n.1.foldr out) := by
  induction s using induct with
  | step s ih =>
    have hchildren : (s.children.findSome? fun c => (search c.2).map (out c.1)) =
        (s.children.flatMap fun c => (preorder c.2).map fun n => (c.1 :: n.1, n.2)).findSome?
          fun n => (own n.2).map (n.1.foldr out) := by
      rw [findSome?_flatMap]
      refine findSome?_congr fun c hc => ?_
      rw [ih c hc, List.map_findSome?, List.findSome?_map]
      congr 1
      funext n
      rw [Function.comp_apply, Function.comp_apply, Option.map_map]
      rfl
    rw [h, hchildren, preorder_eq, List.findSome?_cons]
    cases own s <;> rfl

theorem firstError?_eq_findSome? (s : Schema) : s.firstError? =
    s.preorder.findSome? fun n => n.2.facets.faults.head?.map (SchemaError.atPlace n.1) := by
  rw [search_eq_findSome? (fun step => SchemaError.under step.text) firstError?_eq]
  congr 1
  funext n
  rw [Option.map_map]
  congr 1
  funext fault
  exact SchemaError.foldr_under n.1 fault

theorem exampleConflict?_eq_findSome? (s : Schema) : s.exampleConflict? =
    s.preorder.findSome? fun n =>
      if hasBothExamples n.2.facets then some (SchemaStep.place n.1) else none := by
  have hsearch (s : Schema) : s.exampleConflict? =
      (if hasBothExamples s.facets then some "" else none).or
        (s.children.findSome? fun c => (exampleConflict? c.2).map (innerLocation c.1.text)) := by
    rw [exampleConflict?_eq]
    split <;> rfl
  rw [search_eq_findSome? (fun step => innerLocation step.text) hsearch]
  congr 1
  funext n
  split
  · exact congrArg some (SchemaStep.foldr_innerLocation n.1)
  · rfl

end Search

/-! ## The first node -/

/-- The node at the place has the property, and no node before it in pre-order has. -/
def FirstNode (s : Schema) (P : Schema → Prop) (place : List SchemaStep) (t : Schema) : Prop :=
  ∃ before after, s.preorder = before ++ (place, t) :: after ∧ P t ∧ ∀ n ∈ before, ¬ P n.2

/-- Some fault was recorded with the schema itself. -/
def Faulty (s : Schema) : Prop := s.facets.faults ≠ []

/-- Both searches of a tree find what is there, and first what stands first. -/
structure SearchesFindFirst (s : Schema) : Prop where
  /-- Pre-order lists the schemas that are reached. -/
  listed : ∀ place t, (place, t) ∈ s.preorder ↔ s.Node place t
  fault_iff : (∃ e, s.check = .error e) ↔ ∃ place t, s.Node place t ∧ t.Faulty
  /-- The error is the first fault of the first node that has any: as it is at the root, and elsewhere wrapped
  once with the steps from the root between dots. -/
  fault : ∀ e, s.check = .error e ↔
    ∃ place t fault, s.FirstNode Faulty place t ∧ t.facets.faults.head? = some fault ∧
      e = if place = [] then .own fault
        else .nested (".".intercalate (place.map SchemaStep.text)) (.own fault)
  conflict_iff : (∃ location, s.exampleConflict? = some location) ↔
    ∃ place t, s.Node place t ∧ hasBothExamples t.facets = true
  conflict : ∀ location, s.exampleConflict? = some location ↔
    ∃ place t, s.FirstNode (fun t => hasBothExamples t.facets = true) place t ∧
      location = ".".intercalate (place.map SchemaStep.text)

theorem check_eq_error_iff (s : Schema) (e : SchemaError) :
    s.check = .error e ↔ s.firstError? = some e := by
  rw [check]
  cases s.firstError? <;> simp

theorem firstError?_eq_some_iff (s : Schema) (e : SchemaError) : s.firstError? = some e ↔
    ∃ place t fault, s.FirstNode Faulty place t ∧ t.facets.faults.head? = some fault ∧
      e = SchemaError.atPlace place fault := by
  rw [firstError?_eq_findSome?, List.findSome?_eq_some_iff]
  constructor
  · rintro ⟨before, ⟨place, t⟩, after, hsplit, hfound, hbefore⟩
    obtain ⟨fault, hfault, rfl⟩ := Option.map_eq_some_iff.1 hfound
    refine ⟨place, t, fault, ⟨before, after, hsplit, ?_, ?_⟩, hfault, rfl⟩
    · intro hnone
      have hhead : t.facets.faults.head? = none := List.head?_eq_none_iff.2 hnone
      rw [hhead] at hfault
      cases hfault
    · intro n hn hfaulty
      exact hfaulty (List.head?_eq_none_iff.1 (Option.map_eq_none_iff.1 (hbefore n hn)))
  · rintro ⟨place, t, fault, ⟨before, after, hsplit, -, hbefore⟩, hfault, rfl⟩
    refine ⟨before, (place, t), after, hsplit, ?_, ?_⟩
    · exact Option.map_eq_some_iff.2 ⟨fault, hfault, rfl⟩
    · intro n hn
      have hnone : n.2.facets.faults = [] := not_not.1 (hbefore n hn)
      exact Option.map_eq_none_iff.2 (List.head?_eq_none_iff.2 hnone)

theorem exampleConflict?_eq_some_iff (s : Schema) (location : String) :
    s.exampleConflict? = some location ↔
      ∃ place t, s.FirstNode (fun t => hasBothExamples t.facets = true) place t ∧
        location = SchemaStep.place place := by
  rw [exampleConflict?_eq_findSome?, List.findSome?_eq_some_iff]
  simp only [FirstNode, ite_eq_right_iff, reduceCtorEq, imp_false, Option.ite_none_right_eq_some,
    Option.some.injEq]
  constructor
  · rintro ⟨before, ⟨place, t⟩, after, hsplit, ⟨hboth, rfl⟩, hbefore⟩
    exact ⟨place, t, ⟨before, after, hsplit, hboth, hbefore⟩, rfl⟩
  · rintro ⟨place, t, ⟨before, after, hsplit, hboth, hbefore⟩, rfl⟩
    exact ⟨before, (place, t), after, hsplit, ⟨hboth, rfl⟩, hbefore⟩

/-- The check reports the first fault of the first node that has any, and the search for examples the first node with
both kinds; each of them finds something exactly when there is such a node, and tells where by the steps from the
root. The written place is empty for the root alone. -/
theorem searches_find_first (s : Schema) :
    s.SearchesFindFirst ∧ ∀ place : List SchemaStep,
      ".".intercalate (place.map SchemaStep.text) = "" ↔ place = [] := by
  refine ⟨?_, SchemaStep.place_eq_empty_iff⟩
  constructor
  case listed => exact fun place t => mem_preorder_iff
  case fault_iff =>
    have hcheck : (∃ e, s.check = .error e) ↔ ¬ s.check = .ok () := by
      cases s.check <;> simp
    rw [hcheck, check_ok_iff]
    simp only [Faulty, not_forall, exists_prop, ne_eq]
  case fault => exact fun e => (s.check_eq_error_iff e).trans (s.firstError?_eq_some_iff e)
  case conflict_iff =>
    rw [← Option.isSome_iff_exists, Option.isSome_iff_ne_none, Ne, exampleConflict?_eq_none_iff]
    simp only [not_forall, exists_prop, Bool.not_eq_false]
  case conflict => exact s.exampleConflict?_eq_some_iff

example : (Schema.array {} (.object {} [("id", .primitive { faults := [.emptyEnum] } .string)])).check =
    .error (.nested "items.properties.id" (.own .emptyEnum)) := by decide

end Schema

end ApiDescription
