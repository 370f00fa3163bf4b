import ApiDescription.Proofs.Entries.Table
import ApiDescription.Proofs.Schema.Attribute
import ApiDescription.Proofs.Schema.Node

/-!
# What a refinement does

A refinement adds a fault, or it is accepted (`refine_cases`). An accepted refinement sets the limit that it
asks for and no other, keeps the kind of the schema unless it changes a primitive type, adds no child but
those it is given, and leaves no enumeration and no composition empty (`Accepts`). Of plain refinements this is
what their attribute does (`Accepts.of_attribute`). Faults are never taken back, so a schema without faults was
made by accepted refinements alone.
-/

set_option autoImplicit false

namespace ApiDescription

/-- The reader that takes every text for a regular expression, for runs whose patterns are. -/
@[reducible] def PatternReader.lenient : PatternReader := ⟨fun _ => none⟩

namespace Schema

variable {s t : Schema} {r : Refinement}

/-! ## Accepted refinements -/

/-- A composition has at least one keyword filled. -/
def Filled : Schema → Prop
  | .composition _ one all any n => one ≠ [] ∨ all ≠ [] ∨ any ≠ [] ∨ n ≠ none
  | _ => True

theorem filled_mapFacets_iff (g : Facets → Facets) (s : Schema) :
    (s.mapFacets g).Filled ↔ s.Filled := by
  cases s <;> rfl

/-- What a refinement that is accepted makes of a schema. -/
structure Accepts (s : Schema) (r : Refinement) (t : Schema) : Prop where
  faults : t.facets.faults = s.facets.faults
  /-- It sets the limit that it asks for, and no other. -/
  constraints : t.constraints = ((r.limit? s.kind).map (·.put s.constraints)).getD s.constraints
  fits : ∀ l, r.limit? s.kind = some l → l.Fits s.constraints
  suits : r.Offered → ∀ l, r.limit? s.kind = some l → l.suits t.kind = true
  kind : t.kind = s.kind ∨ r.retypes = true ∧ ∃ a b, s.kind = .primitive a ∧ t.kind = .primitive b
  enumeration : s.facets.enumeration ≠ some [] → t.facets.enumeration ≠ some []
  filled : s.Filled → t.Filled
  children : ∀ c, t.HasChild c → s.HasChild c ∨ c ∈ r.schemas

theorem Accepts.of_facets {g : Facets → Facets} (hlimit : r.limit? s.kind = none)
    (hfaults : (g s.facets).faults = s.facets.faults)
    (hconstraints : (g s.facets).constraints = s.facets.constraints)
    (henumeration : s.facets.enumeration ≠ some [] → (g s.facets).enumeration ≠ some []) :
    Accepts s r (s.mapFacets g) where
  faults := by rw [facets_mapFacets, hfaults]
  constraints := by
    rw [hlimit, Schema.constraints, facets_mapFacets, hconstraints]
    rfl
  fits := by simp [hlimit]
  suits := by simp [hlimit]
  kind := .inl (kind_mapFacets g s)
  enumeration := by rwa [facets_mapFacets]
  filled := (filled_mapFacets_iff g s).2
  children c hc := .inl (by rwa [HasChild, children_mapFacets] at hc)

theorem Accepts.of_limit {l : Limit} (hlimit : r.limit? s.kind = some l) (hfits : l.Fits s.constraints)
    (hsuits : l.suits s.kind = true) : Accepts s r (s.mapConstraints l.put) where
  faults := by rw [facets_mapConstraints]
  constraints := by
    rw [hlimit, constraints_mapConstraints]
    rfl
  fits := by
    intro l' hl'
    cases hlimit.symm.trans hl'
    exact hfits
  suits := by
    intro _ l' hl'
    cases hlimit.symm.trans hl'
    rw [kind_mapConstraints]
    exact hsuits
  kind := .inl (kind_mapConstraints _ s)
  enumeration := by
    rw [facets_mapConstraints]
    exact id
  filled := (filled_mapFacets_iff _ s).2
  children c hc := .inl (by rwa [HasChild, mapConstraints, children_mapFacets] at hc)

/-- A change inside the schema leaves its facets as they are. -/
theorem Accepts.of_inside (hlimit : r.limit? s.kind = none) (hfacets : t.facets = s.facets)
    (hkind : t.kind = s.kind) (hfilled : s.Filled → t.Filled)
    (hchildren : ∀ c, t.HasChild c → s.HasChild c ∨ c ∈ r.schemas) : Accepts s r t where
  faults := by rw [hfacets]
  constraints := by
    rw [hlimit, Schema.constraints, hfacets]
    rfl
  fits := by simp [hlimit]
  suits := by simp [hlimit]
  kind := .inl hkind
  enumeration := by
    rw [hfacets]
    exact id
  filled := hfilled
  children := hchildren

/-- A plain refinement is accepted when its attribute fits. -/
theorem Accepts.of_attribute [PatternReader] {a : Attribute} (hr : r.isPlain = true)
    (ha : r.attribute? s.kind = some a) (hfits : a.Fits s.facets) : Accepts s r (s.mapFacets a.put) := by
  have limit (hattribute : r.attribute? s.kind = (r.soundLimit? s.kind).map .limit) :
      Accepts s r (s.mapFacets a.put) := by
    obtain ⟨l, hl, rfl⟩ := Option.map_eq_some_iff.1 (hattribute.symm.trans ha)
    obtain ⟨hlimit, hsound⟩ := Option.filter_eq_some_iff.1 hl
    exact .of_limit hlimit hfits (Bool.and_eq_true_iff.1 hsound).1
  cases r with
  | examples | compose | negate | retype | typedFormat | property => nomatch hr
  | required | optional | title | description | default | sample | constant | deprecated | readOnly | writeOnly =>
    cases ha
    exact .of_facets rfl rfl rfl id
  | enumeration values =>
    rw [Refinement.attribute?] at ha
    split at ha
    · nomatch ha
    · next hvalues =>
      cases ha
      exact .of_facets rfl rfl rfl fun _ hnil => hvalues (by rw [Option.some_inj.1 hnil]; rfl)
  | nullable =>
    rw [Refinement.attribute?] at ha
    split at ha
    · nomatch ha
    · cases ha
      exact .of_facets rfl rfl rfl id
  -- all others ask for a limit
  | _ => exact limit rfl

/-! ## Other refinements -/

/-- Filling keywords of a composition leaves it filled. -/
theorem Accepts.of_composition {f : Facets} {one all any one' all' any' : List Schema}
    {n n' : Option Schema} (hlimit : r.limit? .composition = none)
    (hfilled : one' ≠ [] ∨ all' ≠ [] ∨ any' ≠ [] ∨ n' ≠ none)
    (hone : ∀ c ∈ one', c ∈ one ∨ c ∈ r.schemas) (hall : ∀ c ∈ all', c ∈ all ∨ c ∈ r.schemas)
    (hany : ∀ c ∈ any', c ∈ any ∨ c ∈ r.schemas)
    (hn : ∀ c, n' = some c → n = some c ∨ c ∈ r.schemas) :
    Accepts (.composition f one all any n) r (.composition f one' all' any' n') := by
  refine .of_inside hlimit rfl rfl (fun _ => hfilled) fun c hc => ?_
  rw [hasChild_composition_iff] at hc ⊢
  obtain ((h | h) | h) | h := hc
  · exact (hone c h).imp_left fun h => .inl (.inl (.inl h))
  · exact (hall c h).imp_left fun h => .inl (.inl (.inr h))
  · exact (hany c h).imp_left fun h => .inl (.inr h)
  · exact (hn c h).imp_left .inr

theorem accepts_compose (s : Schema) (keyword : ListKeyword) (ss : List Schema) :
    Faulted s (s.compose keyword ss) ∨ ss ≠ [] ∧ Accepts s (.compose keyword ss) (s.compose keyword ss) := by
  cases s with
  | composition f one all any n =>
    cases ss with
    | nil => cases keyword <;> cases one <;> cases all <;> cases any <;> exact .inl (faulted_fail _ _)
    | cons c cs =>
      have hne : c :: cs ≠ [] := List.cons_ne_nil c cs
      have old {cs' : List Schema} : ∀ d ∈ cs', d ∈ cs' ∨ d ∈ c :: cs := fun _ => .inl
      cases keyword with
      | oneOf =>
        cases one with
        | cons => exact .inl (faulted_fail _ _)
        | nil => exact .inr ⟨hne, .of_composition rfl (.inl hne) (fun _ => .inr) old old fun _ => .inl⟩
      | allOf =>
        cases all with
        | cons => exact .inl (faulted_fail _ _)
        | nil =>
          exact .inr ⟨hne, .of_composition rfl (.inr (.inl hne)) old (fun _ => .inr) old fun _ => .inl⟩
      | anyOf =>
        cases any with
        | cons => exact .inl (faulted_fail _ _)
        | nil =>
          exact .inr ⟨hne, .of_composition rfl (.inr (.inr (.inl hne))) old old (fun _ => .inr)
            fun _ => .inl⟩
  | _ => exact .inl (faulted_fail _ _)

theorem accepts_compose_of_faultless {keyword : ListKeyword} {ss : List Schema}
    (h : (s.compose keyword ss).facets.faults = []) :
    ss ≠ [] ∧ Accepts s (.compose keyword ss) (s.compose keyword ss) := by
  obtain ⟨e, he⟩ | haccepts := accepts_compose s keyword ss
  · rw [h] at he
    exact absurd he.symm (by simp)
  · exact haccepts

theorem accepts_negate (s c : Schema) :
    Faulted s (s.negate c) ∨ Accepts s (.negate c) (s.negate c) := by
  cases s with
  | composition f one all any n =>
    cases n with
    | some _ => exact .inl (faulted_fail _ _)
    | none =>
      refine .inr (.of_composition rfl (.inr (.inr (.inr (Option.some_ne_none c)))) (fun _ => .inl)
        (fun _ => .inl) (fun _ => .inl) fun d hd => .inr ?_)
      rw [Option.some_inj.1 hd]
      exact List.mem_singleton_self d
  | _ => exact .inl (faulted_fail _ _)

theorem accepts_retype (s : Schema) (type : SchemaType) :
    Faulted s (s.retype type) ∨ Accepts s (.retype type) (s.retype type) := by
  have kept : Accepts s (.retype type) s := .of_inside rfl rfl rfl id fun _ => .inl
  cases s with
  | primitive f t =>
    simp only [retype]
    cases PrimitiveType.ofSchemaType? type with
    | none => exact .inl (faulted_fail _ _)
    | some u =>
      have nothing : (Refinement.retype type).limit? (.primitive t) = none := rfl
      exact .inr { kept with
        suits := by simp [kind, nothing]
        kind := .inr ⟨rfl, t, u, rfl, rfl⟩
        children := fun _ => .inl }
  | array f item =>
    simp only [retype]
    split
    · exact .inr kept
    · exact .inl (faulted_fail _ _)
  | object f ps =>
    simp only [retype]
    split
    · exact .inr kept
    · exact .inl (faulted_fail _ _)
  | composition f one all any n => exact .inl (faulted_fail _ _)
  | reference f name => exact .inl (faulted_fail _ _)

theorem appliesTo_of_mem_typedFormats :
    ∀ p ∈ typedFormats, p.2.appliesTo p.1.schemaType = true := by
  decide

theorem accepts_setTypedFormat (s : Schema) (type : PrimitiveType) (format : SchemaFormat) :
    Faulted s (s.setTypedFormat type format) ∨
      Accepts s (.typedFormat type format) (s.setTypedFormat type format) := by
  cases s with
  | primitive f t =>
    refine .inr ⟨rfl, rfl, ?fits, ?suits, .inr ⟨rfl, t, type, rfl, rfl⟩, id, id, fun _ => .inl⟩
    case fits =>
      intro l hl
      cases hl
      trivial
    case suits =>
      intro hoffered l hl
      cases hl
      exact appliesTo_of_mem_typedFormats _ hoffered
  | _ => exact .inl (faulted_fail _ _)

theorem accepts_property [PatternReader] (s : Schema) (name : String) (c : Schema) :
    Faulted s (s.refine (.property name c)) ∨
      Accepts s (.property name c) (s.refine (.property name c)) := by
  cases s with
  | object f ps =>
    refine .inr (.of_inside rfl rfl rfl id fun d hd => ?_)
    obtain ⟨p, hp, rfl⟩ := hasChild_object_iff.1 hd
    rcases Entries.mem_put hp with rfl | hp
    · exact .inr (List.mem_singleton_self c)
    · exact .inl (hasChild_object_iff.2 ⟨p, hp, rfl⟩)
  | _ => exact .inl (faulted_fail _ _)

/-! ## All refinements -/

variable [PatternReader]

/-- A refinement adds a fault, or it is accepted. -/
theorem refine_cases (s : Schema) (r : Refinement) : Faulted s (s.refine r) ∨ Accepts s r (s.refine r) := by
  cases hr : r.isPlain with
  | true =>
    obtain ⟨a, ha, hfits, heq⟩ | ⟨-, hfaulted⟩ := refine_plain s hr
    · rw [heq]
      exact .inr (.of_attribute hr ha hfits)
    · exact .inl hfaulted
  | false =>
    cases r with
    | examples => exact .inr (.of_facets rfl rfl rfl id)
    | compose keyword ss => exact (accepts_compose s keyword ss).imp_right And.right
    | negate c => exact accepts_negate s c
    | retype type => exact accepts_retype s type
    | typedFormat type format => exact accepts_setTypedFormat s type format
    | property name c => exact accepts_property s name c
    | _ => nomatch hr

/-! ## Chains of refinements -/

/-- Without a fault afterwards there was none before, and the refinement was accepted. -/
theorem accepts_of_faultless (h : (s.refine r).facets.faults = []) :
    s.facets.faults = [] ∧ Accepts s r (s.refine r) := by
  obtain ⟨e, he⟩ | haccepts := refine_cases s r
  · rw [h] at he
    exact absurd he.symm (by simp)
  · exact ⟨haccepts.faults.symm.trans h, haccepts⟩

theorem faultless_of_refineAll {rs : List Refinement} (h : (s.refineAll rs).facets.faults = []) :
    s.facets.faults = [] := by
  induction rs generalizing s with
  | nil => exact h
  | cons r rs ih => exact (accepts_of_faultless (ih h)).1

theorem refineAll_concat (s : Schema) (rs : List Refinement) (r : Refinement) :
    s.refineAll (rs ++ [r]) = (s.refineAll rs).refine r := by
  rw [refineAll, List.foldl_append]
  rfl

end Schema

end ApiDescription
