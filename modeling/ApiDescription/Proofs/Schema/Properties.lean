import ApiDescription.Proofs.Schema.Attribute
import ApiDescription.Proofs.Schema.Built

/-!
# Properties of built schemas

A plain refinement changes nothing but what is said about a schema (`bare_refine`), so it leaves the schemas inside it
alone. A refinement changes the properties of a schema only when it gives one (`properties?_refine`), and then puts
it under its name. So no name stands twice among the properties of a built schema (`Built.nodup_properties`).
-/

set_option autoImplicit false

namespace ApiDescription.Schema

variable {s : Schema} {r : Refinement}

/-! ## What leaves everything inside alone -/

/-- The schema of which nothing is said. -/
def bare (s : Schema) : Schema := s.mapFacets fun _ => {}

@[simp] theorem bare_mapFacets (g : Facets → Facets) (s : Schema) : (s.mapFacets g).bare = s.bare := by
  cases s <;> rfl

@[simp] theorem bare_mapConstraints (g : Constraints → Constraints) (s : Schema) :
    (s.mapConstraints g).bare = s.bare := bare_mapFacets _ s

@[simp] theorem bare_fail (e : SchemaFault) (s : Schema) : (s.fail e).bare = s.bare := bare_mapFacets _ s

@[simp] theorem bare_refuse (keyword : String) (s : Schema) : (s.refuse keyword).bare = s.bare := bare_fail _ s

@[simp] theorem bare_failIf (fault : Option SchemaFault) (s : Schema) : (s.failIf fault).bare = s.bare := by
  cases fault with
  | none => rfl
  | some e => exact bare_fail e s

@[simp] theorem bare_setPresence (presence opposite : Presence) (s : Schema) :
    (s.setPresence presence opposite).bare = s.bare := by
  unfold setPresence
  split <;> simp

@[simp] theorem bare_setCount (keyword : String) (put : UInt64 → Constraints → Constraints) (bound : Binary64)
    (s : Schema) : (s.setCount keyword put bound).bare = s.bare := by
  unfold setCount
  split <;> simp

@[simp] theorem bare_setBound (keyword : String) (counterpart : Option Binary64) (fault : SchemaFault)
    (put : Constraints → Constraints) (bound : Binary64) (s : Schema) :
    (s.setBound keyword counterpart fault put bound).bare = s.bare := by
  unfold setBound
  split
  · simp
  · split <;> simp

@[simp] theorem bare_setFormat (format : SchemaFormat) (s : Schema) : (s.setFormat format).bare = s.bare := by
  unfold setFormat
  split
  · split <;> simp
  · simp

/-- A plain refinement changes nothing but what is said about the schema. -/
theorem bare_refine [PatternReader] (hr : r.isPlain = true) (s : Schema) : (s.refine r).bare = s.bare := by
  cases r with
  | examples | compose | negate | retype | typedFormat | property => nomatch hr
  | required | optional => exact bare_setPresence _ _ s
  | title | description | default | sample | constant | deprecated | readOnly | writeOnly =>
    exact bare_mapFacets _ s
  | format format => exact bare_setFormat format s
  | nullable => cases s <;> simp [refine]
  | min | max =>
    simp only [refine, setMin, setMax]
    split <;> simp
  | formatTag tag =>
    simp only [refine]
    split <;> simp
  | multipleOf | pattern =>
    simp only [refine]
    split
    · simp
    · split <;> simp
  | _ =>
    simp only [refine]
    split <;> simp

theorem children_of_bare {t : Schema} (h : t.bare = s.bare) : t.children = s.children := by
  rw [← children_mapFacets (fun _ => {}) t, ← children_mapFacets (fun _ => {}) s]
  exact congrArg children h

theorem properties?_mapFacets (g : Facets → Facets) (s : Schema) : (s.mapFacets g).properties? = s.properties? := by
  cases s <;> rfl

theorem properties?_of_bare {t : Schema} (h : t.bare = s.bare) : t.properties? = s.properties? := by
  rw [← properties?_mapFacets (fun _ => {}) t, ← properties?_mapFacets (fun _ => {}) s]
  exact congrArg properties? h

/-! ## What leaves the properties alone -/

theorem properties?_fail (e : SchemaFault) (s : Schema) : (s.fail e).properties? = s.properties? :=
  properties?_mapFacets _ s

theorem properties?_refuse (keyword : String) (s : Schema) : (s.refuse keyword).properties? = s.properties? :=
  properties?_fail _ s

theorem properties?_setTypedFormat (type : PrimitiveType) (format : SchemaFormat) (s : Schema) :
    (s.setTypedFormat type format).properties? = s.properties? := by
  cases s with
  | primitive f t => rfl
  | _ => exact properties?_fail _ _

theorem properties?_compose (keyword : ListKeyword) (ss : List Schema) (s : Schema) :
    (s.compose keyword ss).properties? = s.properties? := by
  cases s with
  | composition f one all any n =>
    cases keyword <;> simp only [compose] <;> split <;> try split
    all_goals rfl
  | _ => exact properties?_refuse _ _

theorem properties?_negate (s c : Schema) : (s.negate c).properties? = s.properties? := by
  cases s with
  | composition f one all any n => cases n <;> rfl
  | _ => exact properties?_refuse _ _

theorem properties?_retype (type : SchemaType) (s : Schema) :
    (s.retype type).properties? = s.properties? := by
  cases s with
  | primitive f t => cases type <;> rfl
  | array | object =>
    simp only [retype]
    split
    · rfl
    · exact properties?_fail _ _
  | composition | reference => exact properties?_fail _ _

variable [PatternReader]

/-- A refinement that gives no property leaves the properties as they are. -/
theorem properties?_refine (s : Schema) (h : ∀ name c, r ≠ .property name c) :
    (s.refine r).properties? = s.properties? := by
  by_cases hr : r.isPlain = true
  · exact properties?_of_bare (bare_refine hr s)
  · cases r with
    | property name c => exact absurd rfl (h name c)
    | examples => exact properties?_mapFacets _ s
    | compose keyword ss => exact properties?_compose keyword ss s
    | negate c => exact properties?_negate s c
    | retype type => exact properties?_retype type s
    | typedFormat type format => exact properties?_setTypedFormat type format s
    | _ => exact absurd rfl hr

theorem properties?_property (s : Schema) (name : String) (c : Schema) :
    (s.refine (.property name c)).properties? = s.properties?.map (Entries.put · name c) := by
  cases s with
  | object f ps => rfl
  | _ => exact properties?_refuse _ _

/-! ## Names of properties -/

/-- A name is given to one property of a built schema at most. -/
theorem Built.nodup_properties (h : Built s) {ps : List (String × Schema)} (hps : s.properties? = some ps) :
    (Entries.keys ps).Nodup := by
  induction h generalizing ps with
  | @fresh s parts h hparts =>
    cases h with
    | object qs =>
      cases hps
      exact Entries.nodup_keys_ofList qs
    | composition keyword ss =>
      rw [composed, properties?_compose] at hps
      cases hps
    | _ => cases hps
  | @refine s r hs hoffered hr ih =>
    by_cases hproperty : ∃ name c, r = .property name c
    · obtain ⟨name, c, rfl⟩ := hproperty
      rw [properties?_property, Option.map_eq_some_iff] at hps
      obtain ⟨old, hold, rfl⟩ := hps
      exact Entries.nodup_keys_put (ih hold) name c
    · rw [properties?_refine s fun name c hr => hproperty ⟨name, c, hr⟩] at hps
      exact ih hps

end ApiDescription.Schema
