import ApiDescription.Proofs.Schema.Limit
import ApiDescription.Proofs.Schema.Node

/-!
# Attributes

A plain refinement says one thing about a schema: its attribute on the kind of the schema
(`Refinement.attribute?`), if it makes sense there. It does nothing but set the attribute when that fits what was
said before, and adds a fault otherwise (`refine_plain`). Attributes under different keywords can be set in any
order (`Attribute.put_comm`).
-/

set_option autoImplicit false

namespace ApiDescription

/-! ## Limits one by one -/

/-- The name of the keyword in a document. -/
def LimitKeyword.name : LimitKeyword → String
  | .minLength => "minLength"
  | .maxLength => "maxLength"
  | .pattern => "pattern"
  | .format => "format"
  | .minimum => "minimum"
  | .maximum => "maximum"
  | .exclusiveMinimum => "exclusiveMinimum"
  | .exclusiveMaximum => "exclusiveMaximum"
  | .multipleOf => "multipleOf"
  | .minItems => "minItems"
  | .maxItems => "maxItems"
  | .uniqueItems => "uniqueItems"
  | .minProperties => "minProperties"
  | .maxProperties => "maxProperties"
  | .additionalProperties => "additionalProperties"

/-- The limit means something by itself: a pattern is one that can be matched. -/
def Limit.isSound [PatternReader] : Limit → Bool
  | .pattern text => (PatternReader.refusal? text).isNone
  | _ => true

/-- Limits under different keywords stand in different fields. -/
theorem Limit.put_comm {l l' : Limit} (h : l.keyword ≠ l'.keyword) (c : Constraints) :
    l.put (l'.put c) = l'.put (l.put c) := by
  cases l <;> cases l' <;> first | rfl | exact absurd rfl h

/-! ## Attributes -/

/-- The presence of a schema that is marked as required or as optional. -/
def Presence.marked (required : Bool) : Presence := if required then .required else .optional

/-- One thing that can be said about a schema without changing its kind or what is inside it. -/
inductive Attribute where
  | mark (required : Bool)
  | title (text : String)
  | description (text : String)
  | default (value : Json)
  | sample (value : Json)
  | constant (value : Json)
  | enumeration (values : List Json)
  | nullable
  | deprecated
  | readOnly
  | writeOnly
  | limit (limit : Limit)

namespace Attribute

/-- The keyword under which a document gives the attribute. A mark shows in the schema around it alone. -/
def keyword? : Attribute → Option String
  | .mark _ => none
  | .title _ => some "title"
  | .description _ => some "description"
  | .default _ => some "default"
  | .sample _ => some "example"
  | .constant _ => some "const"
  | .enumeration _ => some "enum"
  | .nullable => some "type"
  | .deprecated => some "deprecated"
  | .readOnly => some "readOnly"
  | .writeOnly => some "writeOnly"
  | .limit l => some l.keyword.name

/-- The facets with the attribute set. -/
def put (a : Attribute) (f : Facets) : Facets :=
  match a with
  | .mark required => { f with presence := .marked required }
  | .title text => { f with title := some text }
  | .description text => { f with description := some text }
  | .default value => { f with default := some value }
  | .sample value => { f with sample := some value }
  | .constant value => { f with constant := some value }
  | .enumeration values => { f with enumeration := some values }
  | .nullable => { f with nullable := true }
  | .deprecated => { f with deprecated := true }
  | .readOnly => { f with readOnly := true }
  | .writeOnly => { f with writeOnly := true }
  | .limit l => { f with constraints := l.put f.constraints }

/-- The attribute contradicts nothing that was said before. -/
def Fits (a : Attribute) (f : Facets) : Prop :=
  match a with
  | .mark required => f.presence ≠ .marked (!required)
  | .limit l => l.Fits f.constraints
  | _ => True

@[simp] theorem faults_put (a : Attribute) (f : Facets) : (a.put f).faults = f.faults := by
  cases a <;> rfl

/-- The attributes have no keyword in common. -/
def Apart (a b : Attribute) : Prop := ∀ k, a.keyword? = some k → b.keyword? ≠ some k

instance : Std.Symm Apart where
  symm _ _ h k hb ha := h k ha hb

/-- Attributes without a keyword in common can be set in any order, unless they are different marks. -/
theorem put_comm {a b : Attribute} (hkeyword : Apart a b)
    (hmark : ∀ p q, a = .mark p → b = .mark q → p = q) (f : Facets) :
    a.put (b.put f) = b.put (a.put f) := by
  cases a with
  | mark p =>
    cases b with
    | mark q => rw [hmark p q rfl rfl]
    | _ => rfl
  | limit l =>
    cases b with
    | limit l' =>
      have hne : l.keyword ≠ l'.keyword := fun h => hkeyword _ rfl (by rw [keyword?, h])
      simp only [put, Limit.put_comm hne]
    | _ => rfl
  | _ => cases b <;> first | rfl | exact absurd rfl (hkeyword _ rfl)

end Attribute

/-! ## Plain refinements -/

namespace Refinement

/-- The refinement neither changes the kind of a schema nor gives it schemas or named examples. -/
def isPlain : Refinement → Bool
  | .examples _ | .compose _ _ | .negate _ | .retype _ | .typedFormat _ _ | .property _ _ => false
  | _ => true

variable [PatternReader]

/-- The limit that a refinement asks for, if it is one for schemas of the kind. -/
def soundLimit? (k : SchemaKind) (r : Refinement) : Option Limit :=
  (r.limit? k).filter fun l => l.suits k && l.isSound

/-- The attribute that a plain refinement gives a schema of the kind, if it makes sense there. -/
def attribute? (k : SchemaKind) (r : Refinement) : Option Attribute :=
  match r with
  | .required => some (.mark true)
  | .optional => some (.mark false)
  | .title text => some (.title text)
  | .description text => some (.description text)
  | .default value => some (.default value)
  | .sample value => some (.sample value)
  | .constant value => some (.constant value)
  | .enumeration values => if values.isEmpty then none else some (.enumeration values)
  | .nullable => if k = .composition ∨ k = .reference then none else some .nullable
  | .deprecated => some .deprecated
  | .readOnly => some .readOnly
  | .writeOnly => some .writeOnly
  | r => (r.soundLimit? k).map .limit

end Refinement

namespace Schema

variable {s t : Schema} {r : Refinement}

/-! ## Facets and limits of changed schemas -/

@[simp] theorem facets_fail (e : SchemaFault) (s : Schema) :
    (s.fail e).facets = { s.facets with faults := s.facets.faults ++ [e] } := facets_mapFacets _ s

@[simp] theorem facets_mapConstraints (g : Constraints → Constraints) (s : Schema) :
    (s.mapConstraints g).facets = { s.facets with constraints := g s.constraints } :=
  facets_mapFacets _ s

@[simp] theorem constraints_mapConstraints (g : Constraints → Constraints) (s : Schema) :
    (s.mapConstraints g).constraints = g s.constraints := by
  rw [constraints, facets_mapConstraints]

@[simp] theorem kind_mapConstraints (g : Constraints → Constraints) (s : Schema) :
    (s.mapConstraints g).kind = s.kind := kind_mapFacets _ s

/-! ## Kinds of schemas -/

theorem isNumeric_eq (s : Schema) :
    s.isNumeric = (s.kind == .primitive .number || s.kind == .primitive .integer) := by
  cases s with
  | primitive f t => cases t <;> rfl
  | _ => rfl

theorem isArray_eq (s : Schema) : s.isArray = (s.kind == .array) := by
  cases s <;> rfl

theorem isObject_eq (s : Schema) : s.isObject = (s.kind == .object) := by
  cases s <;> rfl

theorem kind_of_isObject (h : s.isObject = true) : s.kind = .object := by
  rw [isObject_eq] at h
  exact beq_iff_eq.1 h

theorem suits_pattern (s : Schema) (text : String) :
    (Limit.pattern text).suits s.kind = decide (s.primitive? = some .string) := by
  cases s with
  | primitive f t => cases t <;> rfl
  | _ => rfl

/-! ## Settled refinements -/

/-- The second schema has one fault more than the first. -/
def Faulted (s t : Schema) : Prop := ∃ e, t.facets.faults = s.facets.faults ++ [e]

theorem faulted_fail (e : SchemaFault) (s : Schema) : Faulted s (s.fail e) :=
  ⟨e, by rw [facets_fail]⟩

/-- The schema has its attribute when it fits, or a fault more than before. -/
def Settled (s : Schema) (a : Option Attribute) (t : Schema) : Prop :=
  (∃ b, a = some b ∧ b.Fits s.facets ∧ t = s.mapFacets b.put) ∨
    (∀ b, a = some b → ¬ b.Fits s.facets) ∧ Faulted s t

theorem Settled.of_fits {a : Attribute} (h : a.Fits s.facets) : Settled s (some a) (s.mapFacets a.put) :=
  .inl ⟨a, rfl, h, rfl⟩

theorem settled_none_fail (e : SchemaFault) (s : Schema) : Settled s none (s.fail e) :=
  .inr ⟨nofun, faulted_fail e s⟩

theorem Settled.of_misfit {a : Attribute} (h : ¬ a.Fits s.facets) (hfaulted : Faulted s t) :
    Settled s (some a) t := by
  refine .inr ⟨?_, hfaulted⟩
  rintro _ ⟨⟩
  exact h

theorem settled_setPresence (s : Schema) (required : Bool) :
    Settled s (some (.mark required)) (s.setPresence (.marked required) (.marked !required)) := by
  unfold setPresence
  split
  · next h => exact .of_misfit (fun hfits => hfits h) (faulted_fail _ s)
  · next h => exact .of_fits h

variable [PatternReader]

theorem settled_setCount {keyword : String} (limit : UInt64 → Limit) {bound : Binary64}
    (hlimit : r.limit? s.kind = bound.toCount?.map limit)
    (hfits : ∀ n c, (limit n).Fits c ↔ ((limit n).put c).invertedCounts = none)
    (hsuits : ∀ n, ((limit n).suits s.kind && (limit n).isSound) = true) :
    Settled s ((r.soundLimit? s.kind).map .limit) (s.setCount keyword (fun n => (limit n).put) bound) := by
  unfold setCount
  rw [Refinement.soundLimit?, hlimit]
  cases hn : bound.toCount? with
  | none => exact settled_none_fail _ s
  | some n =>
    rw [Option.map_some, Option.filter_some, if_pos (hsuits n), Option.map_some]
    dsimp only
    cases hinverted : (s.mapConstraints (limit n).put).constraints.invertedCounts with
    | none =>
      rw [constraints_mapConstraints] at hinverted
      exact .of_fits ((hfits n _).2 hinverted)
    | some e =>
      rw [constraints_mapConstraints] at hinverted
      refine .of_misfit (fun h => ?_) ⟨e, by rw [failIf, facets_fail, facets_mapConstraints]⟩
      exact absurd (hinverted.symm.trans ((hfits n _).1 h)) (Option.some_ne_none e)

theorem settled_setBound {keyword : String} {counterpart : Option Binary64} {fault : SchemaFault}
    (limit : Limit) {bound : Binary64} (hlimit : r.limit? s.kind = some limit)
    (hfits : limit.Fits s.constraints ↔ bound.isFinite = true ∧ counterpart = none ∧
      (limit.put s.constraints).invertedValues = none)
    (hsuits : (limit.suits s.kind && limit.isSound) = true) :
    Settled s ((r.soundLimit? s.kind).map .limit) (s.setBound keyword counterpart fault limit.put bound) := by
  rw [Refinement.soundLimit?, hlimit, Option.filter_some, if_pos hsuits, Option.map_some]
  unfold setBound
  cases hfinite : bound.isFinite with
  | false => exact .of_misfit (fun h => by simpa [hfinite] using (hfits.1 h).1) (faulted_fail _ s)
  | true =>
    cases hcounterpart : counterpart with
    | some other =>
      exact .of_misfit (fun h => by simpa [hcounterpart] using (hfits.1 h).2.1) (faulted_fail _ s)
    | none =>
      simp only [Bool.not_true, Bool.false_eq_true, if_false, Option.isSome_none]
      cases hinverted : (s.mapConstraints limit.put).constraints.invertedValues with
      | none =>
        rw [constraints_mapConstraints] at hinverted
        exact .of_fits (hfits.2 ⟨hfinite, hcounterpart, hinverted⟩)
      | some e =>
        rw [constraints_mapConstraints] at hinverted
        refine .of_misfit (fun h => ?_) ⟨e, by rw [failIf, facets_fail, facets_mapConstraints]⟩
        exact absurd (hinverted.symm.trans (hfits.1 h).2.2) (Option.some_ne_none e)

theorem settled_fail_of_soundLimit? (h : r.soundLimit? s.kind = none) (e : SchemaFault) :
    Settled s ((r.soundLimit? s.kind).map .limit) (s.fail e) := by
  rw [h]
  exact settled_none_fail e s

theorem settled_of_limit {l : Limit} (hlimit : r.limit? s.kind = some l)
    (hsuits : (l.suits s.kind && l.isSound) = true) (hfits : l.Fits s.constraints) :
    Settled s ((r.soundLimit? s.kind).map .limit) (s.mapConstraints l.put) := by
  rw [Refinement.soundLimit?, hlimit, Option.filter_some, if_pos hsuits]
  exact .of_fits hfits

/-- A refinement with a limit of its own looks first whether the limit is one for schemas of the kind. -/
theorem settled_guarded {guard : Bool} (hsuits : ∀ l, r.limit? s.kind = some l → l.suits s.kind = guard)
    (keyword : String) (h : guard = true → Settled s ((r.soundLimit? s.kind).map .limit) t) :
    Settled s ((r.soundLimit? s.kind).map .limit) (if guard then t else s.refuse keyword) := by
  cases guard with
  | true => exact h rfl
  | false =>
    refine settled_fail_of_soundLimit? (Option.filter_eq_none_iff.2 fun l hl => ?_) _
    rw [hsuits l hl]
    exact Bool.false_ne_true

theorem settled_count {keyword : String} {guard : Bool} (limit : UInt64 → Limit) {bound : Binary64}
    (hlimit : r.limit? s.kind = bound.toCount?.map limit) (hsuits : ∀ n, (limit n).suits s.kind = guard)
    (hfits : ∀ n c, (limit n).Fits c ↔ ((limit n).put c).invertedCounts = none)
    (hsound : ∀ n, (limit n).isSound = true) :
    Settled s ((r.soundLimit? s.kind).map .limit)
      (if guard then s.setCount keyword (fun n => (limit n).put) bound else s.refuse keyword) := by
  refine settled_guarded (fun l hl => ?_) keyword fun h => ?_
  · obtain ⟨n, -, rfl⟩ := Option.map_eq_some_iff.1 (hlimit.symm.trans hl)
    exact hsuits n
  · exact settled_setCount limit hlimit hfits fun n => Bool.and_eq_true_iff.2 ⟨(hsuits n).trans h, hsound n⟩

/-! ## The plain refinements one by one -/

theorem settled_setMin (s : Schema) (bound : Binary64) :
    Settled s (((Refinement.min bound).soundLimit? s.kind).map .limit) (s.setMin bound) := by
  cases s with
  | primitive f t =>
    cases t with
    | string => exact settled_setCount .minLength rfl (fun _ _ => .rfl) fun _ => rfl
    | number | integer => exact settled_setBound (.minimum bound) rfl .rfl rfl
    | boolean | null => exact settled_none_fail _ _
  | array f item => exact settled_setCount .minItems rfl (fun _ _ => .rfl) fun _ => rfl
  | object f ps => exact settled_setCount .minProperties rfl (fun _ _ => .rfl) fun _ => rfl
  | composition | reference => exact settled_none_fail _ _

theorem settled_setMax (s : Schema) (bound : Binary64) :
    Settled s (((Refinement.max bound).soundLimit? s.kind).map .limit) (s.setMax bound) := by
  cases s with
  | primitive f t =>
    cases t with
    | string => exact settled_setCount .maxLength rfl (fun _ _ => .rfl) fun _ => rfl
    | number | integer => exact settled_setBound (.maximum bound) rfl .rfl rfl
    | boolean | null => exact settled_none_fail _ _
  | array f item => exact settled_setCount .maxItems rfl (fun _ _ => .rfl) fun _ => rfl
  | object f ps => exact settled_setCount .maxProperties rfl (fun _ _ => .rfl) fun _ => rfl
  | composition | reference => exact settled_none_fail _ _

theorem settled_setFormat (format : SchemaFormat) (hlimit : r.limit? s.kind = some (.format format)) :
    Settled s ((r.soundLimit? s.kind).map .limit) (s.setFormat format) := by
  have hmisfit (h : (Limit.format format).suits s.kind = false) : r.soundLimit? s.kind = none := by
    rw [Refinement.soundLimit?, hlimit, Option.filter_some, h]
    rfl
  cases s with
  | primitive f t =>
    simp only [setFormat]
    split
    · next h => exact settled_of_limit hlimit (Bool.and_eq_true_iff.2 ⟨h, rfl⟩) trivial
    · next h => exact settled_fail_of_soundLimit? (hmisfit (Bool.eq_false_iff.2 h)) _
  | _ => exact settled_fail_of_soundLimit? (hmisfit rfl) _

theorem settled_multipleOf (s : Schema) (factor : Binary64) :
    Settled s (((Refinement.multipleOf factor).soundLimit? s.kind).map .limit) (s.refine (.multipleOf factor)) := by
  have hlimit : (Refinement.multipleOf factor).limit? s.kind = some (.multipleOf factor) := rfl
  have hsuits : (Limit.multipleOf factor).suits s.kind = s.isNumeric := (isNumeric_eq s).symm
  simp only [refine]
  cases hnumeric : s.isNumeric with
  | false =>
    refine settled_fail_of_soundLimit? ?_ _
    rw [Refinement.soundLimit?, hlimit, Option.filter_some, hsuits, hnumeric]
    rfl
  | true =>
    have hsound : ((Limit.multipleOf factor).suits s.kind && (Limit.multipleOf factor).isSound) = true := by
      rw [hsuits, hnumeric]
      rfl
    simp only [Bool.not_true, Bool.false_eq_true, if_false]
    split
    · next h => exact settled_of_limit hlimit hsound (Bool.and_eq_true_iff.1 h)
    · next h =>
      rw [Refinement.soundLimit?, hlimit, Option.filter_some, if_pos hsound]
      exact .of_misfit (fun hfits => h (Bool.and_eq_true_iff.2 hfits)) (faulted_fail _ s)

theorem settled_pattern (s : Schema) (text : String) :
    Settled s (((Refinement.pattern text).soundLimit? s.kind).map .limit) (s.refine (.pattern text)) := by
  have hlimit : (Refinement.pattern text).limit? s.kind = some (.pattern text) := rfl
  have hsuits := suits_pattern s text
  simp only [refine, ite_not]
  split
  · next h =>
    cases hrefusal : PatternReader.refusal? text with
    | none =>
      refine settled_of_limit hlimit (Bool.and_eq_true_iff.2 ⟨hsuits.trans (decide_eq_true h), ?_⟩) trivial
      rw [Limit.isSound, hrefusal]
      rfl
    | some reason =>
      refine settled_fail_of_soundLimit? ?_ _
      rw [Refinement.soundLimit?, hlimit, Option.filter_some, Limit.isSound, hrefusal, Option.isNone_some,
        Bool.and_false]
      rfl
  · next h =>
    refine settled_fail_of_soundLimit? ?_ _
    rw [Refinement.soundLimit?, hlimit, Option.filter_some, hsuits, decide_eq_false h]
    rfl

/-- A plain refinement gives the schema its attribute, when it has one that fits, and a fault otherwise. -/
theorem refine_plain (s : Schema) (hr : r.isPlain = true) : Settled s (r.attribute? s.kind) (s.refine r) := by
  cases r with
  | examples | compose | negate | retype | typedFormat | property => nomatch hr
  | required => exact settled_setPresence s true
  | optional => exact settled_setPresence s false
  | title | description | default | sample | constant | deprecated | readOnly | writeOnly =>
    exact .of_fits trivial
  | enumeration values =>
    cases values with
    | nil => exact settled_none_fail _ s
    | cons v vs => exact .of_fits trivial
  | nullable =>
    cases s with
    | composition | reference => exact settled_none_fail _ _
    | primitive | array | object => exact .of_fits (a := .nullable) trivial
  | min bound => exact settled_setMin s bound
  | max bound => exact settled_setMax s bound
  | exclusiveMin bound =>
    have hsuits : (Limit.exclusiveMinimum bound).suits s.kind = s.isNumeric := (isNumeric_eq s).symm
    refine settled_guarded (fun l hl => Option.some_inj.1 hl ▸ hsuits) _ fun h => ?_
    exact settled_setBound (.exclusiveMinimum bound) rfl .rfl (Bool.and_eq_true_iff.2 ⟨hsuits.trans h, rfl⟩)
  | exclusiveMax bound =>
    have hsuits : (Limit.exclusiveMaximum bound).suits s.kind = s.isNumeric := (isNumeric_eq s).symm
    refine settled_guarded (fun l hl => Option.some_inj.1 hl ▸ hsuits) _ fun h => ?_
    exact settled_setBound (.exclusiveMaximum bound) rfl .rfl (Bool.and_eq_true_iff.2 ⟨hsuits.trans h, rfl⟩)
  | multipleOf factor => exact settled_multipleOf s factor
  | pattern text => exact settled_pattern s text
  | formatTag tag =>
    have hlimit : (Refinement.formatTag tag).limit? s.kind = (SchemaFormat.ofTag? tag).map .format := rfl
    simp only [refine]
    cases htag : SchemaFormat.ofTag? tag with
    | none =>
      refine settled_fail_of_soundLimit? ?_ _
      rw [Refinement.soundLimit?, hlimit, htag]
      rfl
    | some format => exact settled_setFormat format (by rw [hlimit, htag, Option.map_some])
  | format format => exact settled_setFormat format rfl
  | minItems bound => exact settled_count .minItems rfl (fun _ => (isArray_eq s).symm) (fun _ _ => .rfl) fun _ => rfl
  | maxItems bound => exact settled_count .maxItems rfl (fun _ => (isArray_eq s).symm) (fun _ _ => .rfl) fun _ => rfl
  | uniqueItems =>
    refine settled_guarded (fun l hl => Option.some_inj.1 hl ▸ (isArray_eq s).symm) _ fun h => ?_
    exact settled_of_limit (l := .uniqueItems) rfl
      (Bool.and_eq_true_iff.2 ⟨(isArray_eq s).symm.trans h, rfl⟩) trivial
  | minProperties bound =>
    exact settled_count .minProperties rfl (fun _ => (isObject_eq s).symm) (fun _ _ => .rfl) fun _ => rfl
  | maxProperties bound =>
    exact settled_count .maxProperties rfl (fun _ => (isObject_eq s).symm) (fun _ _ => .rfl) fun _ => rfl
  | additionalProperties allowed =>
    refine settled_guarded (fun l hl => Option.some_inj.1 hl ▸ (isObject_eq s).symm) _ fun h => ?_
    exact settled_of_limit (l := .additionalProperties allowed) rfl
      (Bool.and_eq_true_iff.2 ⟨(isObject_eq s).symm.trans h, rfl⟩) trivial

/-- Without a fault afterwards there was none before, and a plain refinement gave its attribute. -/
theorem attribute_of_faultless (hr : r.isPlain = true) (h : (s.refine r).facets.faults = []) :
    s.facets.faults = [] ∧
      ∃ a, r.attribute? s.kind = some a ∧ a.Fits s.facets ∧ s.refine r = s.mapFacets a.put := by
  obtain ⟨a, ha, hfits, heq⟩ | ⟨-, e, he⟩ := refine_plain s hr
  · rw [heq, facets_mapFacets, Attribute.faults_put] at h
    exact ⟨h, a, ha, hfits, heq⟩
  · rw [h] at he
    exact absurd he.symm (by simp)

theorem refine_of_fits {a : Attribute} (hr : r.isPlain = true) (ha : r.attribute? s.kind = some a)
    (hfits : a.Fits s.facets) : s.refine r = s.mapFacets a.put := by
  obtain ⟨b, hb, -, heq⟩ | ⟨hmisfit, -⟩ := refine_plain s hr
  · rw [heq, Option.some_inj.1 (ha.symm.trans hb)]
  · exact absurd hfits (hmisfit a ha)

end Schema

end ApiDescription
