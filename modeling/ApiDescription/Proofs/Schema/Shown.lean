import ApiDescription.Proofs.Schema.Bounds
import ApiDescription.Proofs.Schema.WellFormed

/-!
# What refinements show

An accepted refinement that gives a schema an attribute shows in the written form with the value that it gives
(`get?_mapFacets_put`), with two exceptions: nothing that is said about a reference is written, and a count above 64
bits is written as the greatest one (`shows_iff_of_check`).
-/

set_option autoImplicit false

namespace ApiDescription

/-! ## Refinements that give an attribute -/

/-- The value that a document gives for the attribute under its keyword, null beside a type apart. -/
def Attribute.json? : Attribute → Option Json
  | .mark _ | .nullable => none
  | .title text | .description text => some (.string text)
  | .default value | .sample value | .constant value => some value
  | .enumeration values => some (.array values)
  | .deprecated | .readOnly | .writeOnly => some (.bool true)
  | .limit l => l.json?

namespace Refinement

/-- The refinement gives a schema something that a document shows with the schema itself. -/
def isAttribute : Refinement → Bool
  | .required | .optional => false
  | r => r.isPlain

/-- A written schema shows what the refinement says of a schema of the kind. -/
def Shows (k : SchemaKind) (j : Json) : Refinement → Prop
  | .title text => j.get? "title" = some (.string text)
  | .description text => j.get? "description" = some (.string text)
  | .default value => j.get? "default" = some value
  | .sample value => j.get? "example" = some value
  | .constant value => j.get? "const" = some value
  | .enumeration values => j.get? "enum" = some (.array values)
  | .nullable => ∃ ts, j.get? "type" = some (.array ts) ∧ .string "null" ∈ ts
  | .deprecated => j.get? "deprecated" = some (.bool true)
  | .readOnly => j.get? "readOnly" = some (.bool true)
  | .writeOnly => j.get? "writeOnly" = some (.bool true)
  | .pattern text => j.get? "pattern" = some (.string text)
  | .formatTag tag => j.get? "format" = some (.string tag)
  | .format f => j.get? "format" = some (.string f.tag)
  | .uniqueItems => j.get? "uniqueItems" = some (.bool true)
  | .additionalProperties allowed => j.get? "additionalProperties" = some (.bool allowed)
  | r => ∃ key b n q, r.bound? k = some (key, b) ∧ j.get? key.name = some (.number n) ∧ b.rational? = some q ∧
      n.value = q

/-- The refinement gives a count that no document can show. -/
def IsCut (k : SchemaKind) (r : Refinement) : Prop :=
  ∃ key b q, r.bound? k = some (key, b) ∧ key.isCount = true ∧ b.rational? = some q ∧ 2 ^ 64 - 1 < q

end Refinement

theorem Refinement.isPlain_of_isAttribute {r : Refinement} (h : r.isAttribute = true) : r.isPlain = true := by
  cases r with
  | required | optional => rfl
  | _ => exact h

theorem SchemaFormat.tag_of_ofTag? {tag : String} {f : SchemaFormat} (h : ofTag? tag = some f) : f.tag = tag := by
  have hfound : (f.tag == tag) = true := List.find?_some (p := fun f : SchemaFormat => f.tag == tag) h
  exact beq_iff_eq.1 hfound

namespace Schema

variable {s : Schema} {r : Refinement}

/-! ## Attributes as they are written -/

/-- An attribute of a schema that is no reference is written with its value. -/
theorem get?_mapFacets_put (h : s.kind ≠ .reference) {a : Attribute} {name : String} {j : Json}
    (hname : a.keyword? = some name) (hj : a.json? = some j) : (s.mapFacets a.put).toJson.get? name = some j := by
  have hkind : (s.mapFacets a.put).kind ≠ .reference := by rwa [kind_mapFacets]
  cases a with
  | mark | nullable => nomatch hj
  | limit l =>
    cases hname
    rw [get?_limit hkind, constraints, facets_mapFacets, Attribute.put, Constraints.limit?_put, if_pos rfl,
      Option.bind_some]
    exact hj
  | _ =>
    cases hname
    cases hj
    refine get?_toJson hkind (f := (_, some _)) ?_
    simp [SchemaObject.fields, written, keywordsOf, Attribute.put, flag]

theorem type?_mapFacets (g : Facets → Facets) (s : Schema) : (s.mapFacets g).type? = s.type? := by
  cases s <;> rfl

/-- Null is written beside the type of a schema that has one. -/
theorem get?_type_of_nullable {t : SchemaType} (h : s.type? = some t) :
    (s.mapFacets Attribute.nullable.put).toJson.get? "type" = some (.array [.string t.name, .string "null"]) := by
  rw [get?_type_eq, type?_mapFacets, h, facets_mapFacets, Option.map_some]
  rfl

/-- Nothing is shown by a reference. -/
theorem not_shows_reference {kind : SchemaKind} (h : s.kind = .reference) : ¬ r.Shows kind s.toJson := by
  have hname (k : LimitKeyword) : "$ref" ≠ k.name := by cases k <;> decide
  cases r <;> simp [Refinement.Shows, get?_toJson_reference h, hname]

/-- What is said about a reference leaves its written form as it is. -/
theorem toJson_mapFacets_reference (h : s.kind = .reference) (g : Facets → Facets) :
    (s.mapFacets g).toJson = s.toJson := by
  cases s with
  | reference => rfl
  | _ => nomatch h

/-! ## Bounds -/

theorem shows_iff_of_bound? {kind : SchemaKind} {j : Json} {key : LimitKeyword} {b : Binary64}
    (hb : r.bound? kind = some (key, b)) : r.Shows kind j ↔
      ∃ n q, j.get? key.name = some (.number n) ∧ b.rational? = some q ∧ n.value = q := by
  have hshows : r.Shows kind j ↔ ∃ key b n q, r.bound? kind = some (key, b) ∧
      j.get? key.name = some (.number n) ∧ b.rational? = some q ∧ n.value = q := by
    cases r with
    | min | max | exclusiveMin | exclusiveMax | multipleOf | minItems | maxItems | minProperties | maxProperties =>
      exact .rfl
    | _ => nomatch hb
  rw [hshows]
  constructor
  · rintro ⟨key', b', n, q, hb', hnumber⟩
    cases hb.symm.trans hb'
    exact ⟨n, q, hnumber⟩
  · rintro ⟨n, q, hnumber⟩
    exact ⟨key, b, n, q, hb, hnumber⟩

section Accepted

variable [PatternReader]

/-- An accepted bound is written as it was given, unless it is a count that is cut. -/
theorem shows_bound_iff {key : LimitKeyword} {b : Binary64} (hb : r.bound? s.kind = some (key, b))
    (h : (s.refine r).facets.faults = []) :
    r.Shows s.kind (s.refine r).toJson ↔ s.kind ≠ .reference ∧ ¬ r.IsCut s.kind := by
  obtain ⟨l, q, hl, hq, hsuits, heq⟩ := refine_of_bound? hb h
  obtain ⟨n, hn, hvalue⟩ := LimitKeyword.json?_of_bounded? hl hq
  have hkind : s.kind ≠ .reference := by
    intro hkind
    rw [hkind, suits_reference] at hsuits
    nomatch hsuits
  have hget : (s.refine r).toJson.get? key.name = some (.number n) := by
    rw [heq]
    refine get?_mapFacets_put hkind (a := .limit l) ?_ hn
    rw [Attribute.keyword?, LimitKeyword.keyword_of_bounded? hl]
  have hcut : r.IsCut s.kind ↔ key.isCount = true ∧ 2 ^ 64 - 1 < q := by
    constructor
    · rintro ⟨key', b', q', hb', hcount, hq', hlt⟩
      cases hb.symm.trans hb'
      cases hq.symm.trans hq'
      exact ⟨hcount, hlt⟩
    · rintro ⟨hcount, hlt⟩
      exact ⟨key, b, q, hb, hcount, hq, hlt⟩
  rw [shows_iff_of_bound? hb, hcut, ← LimitKeyword.cut_eq_self_iff, ← hvalue, hget]
  constructor
  · rintro ⟨n', q', hn', hq', hvalue'⟩
    cases hn'
    cases hq.symm.trans hq'
    exact ⟨hkind, hvalue'⟩
  · rintro ⟨-, hexact⟩
    exact ⟨n, q, rfl, hq, hexact⟩

/-! ## Other attributes -/

/-- An accepted refinement shows what it says of a schema that is no reference. -/
theorem shows_of_bound?_eq_none (hr : r.isAttribute = true) (hb : r.bound? s.kind = none)
    (h : (s.refine r).facets.faults = []) (hkind : s.kind ≠ .reference) :
    r.Shows s.kind (s.refine r).toJson := by
  obtain ⟨-, a, ha, -, heq⟩ := attribute_of_faultless (Refinement.isPlain_of_isAttribute hr) h
  rw [heq]
  have limit (hattribute : r.attribute? s.kind = (r.soundLimit? s.kind).map .limit) :
      ∃ l, r.limit? s.kind = some l ∧ a = .limit l := by
    obtain ⟨l, hl, rfl⟩ := Option.map_eq_some_iff.1 (hattribute.symm.trans ha)
    exact ⟨l, (Option.filter_eq_some_iff.1 hl).1, rfl⟩
  cases r with
  | required | optional | examples | compose | negate | retype | typedFormat | property =>
    exact absurd hr Bool.false_ne_true
  | title | description | default | sample | constant | deprecated | readOnly | writeOnly =>
    cases ha
    exact get?_mapFacets_put hkind rfl rfl
  | enumeration values =>
    rw [Refinement.attribute?] at ha
    split at ha
    · cases ha
    · cases ha
      exact get?_mapFacets_put hkind rfl rfl
  | nullable =>
    rw [Refinement.attribute?] at ha
    split at ha
    · cases ha
    · next hhas =>
      cases ha
      obtain ⟨t, ht⟩ : ∃ t, s.type? = some t := by
        cases s with
        | composition => exact absurd (.inl rfl) hhas
        | reference => exact absurd rfl hkind
        | _ => exact ⟨_, rfl⟩
      exact ⟨_, get?_type_of_nullable ht, by simp⟩
  | formatTag tag =>
    obtain ⟨l, hl, rfl⟩ := limit rfl
    obtain ⟨f, hf, rfl⟩ := Option.map_eq_some_iff.1 hl
    rw [Refinement.Shows, ← SchemaFormat.tag_of_ofTag? hf]
    exact get?_mapFacets_put hkind rfl rfl
  | pattern | format | uniqueItems | additionalProperties =>
    obtain ⟨l, hl, rfl⟩ := limit rfl
    cases hl
    exact get?_mapFacets_put hkind rfl rfl
  | min bound | max bound =>
    -- without a bound there is no limit to show
    obtain ⟨l, hl, -⟩ := limit rfl
    cases hs : s.kind with
    | primitive t => cases t <;> simp [hs, Refinement.bound?, Refinement.limit?] at hb hl
    | _ => simp [hs, Refinement.bound?, Refinement.limit?] at hb hl
  | exclusiveMin | exclusiveMax | multipleOf | minItems | maxItems | minProperties | maxProperties => cases hb

/-! ## All attributes -/

/-- A refinement that passes the check shows what it says with the value that it gives, unless it is said of a reference
or is a count above 64 bits. Of a reference nothing is written but its target. -/
theorem shows_iff_of_check {s : Schema} {r : Refinement} (hr : r.isAttribute = true)
    (h : (s.refine r).check = .ok ()) :
    (r.Shows s.kind (s.refine r).toJson ↔ s.kind ≠ .reference ∧ ¬ r.IsCut s.kind) ∧
      (s.kind = .reference → (s.refine r).toJson = s.toJson) := by
  have hfaults : (s.refine r).facets.faults = [] := (check_ok_iff _).1 h [] _ (.root _)
  obtain ⟨-, a, -, -, heq⟩ := attribute_of_faultless (Refinement.isPlain_of_isAttribute hr) hfaults
  refine ⟨?_, fun hkind => by rw [heq, toJson_mapFacets_reference hkind]⟩
  cases hb : r.bound? s.kind with
  | some bound => exact shows_bound_iff hb hfaults
  | none =>
    have hcut : ¬ r.IsCut s.kind := by
      rintro ⟨key, b, q, hb', -⟩
      nomatch hb.symm.trans hb'
    constructor
    · refine fun hshows => ⟨fun hkind => ?_, hcut⟩
      rw [heq] at hshows
      exact not_shows_reference ((kind_mapFacets a.put s).trans hkind) hshows
    · exact fun hkind => shows_of_bound?_eq_none hr hb hfaults hkind.1

end Accepted

attribute [local instance] PatternReader.lenient

/-- Null allowed beside lists shows in their type. -/
theorem shows_iff_of_check_nullable :
    let list := Schema.array {} string
    Refinement.nullable.isAttribute = true ∧ (list.refine .nullable).check = .ok () ∧ list.kind ≠ .reference ∧
      Refinement.nullable.Shows list.kind (list.refine .nullable).toJson := by
  intro list
  have hcheck : (list.refine .nullable).check = .ok () := by decide +kernel
  have hcut : ¬ Refinement.nullable.IsCut list.kind := by simp [Refinement.IsCut, Refinement.bound?]
  obtain ⟨hiff, -⟩ := shows_iff_of_check (s := list) (r := .nullable) rfl hcheck
  exact ⟨rfl, hcheck, by decide, hiff.2 ⟨by decide, hcut⟩⟩

/-- A title that is given to a reference is accepted and does not show. -/
theorem not_shows_of_check : ¬ ∀ (s : Schema) (r : Refinement), r.isAttribute = true →
    (s.refine r).check = .ok () → r.Shows s.kind (s.refine r).toJson := by
  intro h
  let user := Schema.reference {} "User"
  have hshows := h user (.title "A user") rfl (by decide +kernel)
  exact not_shows_reference (s := user.refine (.title "A user")) rfl hshows

end Schema

end ApiDescription
