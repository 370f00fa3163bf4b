import ApiDescription.Schema.Refine

/-!
# Limits

The constraints of a schema seen as a map from keywords to limits: `Constraints.limit?` is the limit under a
keyword, and `Limit.put` sets one and leaves the others (`limit?_put`). `Limit.suits` says which limits are
defined for which kinds of schemas, and `Refinement.limit?` which limit a refinement asks for.
-/

set_option autoImplicit false

namespace ApiDescription

/-- What a schema is, apart from its facets and the schemas inside it. -/
inductive SchemaKind where
  | primitive (type : PrimitiveType)
  | array
  | object
  | composition
  | reference
  deriving DecidableEq, Repr

/-- The kind of a schema. -/
def Schema.kind : Schema → SchemaKind
  | .primitive _ t => .primitive t
  | .array _ _ => .array
  | .object _ _ => .object
  | .composition _ _ _ _ _ => .composition
  | .reference _ _ => .reference

@[simp] theorem Schema.kind_mapFacets (g : Facets → Facets) (s : Schema) :
    (s.mapFacets g).kind = s.kind := by
  cases s <;> rfl

/-! ## Limits and their keywords -/

/-- A keyword that limits the values of a schema. -/
inductive LimitKeyword where
  | minLength
  | maxLength
  | pattern
  | format
  | minimum
  | maximum
  | exclusiveMinimum
  | exclusiveMaximum
  | multipleOf
  | minItems
  | maxItems
  | uniqueItems
  | minProperties
  | maxProperties
  | additionalProperties
  deriving DecidableEq, Repr

/-- A keyword with what it is set to. -/
inductive Limit where
  | minLength (n : UInt64)
  | maxLength (n : UInt64)
  | pattern (text : String)
  | format (format : SchemaFormat)
  | minimum (bound : Binary64)
  | maximum (bound : Binary64)
  | exclusiveMinimum (bound : Binary64)
  | exclusiveMaximum (bound : Binary64)
  | multipleOf (factor : Binary64)
  | minItems (n : UInt64)
  | maxItems (n : UInt64)
  | uniqueItems
  | minProperties (n : UInt64)
  | maxProperties (n : UInt64)
  | additionalProperties (allowed : Bool)
  deriving DecidableEq, Repr

namespace Limit

/-- The keyword of the limit. -/
def keyword : Limit → LimitKeyword
  | .minLength _ => .minLength
  | .maxLength _ => .maxLength
  | .pattern _ => .pattern
  | .format _ => .format
  | .minimum _ => .minimum
  | .maximum _ => .maximum
  | .exclusiveMinimum _ => .exclusiveMinimum
  | .exclusiveMaximum _ => .exclusiveMaximum
  | .multipleOf _ => .multipleOf
  | .minItems _ => .minItems
  | .maxItems _ => .maxItems
  | .uniqueItems => .uniqueItems
  | .minProperties _ => .minProperties
  | .maxProperties _ => .maxProperties
  | .additionalProperties _ => .additionalProperties

/-- The constraints with the limit in place of the one under its keyword. -/
def put (l : Limit) (c : Constraints) : Constraints :=
  match l with
  | .minLength n => { c with minLength := some n }
  | .maxLength n => { c with maxLength := some n }
  | .pattern text => { c with pattern := some text }
  | .format f => { c with format := some f }
  | .minimum bound => { c with minimum := some bound }
  | .maximum bound => { c with maximum := some bound }
  | .exclusiveMinimum bound => { c with exclusiveMinimum := some bound }
  | .exclusiveMaximum bound => { c with exclusiveMaximum := some bound }
  | .multipleOf factor => { c with multipleOf := some factor }
  | .minItems n => { c with minItems := some n }
  | .maxItems n => { c with maxItems := some n }
  | .uniqueItems => { c with uniqueItems := true }
  | .minProperties n => { c with minProperties := some n }
  | .maxProperties n => { c with maxProperties := some n }
  | .additionalProperties allowed => { c with additionalProperties := some allowed }

/-- The limit is defined for schemas of the kind. -/
def suits : Limit → SchemaKind → Bool
  | .minLength _, k | .maxLength _, k | .pattern _, k => k == .primitive .string
  | .format f, .primitive t => f.appliesTo t.schemaType
  | .format _, _ => false
  | .minimum _, k | .maximum _, k | .exclusiveMinimum _, k | .exclusiveMaximum _, k
  | .multipleOf _, k => k == .primitive .number || k == .primitive .integer
  | .minItems _, k | .maxItems _, k | .uniqueItems, k => k == .array
  | .minProperties _, k | .maxProperties _, k | .additionalProperties _, k => k == .object

/-- Set on top of the constraints, the limit contradicts none of them. -/
def Fits (l : Limit) (c : Constraints) : Prop :=
  match l with
  | .minLength _ | .maxLength _ | .minItems _ | .maxItems _ | .minProperties _ | .maxProperties _ =>
    (l.put c).invertedCounts = none
  | .minimum bound =>
    bound.isFinite = true ∧ c.exclusiveMinimum = none ∧ (l.put c).invertedValues = none
  | .maximum bound =>
    bound.isFinite = true ∧ c.exclusiveMaximum = none ∧ (l.put c).invertedValues = none
  | .exclusiveMinimum bound =>
    bound.isFinite = true ∧ c.minimum = none ∧ (l.put c).invertedValues = none
  | .exclusiveMaximum bound =>
    bound.isFinite = true ∧ c.maximum = none ∧ (l.put c).invertedValues = none
  | .multipleOf factor => factor.isFinite = true ∧ factor.isPositive = true
  | .pattern _ | .format _ | .uniqueItems | .additionalProperties _ => True

end Limit

/-- The limit under a keyword. -/
def Constraints.limit? (c : Constraints) : LimitKeyword → Option Limit
  | .minLength => c.minLength.map .minLength
  | .maxLength => c.maxLength.map .maxLength
  | .pattern => c.pattern.map .pattern
  | .format => c.format.map .format
  | .minimum => c.minimum.map .minimum
  | .maximum => c.maximum.map .maximum
  | .exclusiveMinimum => c.exclusiveMinimum.map .exclusiveMinimum
  | .exclusiveMaximum => c.exclusiveMaximum.map .exclusiveMaximum
  | .multipleOf => c.multipleOf.map .multipleOf
  | .minItems => c.minItems.map .minItems
  | .maxItems => c.maxItems.map .maxItems
  | .uniqueItems => bif c.uniqueItems then some .uniqueItems else none
  | .minProperties => c.minProperties.map .minProperties
  | .maxProperties => c.maxProperties.map .maxProperties
  | .additionalProperties => c.additionalProperties.map .additionalProperties

theorem Constraints.limit?_empty (k : LimitKeyword) : ({} : Constraints).limit? k = none := by
  cases k <;> rfl

theorem Constraints.limit?_put (l : Limit) (c : Constraints) (k : LimitKeyword) :
    (l.put c).limit? k = if l.keyword = k then some l else c.limit? k := by
  split
  · next h =>
    subst h
    cases l <;> rfl
  · next h => cases l <;> cases k <;> simp [Limit.keyword, Limit.put, limit?] at h ⊢

/-- The limit that a refinement asks for on a schema of a kind. -/
def Refinement.limit? (k : SchemaKind) : Refinement → Option Limit
  | .min bound =>
    match k with
    | .primitive .string => bound.toCount?.map .minLength
    | .primitive .number | .primitive .integer => some (.minimum bound)
    | .array => bound.toCount?.map .minItems
    | .object => bound.toCount?.map .minProperties
    | _ => none
  | .max bound =>
    match k with
    | .primitive .string => bound.toCount?.map .maxLength
    | .primitive .number | .primitive .integer => some (.maximum bound)
    | .array => bound.toCount?.map .maxItems
    | .object => bound.toCount?.map .maxProperties
    | _ => none
  | .exclusiveMin bound => some (.exclusiveMinimum bound)
  | .exclusiveMax bound => some (.exclusiveMaximum bound)
  | .multipleOf factor => some (.multipleOf factor)
  | .pattern text => some (.pattern text)
  | .formatTag tag => (SchemaFormat.ofTag? tag).map .format
  | .format f | .typedFormat _ f => some (.format f)
  | .minItems bound => bound.toCount?.map .minItems
  | .maxItems bound => bound.toCount?.map .maxItems
  | .uniqueItems => some .uniqueItems
  | .minProperties bound => bound.toCount?.map .minProperties
  | .maxProperties bound => bound.toCount?.map .maxProperties
  | .additionalProperties allowed => some (.additionalProperties allowed)
  | _ => none

/-- The schemas that a refinement is given. -/
def Refinement.schemas : Refinement → List Schema
  | .compose _ ss => ss
  | .negate c | .property _ c => [c]
  | _ => []

/-- The formats that come with the type of the values that they describe. -/
def typedFormats : List (PrimitiveType × SchemaFormat) :=
  [SchemaFormat.email, .uuid, .uri, .date, .dateTime, .hostname, .ipv4, .ipv6, .password, .binary,
    .byte].map (.string, ·) ++
  [(.integer, .int32), (.integer, .int64), (.number, .float), (.number, .double)]

/-- A type is only set together with a format that comes with it. -/
def Refinement.Offered : Refinement → Prop
  | .typedFormat t f => (t, f) ∈ typedFormats
  | _ => True

/-- The refinement may change the primitive type of a schema. -/
def Refinement.retypes : Refinement → Bool
  | .retype _ | .typedFormat _ _ => true
  | _ => false

end ApiDescription
