import ApiDescription.Schema.Basic

/-!
# Refining schemas

`Schema.refine` applies one `Refinement` to a schema. It never fails: a refinement that makes no sense
is left out and its `SchemaFault` is put behind the faults of the schema. Bounds that contradict an
earlier one are set all the same, so that the last bound given is the one that shows. Which texts are
regular expressions is not decided here: a `PatternReader` tells.
-/

set_option autoImplicit false

namespace ApiDescription

/-- Reads patterns as a library for regular expressions does. -/
class PatternReader where
  /-- Why a text is no regular expression, unless it is one. -/
  refusal? : String → Option String

/-- The keywords that combine schemas into lists. -/
inductive ListKeyword where
  | oneOf
  | allOf
  | anyOf
  deriving DecidableEq, Repr

/-- The name of the keyword. -/
def ListKeyword.name : ListKeyword → String
  | .oneOf => "oneOf"
  | .allOf => "allOf"
  | .anyOf => "anyOf"

/-- One thing said about a schema. -/
inductive Refinement where
  | required
  | optional
  | title (text : String)
  | description (text : String)
  | default (value : Json)
  | sample (value : Json)
  | examples (named : List (String × Example))
  | constant (value : Json)
  | enumeration (values : List Json)
  | nullable
  | deprecated
  | readOnly
  | writeOnly
  | compose (keyword : ListKeyword) (schemas : List Schema)
  | negate (schema : Schema)
  | retype (type : SchemaType)
  | min (bound : Binary64)
  | max (bound : Binary64)
  | exclusiveMin (bound : Binary64)
  | exclusiveMax (bound : Binary64)
  | multipleOf (factor : Binary64)
  | pattern (text : String)
  | formatTag (tag : String)
  | format (format : SchemaFormat)
  | typedFormat (type : PrimitiveType) (format : SchemaFormat)
  | minItems (bound : Binary64)
  | maxItems (bound : Binary64)
  | uniqueItems
  | minProperties (bound : Binary64)
  | maxProperties (bound : Binary64)
  | property (name : String) (schema : Schema)
  | additionalProperties (allowed : Bool)
  deriving Repr

/-- The count that a bound stands for: a whole number that is not negative, cut at 64 bits. -/
def Binary64.toCount? : Binary64 → Option UInt64
  | .finite x =>
    if (!x.negative || x.significand == 0) && x.isWhole then
      some (UInt64.ofNat (Nat.min x.wholePart (twoTo 64 - 1)))
    else none
  | _ => none

namespace Constraints

/-- The pairs of counts that must be in order, with the names by which messages call them. -/
def countPairs (c : Constraints) : List (String × Option UInt64 × Option UInt64) :=
  [("length", c.minLength, c.maxLength), ("items", c.minItems, c.maxItems),
    ("properties", c.minProperties, c.maxProperties)]

/-- The first pair of counts that is not in order. -/
def invertedCounts (c : Constraints) : Option SchemaFault :=
  c.countPairs.findSome? fun (name, low, high) =>
    match low, high with
    | some l, some h =>
      if h.toNat < l.toNat then
        some (.invertedBounds name (.ofNat l.toNat) (.ofNat h.toNat))
      else none
    | _, _ => none

/-- The bound below all values. -/
def lower (c : Constraints) : Option Binary64 := c.minimum.or c.exclusiveMinimum

/-- The bound above all values. -/
def upper (c : Constraints) : Option Binary64 := c.maximum.or c.exclusiveMaximum

/-- The bounds of the values, when they are not in order. -/
def invertedValues (c : Constraints) : Option SchemaFault :=
  match c.lower, c.upper with
  | some l, some h => if h.lt l then some (.invertedBounds "value" l h) else none
  | _, _ => none

end Constraints

namespace Schema

/-- Puts a fault behind the others. -/
def fail (fault : SchemaFault) (s : Schema) : Schema :=
  s.mapFacets fun f => { f with faults := f.faults ++ [fault] }

/-- Puts a fault behind the others, if there is one. -/
def failIf (fault : Option SchemaFault) (s : Schema) : Schema :=
  match fault with
  | some e => s.fail e
  | none => s

/-- Faults a keyword that the kind of the schema cannot carry. -/
def refuse (keyword : String) (s : Schema) : Schema := s.fail (.notApplicable keyword s.kindName)

/-- The schema with its limits changed. -/
def mapConstraints (g : Constraints → Constraints) (s : Schema) : Schema :=
  s.mapFacets fun f => { f with constraints := g f.constraints }

/-- Sets a count, and faults the first pair of counts that is not in order then. -/
def setCount (keyword : String) (put : UInt64 → Constraints → Constraints) (bound : Binary64)
    (s : Schema) : Schema :=
  match bound.toCount? with
  | none => s.fail (.invalidCount keyword bound)
  | some n =>
    let s := s.mapConstraints (put n)
    s.failIf s.constraints.invertedCounts

/-- Sets a bound of the values, unless it is not finite or its counterpart is set, and faults bounds
that are not in order then. -/
def setBound (keyword : String) (counterpart : Option Binary64) (fault : SchemaFault)
    (put : Constraints → Constraints) (bound : Binary64) (s : Schema) : Schema :=
  if !bound.isFinite then s.fail (.nonFiniteBound keyword bound)
  else if counterpart.isSome then s.fail fault
  else
    let s := s.mapConstraints put
    s.failIf s.constraints.invertedValues

/-- The fault of an inclusive and an exclusive lower bound. -/
def lowerClash : SchemaFault := .exclusiveWithInclusive "exclusiveMinimum" "minimum"

/-- The fault of an inclusive and an exclusive upper bound. -/
def upperClash : SchemaFault := .exclusiveWithInclusive "exclusiveMaximum" "maximum"

/-- Sets the lower bound of what the kind of the schema bounds. -/
def setMin (bound : Binary64) (s : Schema) : Schema :=
  match s with
  | .primitive _ .string =>
    s.setCount "minLength" (fun n c => { c with minLength := some n }) bound
  | .primitive _ .number | .primitive _ .integer =>
    s.setBound "minimum" s.constraints.exclusiveMinimum lowerClash
      (fun c => { c with minimum := some bound }) bound
  | .array _ _ => s.setCount "minItems" (fun n c => { c with minItems := some n }) bound
  | .object _ _ =>
    s.setCount "minProperties" (fun n c => { c with minProperties := some n }) bound
  | _ => s.refuse "min"

/-- Sets the upper bound of what the kind of the schema bounds. -/
def setMax (bound : Binary64) (s : Schema) : Schema :=
  match s with
  | .primitive _ .string =>
    s.setCount "maxLength" (fun n c => { c with maxLength := some n }) bound
  | .primitive _ .number | .primitive _ .integer =>
    s.setBound "maximum" s.constraints.exclusiveMaximum upperClash
      (fun c => { c with maximum := some bound }) bound
  | .array _ _ => s.setCount "maxItems" (fun n c => { c with maxItems := some n }) bound
  | .object _ _ =>
    s.setCount "maxProperties" (fun n c => { c with maxProperties := some n }) bound
  | _ => s.refuse "max"

/-- Fills the list of a composition keyword. A keyword can be filled once, and not with nothing. -/
def compose (keyword : ListKeyword) (schemas : List Schema) (s : Schema) : Schema :=
  match s with
  | .composition f one all any n =>
    let old := match keyword with
      | .oneOf => one
      | .allOf => all
      | .anyOf => any
    if !old.isEmpty then s.fail (.duplicateComposition keyword.name)
    else if schemas.isEmpty then s.fail (.emptyComposition keyword.name)
    else
      match keyword with
      | .oneOf => .composition f schemas all any n
      | .allOf => .composition f one schemas any n
      | .anyOf => .composition f one all schemas n
  | _ => s.refuse keyword.name

/-- Sets the schema that values must not match. -/
def negate (s schema : Schema) : Schema :=
  match s with
  | .composition f one all any n =>
    if n.isSome then s.fail (.duplicateComposition "not")
    else .composition f one all any (some schema)
  | _ => s.refuse "not"

/-- Overrides a primitive type by another one. Arrays and objects keep theirs, and compositions have
none. -/
def retype (type : SchemaType) (s : Schema) : Schema :=
  match s with
  | .composition _ _ _ _ _ => s.fail .typedComposition
  | .primitive f _ =>
    match PrimitiveType.ofSchemaType? type with
    | some t => .primitive f t
    | none => s.fail (.invalidTypeOverride s.kindName type.name)
  | .array _ _ =>
    if type == .array then s else s.fail (.invalidTypeOverride s.kindName type.name)
  | .object _ _ =>
    if type == .object then s else s.fail (.invalidTypeOverride s.kindName type.name)
  | .reference _ _ => s.fail (.invalidTypeOverride s.kindName type.name)

/-- Sets a format that must describe values of the schema's type. -/
def setFormat (format : SchemaFormat) (s : Schema) : Schema :=
  match s with
  | .primitive _ t =>
    if format.appliesTo t.schemaType then
      s.mapConstraints fun c => { c with format := some format }
    else s.fail (.formatMismatch format.tag s.kindName)
  | _ => s.fail (.formatMismatch format.tag s.kindName)

/-- Sets the primitive type together with a format. -/
def setTypedFormat (type : PrimitiveType) (format : SchemaFormat) (s : Schema) : Schema :=
  match s with
  | .primitive f _ =>
    (Schema.primitive f type).mapConstraints fun c => { c with format := some format }
  | _ => s.fail (.formatMismatch format.tag s.kindName)

/-- Marks the schema as required or optional, which it cannot be both. -/
def setPresence (presence opposite : Presence) (s : Schema) : Schema :=
  if s.facets.presence = opposite then s.fail .conflictingPresence
  else s.mapFacets fun f => { f with presence := presence }

/-- The schema is an array. -/
def isArray : Schema → Bool
  | .array _ _ => true
  | _ => false

/-- The schema is an object. -/
def isObject : Schema → Bool
  | .object _ _ => true
  | _ => false

variable [PatternReader]

/-- Applies one refinement. -/
def refine (s : Schema) : Refinement → Schema
  | .required => s.setPresence .required .optional
  | .optional => s.setPresence .optional .required
  | .title text => s.mapFacets fun f => { f with title := some text }
  | .description text => s.mapFacets fun f => { f with description := some text }
  | .default value => s.mapFacets fun f => { f with default := some value }
  | .sample value => s.mapFacets fun f => { f with sample := some value }
  | .examples named => s.mapFacets fun f => { f with examples := Entries.extend f.examples named }
  | .constant value => s.mapFacets fun f => { f with constant := some value }
  | .enumeration values =>
    if values.isEmpty then s.fail .emptyEnum
    else s.mapFacets fun f => { f with enumeration := some values }
  | .nullable =>
    match s with
    | .composition _ _ _ _ _ | .reference _ _ => s.refuse "nullable"
    | _ => s.mapFacets fun f => { f with nullable := true }
  | .deprecated => s.mapFacets fun f => { f with deprecated := true }
  | .readOnly => s.mapFacets fun f => { f with readOnly := true }
  | .writeOnly => s.mapFacets fun f => { f with writeOnly := true }
  | .compose keyword schemas => s.compose keyword schemas
  | .negate schema => s.negate schema
  | .retype type => s.retype type
  | .min bound => s.setMin bound
  | .max bound => s.setMax bound
  | .exclusiveMin bound =>
    if s.isNumeric then
      s.setBound "exclusiveMinimum" s.constraints.minimum lowerClash
        (fun c => { c with exclusiveMinimum := some bound }) bound
    else s.refuse "exclusiveMinimum"
  | .exclusiveMax bound =>
    if s.isNumeric then
      s.setBound "exclusiveMaximum" s.constraints.maximum upperClash
        (fun c => { c with exclusiveMaximum := some bound }) bound
    else s.refuse "exclusiveMaximum"
  | .multipleOf factor =>
    if !s.isNumeric then s.refuse "multipleOf"
    else if factor.isFinite && factor.isPositive then
      s.mapConstraints fun c => { c with multipleOf := some factor }
    else s.fail (.nonPositiveMultipleOf factor)
  | .pattern text =>
    if s.primitive? ≠ some .string then s.refuse "pattern"
    else
      match PatternReader.refusal? text with
      | some reason => s.fail (.invalidPattern text reason)
      | none => s.mapConstraints fun c => { c with pattern := some text }
  | .formatTag tag =>
    match SchemaFormat.ofTag? tag with
    | some format => s.setFormat format
    | none => s.fail (.unknownFormat tag)
  | .format format => s.setFormat format
  | .typedFormat type format => s.setTypedFormat type format
  | .minItems bound =>
    if s.isArray then s.setCount "minItems" (fun n c => { c with minItems := some n }) bound
    else s.refuse "minItems"
  | .maxItems bound =>
    if s.isArray then s.setCount "maxItems" (fun n c => { c with maxItems := some n }) bound
    else s.refuse "maxItems"
  | .uniqueItems =>
    if s.isArray then s.mapConstraints fun c => { c with uniqueItems := true }
    else s.refuse "uniqueItems"
  | .minProperties bound =>
    if s.isObject then
      s.setCount "minProperties" (fun n c => { c with minProperties := some n }) bound
    else s.refuse "minProperties"
  | .maxProperties bound =>
    if s.isObject then
      s.setCount "maxProperties" (fun n c => { c with maxProperties := some n }) bound
    else s.refuse "maxProperties"
  | .property name schema =>
    match s with
    | .object f ps => .object f (Entries.put ps name schema)
    | _ => s.refuse "properties"
  | .additionalProperties allowed =>
    if s.isObject then s.mapConstraints fun c => { c with additionalProperties := some allowed }
    else s.refuse "additionalProperties"

/-- Applies refinements one after the other. -/
def refineAll (s : Schema) (rs : List Refinement) : Schema := rs.foldl refine s

/-- The composition with one keyword filled. -/
def composed (keyword : ListKeyword) (schemas : List Schema) : Schema :=
  emptyComposition.compose keyword schemas

/-- The composition of values that do not match a schema. -/
def negation (schema : Schema) : Schema := emptyComposition.negate schema

end Schema

end ApiDescription
