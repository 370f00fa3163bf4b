import ApiDescription.Data.Record

/-!
# Schemas written as data

A schema definition is what a manifest says about a schema, before it is known whether it makes sense.
Its keywords are those of the schema language. `required` and `optional` speak of the property itself.
-/

set_option autoImplicit false

namespace ApiDescription

/-- The keywords of a definition that hold no definitions. -/
structure DefinitionKeywords where
  type : Option String := none
  reference : Option String := none
  format : Option String := none
  title : Option String := none
  description : Option String := none
  required : Bool := false
  optional : Bool := false
  nullable : Bool := false
  deprecated : Bool := false
  readOnly : Bool := false
  writeOnly : Bool := false
  min : Option Binary64 := none
  max : Option Binary64 := none
  exclusiveMin : Option Binary64 := none
  exclusiveMax : Option Binary64 := none
  multipleOf : Option Binary64 := none
  pattern : Option String := none
  minItems : Option Binary64 := none
  maxItems : Option Binary64 := none
  uniqueItems : Bool := false
  minProperties : Option Binary64 := none
  maxProperties : Option Binary64 := none
  additionalProperties : Option Bool := none
  enumeration : Option (List Json) := none
  constant : Option Json := none
  default : Option Json := none
  sample : Option Json := none
  deriving Repr, Inhabited

/-- A schema written as data. -/
inductive SchemaDefinition where
  | mk (keywords : DefinitionKeywords) (items : Option SchemaDefinition)
    (properties : Option (List (String × SchemaDefinition)))
    (oneOf allOf anyOf : Option (List SchemaDefinition)) (negated : Option SchemaDefinition)
  deriving Repr

namespace SchemaDefinition

/-- The definition that says nothing. -/
def empty : SchemaDefinition := .mk {} none none none none none none

instance : Inhabited SchemaDefinition := ⟨empty⟩

/-! ## Reading -/

/-- The fields in the order in which a list gives them. -/
def fieldNames : List FieldName :=
  ["type", "$ref", "format", "title", "description", "required", "optional", "nullable",
    "deprecated", "read_only", "write_only", "min", "max", "exclusive_min", "exclusive_max",
    "multiple_of", "pattern", "min_items", "max_items", "unique_items", "min_properties",
    "max_properties", "additional_properties", "enum", "const", "default", "example", "items",
    "properties", "one_of", "all_of", "any_of", "not"].map fun name => ⟨name, true⟩

/-- Reads the keywords that hold no definitions. -/
def readKeywords? (r : Record) : Option DefinitionKeywords := do
  let type ← r.optional? "type" Data.text?
  let reference ← r.optional? "$ref" Data.text?
  let format ← r.optional? "format" Data.text?
  let title ← r.optional? "title" Data.text?
  let description ← r.optional? "description" Data.text?
  let required ← r.withDefault? "required" false Data.bool?
  let optional ← r.withDefault? "optional" false Data.bool?
  let nullable ← r.withDefault? "nullable" false Data.bool?
  let deprecated ← r.withDefault? "deprecated" false Data.bool?
  let readOnly ← r.withDefault? "read_only" false Data.bool?
  let writeOnly ← r.withDefault? "write_only" false Data.bool?
  let min ← r.optional? "min" Data.real?
  let max ← r.optional? "max" Data.real?
  let exclusiveMin ← r.optional? "exclusive_min" Data.real?
  let exclusiveMax ← r.optional? "exclusive_max" Data.real?
  let multipleOf ← r.optional? "multiple_of" Data.real?
  let pattern ← r.optional? "pattern" Data.text?
  let minItems ← r.optional? "min_items" Data.real?
  let maxItems ← r.optional? "max_items" Data.real?
  let uniqueItems ← r.withDefault? "unique_items" false Data.bool?
  let minProperties ← r.optional? "min_properties" Data.real?
  let maxProperties ← r.optional? "max_properties" Data.real?
  let additionalProperties ← r.optional? "additional_properties" Data.bool?
  let enumeration ← r.optional? "enum" (Data.listOf? Data.toJson?)
  let constant ← r.optional? "const" Data.toJson?
  let default ← r.optional? "default" Data.toJson?
  let sample ← r.optional? "example" Data.toJson?
  pure {
    type := type, reference, format, title, description, required, optional, nullable, deprecated,
    readOnly, writeOnly, min, max, exclusiveMin, exclusiveMax, multipleOf, pattern, minItems,
    maxItems, uniqueItems, minProperties, maxProperties, additionalProperties, enumeration,
    constant, default, sample
  }

/-- Reads a definition whose data nests less deep than the first argument. -/
def readWithin? : Nat → Data → Option SchemaDefinition
  | 0, _ => none
  | depth + 1, d => do
    let child := readWithin? depth
    let r ← Record.ofData? fieldNames d
    let keywords ← readKeywords? r
    let items ← r.optional? "items" child
    let properties ← r.optional? "properties" (Data.mapOf? child)
    let oneOf ← r.optional? "one_of" (Data.listOf? child)
    let allOf ← r.optional? "all_of" (Data.listOf? child)
    let anyOf ← r.optional? "any_of" (Data.listOf? child)
    let negated ← r.optional? "not" child
    pure (.mk keywords items properties oneOf allOf anyOf negated)

/-- Reads a definition. -/
def ofData? (d : Data) : Option SchemaDefinition := readWithin? (d.depth + 1) d

end SchemaDefinition

end ApiDescription
