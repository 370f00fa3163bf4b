import ApiDescription.Schema.Basic

/-!
# Schemas as written in documents

`Schema.toObject` turns a tree into the schema of a document. A reference is nothing but its target;
named examples are not part of a schema, they go with the media type.
-/

set_option autoImplicit false

namespace ApiDescription

namespace Schema

/-- The `type` keyword of a schema, which lists null behind the type when null is allowed too. -/
def typesOf (f : Facets) (t : SchemaType) : SchemaTypes :=
  if f.nullable then .several [t, .null] else .single t

/-- A flag as a keyword that shows only when it is set. -/
def flag (b : Bool) : Option Bool := if b then some true else none

/-- The plain keywords that facets give. -/
def keywordsOf (f : Facets) (type : Option SchemaTypes) (required : List String) :
    SchemaKeywords :=
  let c := f.constraints
  { type := type
    title := f.title
    description := f.description
    format := c.format
    constant := f.constant
    enumeration := f.enumeration
    default := f.default
    sample := f.sample
    required := required
    additionalProperties := c.additionalProperties
    minProperties := c.minProperties
    maxProperties := c.maxProperties
    minItems := c.minItems
    maxItems := c.maxItems
    uniqueItems := flag c.uniqueItems
    minimum := c.minimum.bind Binary64.toNumber?
    maximum := c.maximum.bind Binary64.toNumber?
    exclusiveMinimum := c.exclusiveMinimum.bind Binary64.toNumber?
    exclusiveMaximum := c.exclusiveMaximum.bind Binary64.toNumber?
    multipleOf := c.multipleOf.bind Binary64.toNumber?
    minLength := c.minLength
    maxLength := c.maxLength
    pattern := c.pattern
    deprecated := flag f.deprecated
    readOnly := flag f.readOnly
    writeOnly := flag f.writeOnly }

mutual

/-- The schema of a document that the tree stands for. -/
def toObject : Schema → SchemaOrReference
  | .reference _ name => .schema name
  | .primitive f t =>
    .inline (.mk (keywordsOf f (some (typesOf f t.schemaType)) []) [] none [] [] [] none)
  | .array f item =>
    .inline (.mk (keywordsOf f (some (typesOf f .array)) []) [] (some (toObject item)) [] [] []
      none)
  | .object f ps =>
    .inline (.mk (keywordsOf f (some (typesOf f .object)) (requiredNames ps))
      (propertiesToObjects ps) none [] [] [] none)
  | .composition f one all any n =>
    .inline (.mk (keywordsOf f none []) [] none (toObjects one) (toObjects all) (toObjects any)
      (negatedToObject n))

/-- The schemas of the properties. -/
def propertiesToObjects : List (String × Schema) → List (String × SchemaOrReference)
  | [] => []
  | (name, s) :: ps => (name, toObject s) :: propertiesToObjects ps

/-- The schemas of a list. -/
def toObjects : List Schema → List SchemaOrReference
  | [] => []
  | s :: ss => toObject s :: toObjects ss

/-- The schema that values must not match, if there is one. -/
def negatedToObject : Option Schema → Option SchemaOrReference
  | none => none
  | some s => some (toObject s)

end

/-- The written schema. -/
def toJson (s : Schema) : Json := SchemaObject.refToJson s.toObject

end Schema

end ApiDescription
