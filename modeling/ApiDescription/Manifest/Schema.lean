import ApiDescription.Manifest.Definition
import ApiDescription.Schema.Refine

/-!
# Schemas of definitions

`SchemaDefinition.toSchema` builds the schema that a definition describes. A definition without a type,
or with parts that do not go together, has none. Keywords that do not suit the schema are left to the
schema's own check.
-/

set_option autoImplicit false

namespace ApiDescription

/-- Why a definition has no schema. -/
inductive DefinitionFault where
  | typedReference (type : String)
  | composedReference
  | typedComposition (type : String)
  | noType
  | noItems
  | unknownType (type : String)
  deriving DecidableEq, Repr

/-- The wording of the fault. -/
def DefinitionFault.reason : DefinitionFault → String
  | .typedReference type => "$ref cannot carry type '" ++ type ++ "'"
  | .composedReference => "$ref cannot be combined with a composition"
  | .typedComposition type => "composition cannot carry type '" ++ type ++ "'"
  | .noType => "schema has no type"
  | .noItems => "array schema has no items"
  | .unknownType type => "unknown type '" ++ type ++ "'"

/-- A fault, and the place of the definition that has it. -/
structure DefinitionError where
  place : String
  fault : DefinitionFault
  deriving DecidableEq, Repr

/-- The wording of the error. -/
def DefinitionError.message (e : DefinitionError) : String := e.place ++ ": " ++ e.fault.reason

/-! ## Keywords -/

/-- The refinements that the keywords ask for, in the order in which they are made. -/
def DefinitionKeywords.refinements (k : DefinitionKeywords) : List Refinement :=
  let given {α : Type} (make : α → Refinement) (a : Option α) : List Refinement :=
    (a.map make).toList
  let flag (r : Refinement) (isSet : Bool) : List Refinement := if isSet then [r] else []
  given .title k.title ++ given .description k.description ++ given .formatTag k.format ++
    given .min k.min ++ given .max k.max ++ given .exclusiveMin k.exclusiveMin ++
    given .exclusiveMax k.exclusiveMax ++ given .multipleOf k.multipleOf ++
    given .pattern k.pattern ++ given .minItems k.minItems ++ given .maxItems k.maxItems ++
    flag .uniqueItems k.uniqueItems ++ given .minProperties k.minProperties ++
    given .maxProperties k.maxProperties ++
    given .additionalProperties k.additionalProperties ++ given .enumeration k.enumeration ++
    given .constant k.constant ++ given .default k.default ++ given .sample k.sample ++
    flag .nullable k.nullable ++ flag .deprecated k.deprecated ++ flag .readOnly k.readOnly ++
    flag .writeOnly k.writeOnly ++ flag .required k.required ++ flag .optional k.optional

variable [PatternReader]

/-- The schema with the refinements that the keywords ask for. -/
def DefinitionKeywords.refine (k : DefinitionKeywords) (s : Schema) : Schema :=
  k.refinements.foldl Schema.refine s

/-! ## Building -/

namespace SchemaDefinition

/-- The schema of the given type, made of what the definitions below it make. The children are built
only for types that have them. -/
def ofType (place type : String) (items : Option (Except DefinitionError Schema))
    (properties : Option (Except DefinitionError (List (String × Schema)))) :
    Except DefinitionError Schema :=
  match type with
  | "array" =>
    match items with
    | some items => items.map (.array {})
    | none => .error ⟨place, .noItems⟩
  | "object" =>
    match properties with
    | some properties => properties.map Schema.ofProperties
    | none => .ok (.object {} [])
  | type =>
    match (SchemaType.ofName? type).bind PrimitiveType.ofSchemaType? with
    | some t => .ok (.primitive {} t)
    | none => .error ⟨place, .unknownType type⟩

/-- The composition with the given slots filled, those of lists first. -/
def ofSlots (slots : List (ListKeyword × Option (Except DefinitionError (List Schema))))
    (negated : Option (Except DefinitionError Schema)) : Except DefinitionError Schema := do
  let s ← slots.foldlM (fun s (keyword, schemas) => match schemas with
    | some schemas => schemas.map (s.refine <| .compose keyword ·)
    | none => .ok s) Schema.emptyComposition
  match negated with
  | some schema => schema.map (s.refine <| .negate ·)
  | none => .ok s

mutual

/-- The schema of a definition at a place. -/
def toSchema (place : String) : SchemaDefinition → Except DefinitionError Schema
  | .mk k items properties oneOf allOf anyOf negated => do
    let isComposed := oneOf.isSome || allOf.isSome || anyOf.isSome || negated.isSome
    let base ← match k.reference, isComposed, k.type with
      | some _, _, some type => .error ⟨place, .typedReference type⟩
      | some _, true, none => .error ⟨place, .composedReference⟩
      | some name, false, none => .ok (.reference {} name)
      | none, true, some type => .error ⟨place, .typedComposition type⟩
      | none, true, none =>
        ofSlots
          [(.oneOf, membersToSchemas? place "oneOf" oneOf),
            (.allOf, membersToSchemas? place "allOf" allOf),
            (.anyOf, membersToSchemas? place "anyOf" anyOf)]
          (childToSchema? (place ++ ".not") negated)
      | none, false, type =>
        match type.or (properties.map fun _ => "object") with
        | some type =>
          ofType place type (childToSchema? (place ++ ".items") items)
            (propertiesToSchemas? place properties)
        | none => .error ⟨place, .noType⟩
    .ok (k.refine base)

/-- The schema of a child that may be missing. -/
def childToSchema? (place : String) :
    Option SchemaDefinition → Option (Except DefinitionError Schema)
  | none => none
  | some d => some (d.toSchema place)

/-- The schemas of the members under a keyword, which may be missing. -/
def membersToSchemas? (place keyword : String) :
    Option (List SchemaDefinition) → Option (Except DefinitionError (List Schema))
  | none => none
  | some ds => some (membersToSchemas place keyword 0 ds)

/-- The schemas of the members under a keyword from an index on. -/
def membersToSchemas (place keyword : String) (index : Nat) :
    List SchemaDefinition → Except DefinitionError (List Schema)
  | [] => .ok []
  | d :: ds => do
    let s ← d.toSchema (place ++ "." ++ keyword ++ "[" ++ toString index ++ "]")
    let ss ← membersToSchemas place keyword (index + 1) ds
    .ok (s :: ss)

/-- The schemas of the properties, which may be missing. -/
def propertiesToSchemas? (place : String) :
    Option (List (String × SchemaDefinition)) →
      Option (Except DefinitionError (List (String × Schema)))
  | none => none
  | some ps => some (propertiesToSchemas place ps)

/-- The schemas of properties. -/
def propertiesToSchemas (place : String) :
    List (String × SchemaDefinition) → Except DefinitionError (List (String × Schema))
  | [] => .ok []
  | (name, d) :: ps => do
    let s ← d.toSchema (place ++ "." ++ name)
    let ss ← propertiesToSchemas place ps
    .ok ((name, s) :: ss)

end

end SchemaDefinition

end ApiDescription
