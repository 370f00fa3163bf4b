import ApiDescription.Document.Content
import ApiDescription.Number.Shortest

/-!
# Schema trees

A `Schema` describes one value: what kind of value it is, the schemas inside it, and its facets, which
are everything else that was said about it. Mistakes made while a schema is refined are kept with its
facets, in the order in which they were made.
-/

set_option autoImplicit false

namespace ApiDescription

/-- The types of values without parts. -/
inductive PrimitiveType where
  | string
  | number
  | integer
  | boolean
  | null
  deriving DecidableEq, Repr, Inhabited

namespace PrimitiveType

/-- The type as a document names it. -/
def schemaType : PrimitiveType → SchemaType
  | .string => .string
  | .number => .number
  | .integer => .integer
  | .boolean => .boolean
  | .null => .null

/-- The primitive type that a document's type is, if it is one. -/
def ofSchemaType? : SchemaType → Option PrimitiveType
  | .string => some .string
  | .number => some .number
  | .integer => some .integer
  | .boolean => some .boolean
  | .null => some .null
  | .array | .object => none

/-- Values of the type are numbers. -/
def isNumeric (t : PrimitiveType) : Bool := t == .number || t == .integer

end PrimitiveType

/-- Whether a value must be present in its parent. -/
inductive Presence where
  | unspecified
  | required
  | optional
  deriving DecidableEq, Repr, Inhabited

/-! ## Mistakes -/

/-- A mistake in the refinement of a schema. Keywords and kinds are given by name. -/
inductive SchemaFault where
  | conflictingPresence
  | invertedBounds (keyword : String) (low high : Binary64)
  | exclusiveWithInclusive (exclusive inclusive : String)
  | unknownFormat (tag : String)
  | formatMismatch (format kind : String)
  | typedComposition
  | invalidTypeOverride (source target : String)
  | invalidPattern (pattern reason : String)
  | notApplicable (keyword kind : String)
  | emptyComposition (keyword : String)
  | duplicateComposition (keyword : String)
  | emptyEnum
  | invalidCount (keyword : String) (value : Binary64)
  | nonFiniteBound (keyword : String) (value : Binary64)
  | nonPositiveMultipleOf (value : Binary64)
  deriving DecidableEq, Repr

namespace SchemaFault

/-- A keyword between back quotes. -/
def quoted (keyword : String) : String := "`" ++ keyword ++ "`"

/-- The wording of the mistake. The reason why a pattern is refused is left to the reader. -/
def message : SchemaFault → String
  | .conflictingPresence => "schema is marked both required and optional"
  | .invertedBounds keyword low high =>
    quoted keyword ++ " lower bound " ++ low.messageText ++ " is greater than upper bound " ++
      high.messageText
  | .exclusiveWithInclusive exclusive inclusive =>
    quoted exclusive ++ " cannot be combined with " ++ quoted inclusive
  | .unknownFormat tag => SchemaFormat.unknownMessage tag
  | .formatMismatch format kind =>
    "format '" ++ format ++ "' does not apply to " ++ kind ++ " schemas"
  | .typedComposition => "composition schemas cannot carry an explicit type"
  | .invalidTypeOverride source target =>
    "cannot change the type of " ++ source ++ " schema to " ++ target
  | .invalidPattern pattern reason => "invalid pattern '" ++ pattern ++ "': " ++ reason
  | .notApplicable keyword kind => quoted keyword ++ " does not apply to " ++ kind ++ " schemas"
  | .emptyComposition keyword => quoted keyword ++ " requires at least one schema"
  | .duplicateComposition keyword => quoted keyword ++ " is already set on this composition"
  | .emptyEnum => quoted "enum" ++ " requires at least one value"
  | .invalidCount keyword value =>
    quoted keyword ++ " must be a finite non-negative integer, got " ++ value.messageText
  | .nonFiniteBound keyword value =>
    quoted keyword ++ " must be a finite number, got " ++ value.messageText
  | .nonPositiveMultipleOf value =>
    quoted "multipleOf" ++ " must be greater than zero, got " ++ value.messageText

end SchemaFault

/-! ## Facets -/

/-- What limits the values of a schema. -/
structure Constraints where
  minLength : Option UInt64 := none
  maxLength : Option UInt64 := none
  pattern : Option String := none
  format : Option SchemaFormat := none
  minimum : Option Binary64 := none
  maximum : Option Binary64 := none
  exclusiveMinimum : Option Binary64 := none
  exclusiveMaximum : Option Binary64 := none
  multipleOf : Option Binary64 := none
  minItems : Option UInt64 := none
  maxItems : Option UInt64 := none
  uniqueItems : Bool := false
  minProperties : Option UInt64 := none
  maxProperties : Option UInt64 := none
  additionalProperties : Option Bool := none
  deriving DecidableEq, Repr, Inhabited

/-- Everything that was said about a schema apart from its kind and the schemas inside it. -/
structure Facets where
  presence : Presence := .unspecified
  title : Option String := none
  description : Option String := none
  constraints : Constraints := {}
  constant : Option Json := none
  enumeration : Option (List Json) := none
  default : Option Json := none
  sample : Option Json := none
  examples : List (String × Example) := []
  nullable : Bool := false
  deprecated : Bool := false
  readOnly : Bool := false
  writeOnly : Bool := false
  faults : List SchemaFault := []
  deriving Repr, Inhabited

/-! ## Trees -/

/-- A schema. The list of a composition keyword is empty as long as the keyword is not set. -/
inductive Schema where
  | primitive (facets : Facets) (type : PrimitiveType)
  | array (facets : Facets) (item : Schema)
  | object (facets : Facets) (properties : List (String × Schema))
  | composition (facets : Facets) (oneOf allOf anyOf : List Schema) (negated : Option Schema)
  | reference (facets : Facets) (name : String)
  deriving Repr, Inhabited

namespace Schema

/-- The facets of the schema. -/
def facets : Schema → Facets
  | .primitive f _ => f
  | .array f _ => f
  | .object f _ => f
  | .composition f _ _ _ _ => f
  | .reference f _ => f

/-- The schema with its facets changed. -/
def mapFacets (g : Facets → Facets) : Schema → Schema
  | .primitive f t => .primitive (g f) t
  | .array f i => .array (g f) i
  | .object f ps => .object (g f) ps
  | .composition f one all any n => .composition (g f) one all any n
  | .reference f name => .reference (g f) name

/-- The name of the kind of the schema. -/
def kindName : Schema → String
  | .primitive _ t => t.schemaType.name
  | .array _ _ => "array"
  | .object _ _ => "object"
  | .composition _ _ _ _ _ => "composition"
  | .reference _ _ => "reference"

/-- The limits on the values of the schema. -/
def constraints (s : Schema) : Constraints := s.facets.constraints

/-- The primitive type of the schema, if it has one. -/
def primitive? : Schema → Option PrimitiveType
  | .primitive _ t => some t
  | _ => none

/-- The properties of the schema, if it is for objects. -/
def properties? : Schema → Option (List (String × Schema))
  | .object _ ps => some ps
  | _ => none

/-- The schema is for numbers. -/
def isNumeric (s : Schema) : Bool := (s.primitive?.map (·.isNumeric)).getD false

/-- The names of the required ones among the properties, in order. -/
def requiredNames (ps : List (String × Schema)) : List String :=
  (ps.filter fun p => p.2.facets.presence == .required).map Prod.fst

@[simp] theorem facets_mapFacets (g : Facets → Facets) (s : Schema) :
    (s.mapFacets g).facets = g s.facets := by
  cases s <;> rfl

@[simp] theorem kindName_mapFacets (g : Facets → Facets) (s : Schema) :
    (s.mapFacets g).kindName = s.kindName := by
  cases s <;> rfl

/-! ## Fresh schemas -/

/-- A schema for texts. -/
def string : Schema := .primitive {} .string

/-- A schema for objects with the given properties; of properties with the same name the last one
counts. -/
def ofProperties (ps : List (String × Schema)) : Schema := .object {} (Entries.ofList ps)

/-- A composition of which no keyword is set yet. -/
def emptyComposition : Schema := .composition {} [] [] [] none

end Schema

end ApiDescription
