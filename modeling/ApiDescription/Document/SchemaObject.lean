import ApiDescription.Document.Reference

/-!
# Schema objects

The schemas of a document as they are written: every keyword may be missing, and a missing keyword
is left out. `SchemaObject.toJson` writes the keywords in their fixed order, and
`SchemaObject.ofData?` reads them in any.
-/

set_option autoImplicit false

namespace ApiDescription

/-! ## Types and formats -/

/-- The type of a value. -/
inductive SchemaType where
  | string
  | integer
  | number
  | boolean
  | array
  | object
  | null
  deriving DecidableEq, Repr

namespace SchemaType

/-- All types. -/
def all : List SchemaType := [.string, .integer, .number, .boolean, .array, .object, .null]

/-- The name of the type. -/
def name : SchemaType → String
  | .string => "string"
  | .integer => "integer"
  | .number => "number"
  | .boolean => "boolean"
  | .array => "array"
  | .object => "object"
  | .null => "null"

/-- The type with the given name. -/
def ofName? (s : String) : Option SchemaType := all.find? (·.name == s)

end SchemaType

/-- The `type` keyword: one type, or a list of them. -/
inductive SchemaTypes where
  | single (type : SchemaType)
  | several (types : List SchemaType)
  deriving DecidableEq, Repr

namespace SchemaTypes

/-- The type is one of the types. -/
def contains (t : SchemaType) : SchemaTypes → Bool
  | .single u => u == t
  | .several us => us.contains t

/-- The written form. -/
def toJson : SchemaTypes → Json
  | .single t => .string t.name
  | .several ts => Json.listOf (fun t => .string t.name) ts

/-- Reads a name or a list of names. -/
def ofData? (d : Data) : Option SchemaTypes :=
  d.typed?.bind fun d =>
    match d.nameOf? SchemaType.ofName? with
    | some t => some (.single t)
    | none => (d.listOf? (Data.nameOf? SchemaType.ofName?)).map .several

end SchemaTypes

/-- The format of a value. -/
inductive SchemaFormat where
  | int32
  | int64
  | float
  | double
  | byte
  | binary
  | password
  | date
  | dateTime
  | time
  | duration
  | email
  | idnEmail
  | hostname
  | idnHostname
  | ipv4
  | ipv6
  | uri
  | uriReference
  | iri
  | iriReference
  | uriTemplate
  | uuid
  | jsonPointer
  | relativeJsonPointer
  | regex
  deriving DecidableEq, Repr

namespace SchemaFormat

/-- All formats. -/
def all : List SchemaFormat :=
  [.int32, .int64, .float, .double, .byte, .binary, .password, .date, .dateTime, .time, .duration,
    .email, .idnEmail, .hostname, .idnHostname, .ipv4, .ipv6, .uri, .uriReference, .iri,
    .iriReference, .uriTemplate, .uuid, .jsonPointer, .relativeJsonPointer, .regex]

/-- The tag of the format. -/
def tag : SchemaFormat → String
  | .int32 => "int32"
  | .int64 => "int64"
  | .float => "float"
  | .double => "double"
  | .byte => "byte"
  | .binary => "binary"
  | .password => "password"
  | .date => "date"
  | .dateTime => "date-time"
  | .time => "time"
  | .duration => "duration"
  | .email => "email"
  | .idnEmail => "idn-email"
  | .hostname => "hostname"
  | .idnHostname => "idn-hostname"
  | .ipv4 => "ipv4"
  | .ipv6 => "ipv6"
  | .uri => "uri"
  | .uriReference => "uri-reference"
  | .iri => "iri"
  | .iriReference => "iri-reference"
  | .uriTemplate => "uri-template"
  | .uuid => "uuid"
  | .jsonPointer => "json-pointer"
  | .relativeJsonPointer => "relative-json-pointer"
  | .regex => "regex"

/-- The format with the given tag. -/
def ofTag? (s : String) : Option SchemaFormat := all.find? (·.tag == s)

/-- The message for a tag that no format has. -/
def unknownMessage (tag : String) : String := "unknown format '" ++ tag ++ "'"

/-- The format describes values of the type. -/
def appliesTo : SchemaFormat → SchemaType → Bool
  | .int32, t | .int64, t => t == .integer || t == .number
  | .float, t | .double, t => t == .number
  | _, t => t == .string

end SchemaFormat

/-! ## Keywords -/

/-- The keywords of a schema that hold no schemas. -/
structure SchemaKeywords where
  type : Option SchemaTypes := none
  title : Option String := none
  description : Option String := none
  format : Option SchemaFormat := none
  constant : Option Json := none
  enumeration : Option (List Json) := none
  default : Option Json := none
  sample : Option Json := none
  required : List String := []
  additionalProperties : Option Bool := none
  minProperties : Option UInt64 := none
  maxProperties : Option UInt64 := none
  minItems : Option UInt64 := none
  maxItems : Option UInt64 := none
  uniqueItems : Option Bool := none
  minimum : Option Number := none
  maximum : Option Number := none
  exclusiveMinimum : Option Number := none
  exclusiveMaximum : Option Number := none
  multipleOf : Option Number := none
  minLength : Option UInt64 := none
  maxLength : Option UInt64 := none
  pattern : Option String := none
  deprecated : Option Bool := none
  readOnly : Option Bool := none
  writeOnly : Option Bool := none
  deriving Repr, Inhabited

/-- A schema: its plain keywords and the schemas inside it. -/
inductive SchemaObject where
  | mk (keywords : SchemaKeywords) (properties : List (String × OrReference SchemaObject))
      (items : Option (OrReference SchemaObject))
      (oneOf allOf anyOf : List (OrReference SchemaObject))
      (negated : Option (OrReference SchemaObject))
  deriving Repr

namespace SchemaObject

/-- The schema without keywords. -/
def empty : SchemaObject := .mk {} [] none [] [] [] none

instance : Inhabited SchemaObject := ⟨empty⟩

/-- The plain keywords. -/
def keywords : SchemaObject → SchemaKeywords
  | .mk ks _ _ _ _ _ _ => ks

/-- The schemas of the properties. -/
def properties : SchemaObject → List (String × OrReference SchemaObject)
  | .mk _ ps _ _ _ _ _ => ps

/-- The schema with its plain keywords changed. -/
def mapKeywords (f : SchemaKeywords → SchemaKeywords) : SchemaObject → SchemaObject
  | .mk ks ps i one all any n => .mk (f ks) ps i one all any n

/-- The schema with a property put into it. -/
def putProperty (name : String) (schema : OrReference SchemaObject) : SchemaObject → SchemaObject
  | .mk ks ps i one all any n => .mk ks (Entries.put ps name schema) i one all any n

/-- The schema with the schema of its items set. -/
def withItems (schema : OrReference SchemaObject) : SchemaObject → SchemaObject
  | .mk ks ps _ one all any n => .mk ks ps (some schema) one all any n

/-- One of the composition keywords has a schema. -/
def isComposition : SchemaObject → Bool
  | .mk _ _ _ one all any n => !one.isEmpty || !all.isEmpty || !any.isEmpty || n.isSome

/-- The names of the properties whose schema is given in place. -/
def inlineProperties (s : SchemaObject) : List String :=
  s.properties.filterMap fun (name, p) => p.inline?.map fun _ => name

/-! ## Writing -/

/-- A count as a JSON value. -/
def countJson (n : UInt64) : Json := .ofNat n.toNat

mutual

/-- The written schema. -/
def toJson : SchemaObject → Json
  | .mk ks ps i one all any n => .object <|
      Json.member? "type" SchemaTypes.toJson ks.type ++
      Json.member? "title" .string ks.title ++
      Json.member? "description" .string ks.description ++
      Json.member? "format" (fun f => .string f.tag) ks.format ++
      Json.member? "const" id ks.constant ++
      Json.member? "enum" .array ks.enumeration ++
      Json.member? "default" id ks.default ++
      Json.member? "example" id ks.sample ++
      propertiesMember ps ++
      Json.listMember "required" .string ks.required ++
      Json.member? "additionalProperties" .bool ks.additionalProperties ++
      Json.member? "minProperties" countJson ks.minProperties ++
      Json.member? "maxProperties" countJson ks.maxProperties ++
      childMember "items" i ++
      Json.member? "minItems" countJson ks.minItems ++
      Json.member? "maxItems" countJson ks.maxItems ++
      Json.member? "uniqueItems" .bool ks.uniqueItems ++
      Json.member? "minimum" .number ks.minimum ++
      Json.member? "maximum" .number ks.maximum ++
      Json.member? "exclusiveMinimum" .number ks.exclusiveMinimum ++
      Json.member? "exclusiveMaximum" .number ks.exclusiveMaximum ++
      Json.member? "multipleOf" .number ks.multipleOf ++
      Json.member? "minLength" countJson ks.minLength ++
      Json.member? "maxLength" countJson ks.maxLength ++
      Json.member? "pattern" .string ks.pattern ++
      childrenMember "oneOf" one ++
      childrenMember "allOf" all ++
      childrenMember "anyOf" any ++
      childMember "not" n ++
      Json.member? "deprecated" .bool ks.deprecated ++
      Json.member? "readOnly" .bool ks.readOnly ++
      Json.member? "writeOnly" .bool ks.writeOnly

/-- A written schema or reference. -/
def refToJson : OrReference SchemaObject → Json
  | .reference target => .object [("$ref", .string target)]
  | .inline s => toJson s

/-- The written properties. -/
def propertiesToJson : List (String × OrReference SchemaObject) → List (String × Json)
  | [] => []
  | (name, s) :: ps => (name, refToJson s) :: propertiesToJson ps

/-- The written schemas of a list. -/
def childrenToJson : List (OrReference SchemaObject) → List Json
  | [] => []
  | s :: ss => refToJson s :: childrenToJson ss

/-- The member of the properties, which is left out when there are none. -/
def propertiesMember : List (String × OrReference SchemaObject) → List (String × Json)
  | [] => []
  | (name, s) :: ps => [("properties", .object ((name, refToJson s) :: propertiesToJson ps))]

/-- The member of a list of schemas, which is left out when it is empty. -/
def childrenMember (name : String) : List (OrReference SchemaObject) → List (String × Json)
  | [] => []
  | s :: ss => [(name, .array (refToJson s :: childrenToJson ss))]

/-- The member of a schema that may be missing. -/
def childMember (name : String) : Option (OrReference SchemaObject) → List (String × Json)
  | none => []
  | some s => [(name, refToJson s)]

end

/-! ## Reading -/

/-- The fields in the order in which a list gives them. -/
def fieldNames : List FieldName :=
  [⟨"type", false⟩, ⟨"title", false⟩, ⟨"description", false⟩, ⟨"format", false⟩, ⟨"const", false⟩,
    ⟨"enum", false⟩, ⟨"default", false⟩, ⟨"example", false⟩, ⟨"properties", true⟩,
    ⟨"required", true⟩, ⟨"additionalProperties", false⟩, ⟨"minProperties", false⟩,
    ⟨"maxProperties", false⟩, ⟨"items", false⟩, ⟨"minItems", false⟩, ⟨"maxItems", false⟩,
    ⟨"uniqueItems", false⟩, ⟨"minimum", false⟩, ⟨"maximum", false⟩, ⟨"exclusiveMinimum", false⟩,
    ⟨"exclusiveMaximum", false⟩, ⟨"multipleOf", false⟩, ⟨"minLength", false⟩,
    ⟨"maxLength", false⟩, ⟨"pattern", false⟩, ⟨"oneOf", true⟩, ⟨"allOf", true⟩, ⟨"anyOf", true⟩,
    ⟨"not", false⟩, ⟨"deprecated", false⟩, ⟨"readOnly", false⟩, ⟨"writeOnly", false⟩]

/-- Reads a count of 64 bits. -/
def count? (d : Data) : Option UInt64 := (d.count? (twoTo 64)).map UInt64.ofNat

/-- Reads the plain keywords. -/
def readKeywords? (r : Record) : Option SchemaKeywords := do
  let type ← r.optional? "type" SchemaTypes.ofData?
  let title ← r.optional? "title" Data.text?
  let description ← r.optional? "description" Data.text?
  let format ← r.optional? "format" (Data.nameOf? SchemaFormat.ofTag?)
  let constant ← r.optional? "const" Data.toJson?
  let enumeration ← r.optional? "enum" (Data.listOf? Data.toJson?)
  let default ← r.optional? "default" Data.toJson?
  let sample ← r.optional? "example" Data.toJson?
  let required ← r.withDefault? "required" [] (Data.listOf? Data.text?)
  let additionalProperties ← r.optional? "additionalProperties" Data.bool?
  let minProperties ← r.optional? "minProperties" count?
  let maxProperties ← r.optional? "maxProperties" count?
  let minItems ← r.optional? "minItems" count?
  let maxItems ← r.optional? "maxItems" count?
  let uniqueItems ← r.optional? "uniqueItems" Data.bool?
  let minimum ← r.optional? "minimum" Data.number?
  let maximum ← r.optional? "maximum" Data.number?
  let exclusiveMinimum ← r.optional? "exclusiveMinimum" Data.number?
  let exclusiveMaximum ← r.optional? "exclusiveMaximum" Data.number?
  let multipleOf ← r.optional? "multipleOf" Data.number?
  let minLength ← r.optional? "minLength" count?
  let maxLength ← r.optional? "maxLength" count?
  let pattern ← r.optional? "pattern" Data.text?
  let deprecated ← r.optional? "deprecated" Data.bool?
  let readOnly ← r.optional? "readOnly" Data.bool?
  let writeOnly ← r.optional? "writeOnly" Data.bool?
  pure {
    type := type, title, description, format, constant, enumeration, default, sample, required,
    additionalProperties, minProperties, maxProperties, minItems, maxItems, uniqueItems, minimum,
    maximum, exclusiveMinimum, exclusiveMaximum, multipleOf, minLength, maxLength, pattern,
    deprecated, readOnly, writeOnly
  }

/-- Reads a schema whose data nests less deep than the first argument. -/
def readWithin? : Nat → Data → Option SchemaObject
  | 0, _ => none
  | depth + 1, d => do
    let child := OrReference.ofData? (readWithin? depth)
    let r ← Record.ofData? fieldNames d
    let keywords ← readKeywords? r
    let properties ← r.withDefault? "properties" [] (Data.mapOf? child)
    let items ← r.optional? "items" child
    let oneOf ← r.withDefault? "oneOf" [] (Data.listOf? child)
    let allOf ← r.withDefault? "allOf" [] (Data.listOf? child)
    let anyOf ← r.withDefault? "anyOf" [] (Data.listOf? child)
    let negated ← r.optional? "not" child
    pure (.mk keywords properties items oneOf allOf anyOf negated)

/-- Reads a schema. -/
def ofData? (d : Data) : Option SchemaObject := readWithin? (d.depth + 1) d

/-- Reads a schema or a reference to one. -/
def refOfData? (d : Data) : Option (OrReference SchemaObject) := OrReference.ofData? ofData? d

end SchemaObject

/-- The number that a document gives for a bound: an integer for a whole number below `2 ^ 53`, none
for a bound that is not finite. -/
def Binary64.toNumber? : Binary64 → Option Number
  | .finite x =>
    if x.isWhole && x.wholePart < twoTo 53 then
      some (.integer (if x.negative then -(x.wholePart : Int) else x.wholePart))
    else some (.real x)
  | _ => none

end ApiDescription
