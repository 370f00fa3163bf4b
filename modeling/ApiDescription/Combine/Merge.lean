import ApiDescription.Combine.Config
import ApiDescription.Combine.Reference
import ApiDescription.Combine.ServicePath
import ApiDescription.Combine.Source
import ApiDescription.Combine.Validity
import ApiDescription.Document.OpenApi

/-!
# Merging documents

A `MergeState` holds what the sources so far have put together. `MergeState.add` puts the next source
behind them: first its components, then the operations of its paths, then its tags. Whatever the
source defines in another way than a source before it is a `Conflict`, which stops everything under
one strategy and is only recorded under the other.
-/

set_option autoImplicit false

namespace ApiDescription

/-! ## Conflicts -/

/-- What two services define in different ways. -/
inductive ConflictSubject where
  | schema (name : String)
  | component (kind key : String)
  | operation (method path : String)
  deriving DecidableEq, Repr

/-- A service defines something in another way than the service that defined it before. -/
structure Conflict where
  subject : ConflictSubject
  service : String
  previous : String
  deriving DecidableEq, Repr

/-- The name of a schema that is kept apart from one of the same name. -/
def namespaced (service name : String) : String := service ++ "." ++ name

namespace Conflict

/-- The wording as a warning, which says how the conflict was settled. -/
def warning (c : Conflict) : String :=
  match c.subject with
  | .schema name =>
    "Renaming schema " ++ name ++ " from " ++ c.service ++ " to " ++ namespaced c.service name ++
      " (conflicts with " ++ c.previous ++ ")"
  | .component kind key =>
    "Overriding " ++ kind ++ " component " ++ key ++ " (previously from " ++ c.previous ++ ")"
  | .operation method path =>
    "Overriding " ++ method ++ " " ++ path ++ " (previously from " ++ c.previous ++ ")"

/-- The kind and the key of the subject. -/
def subjectText (c : Conflict) : String :=
  match c.subject with
  | .schema name => "schema '" ++ name ++ "'"
  | .component kind key => "component '" ++ kind ++ "/" ++ key ++ "'"
  | .operation method path => "operation '" ++ method ++ " " ++ path ++ "'"

/-- The wording as an error. -/
def message (c : Conflict) : String :=
  c.subjectText ++ " from service '" ++ c.service ++ "' conflicts with the one from '" ++
    c.previous ++ "'"

end Conflict

/-! ## The state -/

/-- What has been put together so far. -/
structure MergeState where
  /-- The path items by path, in the order in which a path was first reached. -/
  paths : List (String × List (String × Json)) := []
  /-- The components by kind and key. -/
  components : List (String × List (String × Json)) := []
  /-- The service that wrote a component last, by kind and key. -/
  owners : List ((String × String) × String) := []
  tags : List Json := []
  warnings : List Conflict := []
  /-- How many schemas were found equal to one of an earlier source. -/
  mergedSchemas : Nat := 0
  conflicts : Nat := 0
  deriving Repr, Inhabited

/-- A conflict that stops everything, and what has been put together by then. -/
structure MergeStop where
  conflict : Conflict
  state : MergeState
  deriving Repr

namespace MergeState

/-- The name of an owner that is not known. -/
def unknownOwner : String := "unknown"

/-- The service that wrote a component last. -/
def owner (s : MergeState) (kind key : String) : String :=
  (s.owners.lookup (kind, key)).getD unknownOwner

/-- The component of a kind under a key. -/
def component? (s : MergeState) (kind key : String) : Option Json :=
  (Entries.get? s.components kind).bind (Entries.get? · key)

/-- Settles a conflict: it is the error of the strategy `error`, and a warning of any other. -/
def settle (strategy : ConflictStrategy) (c : Conflict) (s : MergeState) :
    Except MergeStop MergeState :=
  if strategy = .error then .error ⟨c, s⟩
  else .ok { s with warnings := s.warnings ++ [c], conflicts := s.conflicts + 1 }

/-! ## Schemas that are renamed -/

/-- The kind of the components that are schemas. -/
def schemaKind : String := "schemas"

/-- A decision on the schemas of a source: which are renamed, and how many others are shared. -/
structure RenamePass where
  state : MergeState
  renames : Renames
  /-- The schemas that keep their names, in order. -/
  kept : List (String × Json) := []
  shared : Nat := 0

/-- Decides on one schema more. A schema keeps its name when no earlier source has the name, or has the
same schema under it; references to schemas renamed so far have their new targets in that. -/
def decide (strategy : ConflictStrategy) (service : String) (p : RenamePass)
    (schema : String × Json) : Except MergeStop RenamePass :=
  let (name, value) := schema
  match p.state.component? schemaKind name with
  | none => .ok { p with kept := p.kept ++ [schema] }
  | some existing =>
    if existing.same (p.renames.redirect value) then
      .ok { p with kept := p.kept ++ [schema], shared := p.shared + 1 }
    else do
      let state ← p.state.settle strategy
        ⟨.schema name, service, p.state.owner schemaKind name⟩
      .ok { p with
        state := state
        renames := Entries.put p.renames name (namespaced service name) }

/-- Decides on all schemas again and again, until no further one is renamed. Each round but the last
leaves fewer schemas with their names. -/
def decideAll (strategy : ConflictStrategy) (service : String) (s : MergeState)
    (renames : Renames) (schemas : List (String × Json)) :
    Except MergeStop (MergeState × Renames) :=
  match schemas.foldlM (decide strategy service) { state := s, renames := renames } with
  | .error stop => .error stop
  | .ok p =>
    if p.kept.length < schemas.length then decideAll strategy service p.state p.renames p.kept
    else .ok ({ p.state with mergedSchemas := p.state.mergedSchemas + p.shared }, p.renames)
  termination_by schemas.length

/-- The new names of the schemas of a source: of those that differ from an earlier schema of the same
name, or of all when schemas are not to be merged. -/
def schemaRenames (config : CombineConfig) (service : String) (document : Json) (s : MergeState) :
    Except MergeStop (MergeState × Renames) :=
  let schemas := Source.membersAt document ["components", schemaKind]
  if config.mergeSchemas then decideAll config.conflictStrategy service s [] schemas
  else .ok (s, schemas.map fun (name, _) => (name, namespaced service name))

/-! ## Components -/

/-- Puts a component in, in place of one of the same kind and key. It is left alone when it is there
already. -/
def insertComponent (strategy : ConflictStrategy) (service kind key : String) (value : Json)
    (s : MergeState) : Except MergeStop MergeState :=
  let write (s : MergeState) : MergeState :=
    let entries := (Entries.get? s.components kind).getD []
    { s with
      components := Entries.put s.components kind (Entries.put entries key value)
      owners := ((kind, key), service) :: s.owners }
  match s.component? kind key with
  | none => .ok (write s)
  | some existing =>
    if existing.same value then .ok s
    else (s.settle strategy ⟨.component kind key, service, s.owner kind key⟩).map write

/-- The key under which a component goes. -/
def componentKey (renames : Renames) (kind key : String) : String :=
  if kind = schemaKind then (Entries.get? renames key).getD key else key

/-- The components of a document one after the other, with kind and key. -/
def componentsOf (document : Json) : List (String × String × Json) :=
  (Source.membersAt document ["components"]).flatMap fun (kind, entries) =>
    (entries.members?.getD []).map fun (key, value) => (kind, key, value)

/-- Puts the components of a document in, whose references point at renamed schemas already. -/
def mergeComponents (strategy : ConflictStrategy) (service : String) (renames : Renames)
    (document : Json) (s : MergeState) : Except MergeStop MergeState :=
  (componentsOf document).foldlM
    (fun s (kind, key, value) =>
      s.insertComponent strategy service kind (componentKey renames kind key) value) s

/-! ## Operations -/

/-- The tags of an operation, as far as they are texts. -/
def tagsOf (operation : Json) : List String :=
  (Source.itemsAt operation "tags").filterMap Json.string?

/-- The tags of an operation of a source: its own, those that go on all operations of the source, and
in front the tag of the service, each of the latter unless it is there already. -/
def combinedTags (source : Source) (operation : Json) : List String :=
  let tags := source.tags.foldl
    (fun tags tag => if tags.contains tag then tags else tags ++ [tag]) (tagsOf operation)
  let service := Service.tag source.service
  if tags.contains service then tags else service :: tags

/-- The security requirements that a document makes of all its operations, if it makes any. -/
def documentSecurity? (document : Json) : Option Json :=
  match document.get? "security" with
  | some (.array (x :: xs)) => some (.array (x :: xs))
  | _ => none

/-- The operation as it stands in the combined document: with its tags, and with the requirements of its
document when it makes none of its own. -/
def prepare (source : Source) (security : Option Json) (operation : Json) : Json :=
  match operation with
  | .object members =>
    let members := Entries.put members "tags"
      (.array ((combinedTags source operation).map .string))
    .object (match security with
      | some requirements => Entries.putNew members "security" requirements
      | none => members)
  | operation => operation

/-- The item of a path. -/
def pathItem (s : MergeState) (path : String) : List (String × Json) :=
  (Entries.get? s.paths path).getD []

/-- Puts a member into the item of a path. -/
def putMember (path name : String) (value : Json) (s : MergeState) : MergeState :=
  { s with paths := Entries.put s.paths path (Entries.put (s.pathItem path) name value) }

/-- Puts an operation in, in place of one under the same path and method. -/
def insertOperation (strategy : ConflictStrategy) (service path : String) (s : MergeState)
    (operation : String × Json) : Except MergeStop MergeState := do
  let (method, value) := operation
  let s ← match Entries.get? (s.pathItem path) method with
    | some existing =>
      let previous := (Service.ofTags? (tagsOf existing)).getD unknownOwner
      s.settle strategy ⟨.operation method path, service, previous⟩
    | none => .ok s
  .ok (s.putMember path method value)

/-- The operations of a path item that the filter keeps, as they stand in the combined document. -/
def retained (filter : TagFilter) (source : Source) (security : Option Json) (item : Json) :
    List (String × Json) :=
  ((DocumentFault.operationsOf item).filter fun o => filter.allows (tagsOf o.2)).map
    fun (method, o) => (method, prepare source security o)

/-- Puts a path item in, unless none of its operations is kept: first what is no operation, then the
operations. -/
def mergeItem (config : CombineConfig) (source : Source) (security : Option Json)
    (s : MergeState) (entry : String × Json) : Except MergeStop MergeState :=
  let (path, item) := entry
  let path := ServicePath.join config.baseUrl (config.prefixOf source.service) path
  match retained config.tagFilter source security item with
  | [] => .ok s
  | operations =>
    let others := (item.members?.getD []).filter fun m => !DocumentFault.isMethod m.1
    let s := others.foldl (fun s (name, value) => s.putMember path name value) s
    operations.foldlM (insertOperation config.conflictStrategy source.service path) s

/-- Puts the paths of a document in. -/
def mergePaths (config : CombineConfig) (source : Source) (document : Json) (s : MergeState) :
    Except MergeStop MergeState :=
  (Source.membersAt document ["paths"]).foldlM
    (mergeItem config source (documentSecurity? document)) s

/-! ## Tags -/

/-- The name of a tag, if it has one. -/
def tagName? (tag : Json) : Option String := (tag.get? "name").bind Json.string?

/-- The tag that says what is known about the service of a source. -/
def metadataTag (source : Source) : Json := .object <|
  [("name", .string (Service.tag source.service))] ++
  Json.member? "description" .string source.description ++
  Json.member? "x-service-version" .string source.version ++
  Json.member? "x-health-check" .string source.healthCheck

/-- Puts a declared tag behind the others, unless one of its name is there. -/
def declareTag (tags : List Json) (tag : Json) : List Json :=
  match tagName? tag with
  | some name => if tags.any (tagName? · == some name) then tags else tags ++ [tag]
  | none => tags

/-- Puts the tags of a document in, and at the end the tag of its service, in place of any other tag of
that name. -/
def mergeTags (source : Source) (document : Json) (s : MergeState) : MergeState :=
  let tags := (Source.itemsAt document "tags").foldl declareTag s.tags
  { s with
    tags :=
      if source.hasMetadata then
        (tags.filter fun tag => tagName? tag != some (Service.tag source.service)) ++
          [metadataTag source]
      else tags }

/-! ## Sources -/

/-- Puts a source behind those before it. -/
def add (config : CombineConfig) (s : MergeState) (source : Source) :
    Except MergeStop MergeState := do
  let (s, renames) ← s.schemaRenames config source.service source.document
  let document := renames.redirect source.document
  let s ← s.mergeComponents config.conflictStrategy source.service renames document
  let s ← s.mergePaths config source document
  .ok (s.mergeTags source document)

/-- Puts sources in one behind the other. -/
def addAll (config : CombineConfig) (sources : List Source) : Except MergeStop MergeState :=
  sources.foldlM (add config) {}

/-- The member of the components, which is left out when there are none. -/
def componentsMember (components : List (String × List (String × Json))) :
    List (String × Json) :=
  match components with
  | [] => []
  | cs => [("components", .object (cs.map fun (kind, entries) => (kind, .object entries)))]

/-- The combined document. -/
def toDocument (config : CombineConfig) (s : MergeState) : Json := .object <|
  [("openapi", .string openApiVersion),
    ("info", .object <|
      [("title", .string config.title), ("version", .string config.version)] ++
        Json.member? "description" .string config.description),
    ("paths", .object (s.paths.map fun (path, item) => (path, .object item)))] ++
  componentsMember s.components ++
  Json.listMember "tags" id s.tags

end MergeState

end ApiDescription
