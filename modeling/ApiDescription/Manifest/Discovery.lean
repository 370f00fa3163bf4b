import ApiDescription.Collect
import ApiDescription.Manifest.Basic

/-!
# Discovery

The manifests under a directory are found by their names and taken in the order of their paths.
`Discovered` is what they list, up to the first thing that is wrong.
-/

set_option autoImplicit false

namespace ApiDescription

/-- What manifests list. Every operation comes with the path of its manifest. -/
structure Discovered where
  operations : List (String × Operation) := []
  schemas : List (String × Schema) := []
  securitySchemes : List (String × SecurityScheme) := []
  tags : List Tag := []
  deriving Repr, Inhabited

namespace Discovered

/-- What one and then the other lists. -/
def append (a b : Discovered) : Discovered where
  operations := a.operations ++ b.operations
  schemas := a.schemas ++ b.schemas
  securitySchemes := a.securitySchemes ++ b.securitySchemes
  tags := a.tags ++ b.tags

instance : Append Discovered := ⟨append⟩

end Discovered

variable [PatternReader]

/-- The operation of a definition in a manifest. -/
def OperationDefinition.compile (origin : String) (o : OperationDefinition) :
    Except ManifestError (String × Operation) :=
  match o.draft with
  | .error e => .error (.definition e)
  | .ok draft =>
    match draft.compile with
    | .error e => .error (.operation origin e)
    | .ok operation => .ok (origin, operation)

namespace RouteManifest

/-- The schema of a named definition. -/
def namedSchema (d : String × SchemaDefinition) : Except ManifestError (String × Schema) :=
  match d.2.toSchema ("schemas." ++ d.1) with
  | .ok s => .ok (d.1, s)
  | .error e => .error (.definition (.invalidDefinition e))

/-- What the manifest at a path lists: schemas first, and operations last. -/
def discover (origin : String) (m : RouteManifest) : Discovered × Except ManifestError Unit :=
  let (schemas, result) := collect namedSchema m.schemas
  match result with
  | .error e => ({ schemas := schemas }, .error e)
  | .ok _ =>
    let (operations, result) := collect (OperationDefinition.compile origin) m.operations
    ({ operations, schemas, securitySchemes := m.securitySchemes, tags := m.tags }, result)

/-! ## Files -/

/-- How the names of manifests end, in letters of either case. -/
def suffixes : List String := [".routes.yaml", ".routes.yml", ".routes.json"]

/-- The name is that of a manifest. -/
def isManifestName (name : String) : Bool :=
  let cs := (Text.lower name).toList
  suffixes.any fun suffix => suffix.toList.isSuffixOf cs

mutual

/-- The paths of the manifests in a tree that stands at a path, in the order of the names. -/
def pathsIn (path name : String) : FileTree → List String
  | .file _ => if isManifestName name then [path] else []
  | .directory entries =>
    let found := (pathsInEntries path entries).mergeSort fun a b => decide (a.1 ≤ b.1)
    found.flatMap Prod.snd

/-- The paths of the manifests in each entry of a directory, with the entry's name. -/
def pathsInEntries (path : String) : List (String × FileTree) → List (String × List String)
  | [] => []
  | (name, t) :: rest =>
    (name, pathsIn (FilePath.join path name) name t) :: pathsInEntries path rest

end

/-- The paths of the manifests under a root. -/
def paths (files : FileTree) (root : String) : Except ManifestError (List String) :=
  match files.find? root with
  | none => .error (.unwalkable root)
  | some t => .ok (pathsIn root ((FilePath.name? root).getD "") t)

/-- What the manifest at a path lists. -/
def discoverFile (files : FileTree) (path : String) : Except ManifestError Discovered := do
  let m ← load files path
  let (discovered, result) := m.discover path
  result
  .ok discovered

/-- What all manifests under a root list. -/
def discoverAll (files : FileTree) (root : String) : Except ManifestError Discovered := do
  let all ← (← paths files root).mapM (discoverFile files)
  .ok (all.foldl (· ++ ·) {})

end RouteManifest

end ApiDescription
