import ApiDescription.Entries
import ApiDescription.File.Path

/-!
# File trees

The files that a command can see, as a tree of directories. A path is followed from the top of the
tree; one that begins at the root of the system leads nowhere.
-/

set_option autoImplicit false

namespace ApiDescription

/-- A file with its bytes, or a directory with its entries. -/
inductive FileTree where
  | file (bytes : ByteArray)
  | directory (entries : List (String × FileTree))
  deriving Inhabited

namespace FileTree

/-- The directory without entries. -/
def empty : FileTree := .directory []

/-- The node at the end of a list of names. -/
def at? : FileTree → List String → Option FileTree
  | t, [] => some t
  | .file _, _ :: _ => none
  | .directory entries, name :: names => (Entries.get? entries name).bind (·.at? names)
  termination_by _ names => names.length

/-- The node is a directory. -/
def isDirectory : FileTree → Bool
  | .directory _ => true
  | .file _ => false

/-- Follows the parts of a path from the directory at the end of some names. Every part but the last one
must lead to a directory, and no part above the top. -/
def follow? (top : FileTree) (here : List String) : List String → Option (List String)
  | [] => some here
  | part :: parts =>
    if !((top.at? here).map isDirectory).getD false then none
    else if part.isEmpty || part == "." then follow? top here parts
    else if part == ".." then if here.isEmpty then none else follow? top here.dropLast parts
    else follow? top (here ++ [part]) parts

/-- The names that a path leads through. -/
def resolve? (top : FileTree) (path : String) : Option (List String) :=
  if path.isEmpty || FilePath.isAbsolute path then none
  else follow? top [] ((FilePath.rawParts path.toList).map String.ofList)

/-- The node that a path leads to. -/
def find? (top : FileTree) (path : String) : Option FileTree :=
  (top.resolve? path).bind top.at?

/-- The text of the file that a path leads to. -/
def readText? (top : FileTree) (path : String) : Option String :=
  match top.find? path with
  | some (.file bytes) => String.fromUTF8? bytes
  | _ => none

/-! ## Writing -/

/-- The entries with a file put at the end of a list of names, in directories that are made when they
are missing. A file cannot take the place of a directory, nor hold entries. -/
def putAt? (entries : List (String × FileTree)) (bytes : ByteArray) :
    List String → Option (List (String × FileTree))
  | [] => none
  | [name] =>
    match Entries.get? entries name with
    | some (.directory _) => none
    | _ => some (Entries.put entries name (.file bytes))
  | name :: names =>
    match Entries.get? entries name with
    | some (.file _) => none
    | some (.directory inner) =>
      (putAt? inner bytes names).map fun inner => Entries.put entries name (.directory inner)
    | none => (putAt? [] bytes names).map fun inner => Entries.put entries name (.directory inner)

/-- The entries with directories made along a list of names. -/
def makeAt? (entries : List (String × FileTree)) : List String → Option (List (String × FileTree))
  | [] => some entries
  | name :: names =>
    match Entries.get? entries name with
    | some (.file _) => none
    | some (.directory inner) =>
      (makeAt? inner names).map fun inner => Entries.put entries name (.directory inner)
    | none => (makeAt? [] names).map fun inner => Entries.put entries name (.directory inner)

/-- The tree with a file put at the end of a list of names. -/
def put? (bytes : ByteArray) (names : List String) : FileTree → Option FileTree
  | .directory entries => (putAt? entries bytes names).map .directory
  | .file _ => none

/-- The names that the parts of a path lead through when missing directories are made on the way. Only
the last part may lead to a file. -/
def plan? (top : FileTree) (here : List String) : List String → Option (List String)
  | [] => some here
  | part :: parts =>
    if part.isEmpty || part == "." then plan? top here parts
    else if part == ".." then if here.isEmpty then none else plan? top here.dropLast parts
    else
      match top.at? (here ++ [part]), parts with
      | some (.file _), _ :: _ => none
      | _, _ => plan? top (here ++ [part]) parts

/-- The tree with a text written to the file that a path leads to. The path ends with a name. -/
def write? (top : FileTree) (path text : String) : Option FileTree := do
  let parts := (FilePath.rawParts path.toList).map String.ofList
  let last ← parts.getLast?
  if FilePath.isAbsolute path || last.isEmpty || last == "." || last == ".." then none
  else
    let names ← plan? top [] parts
    top.put? text.toUTF8 names

/-- The tree with a file, or with a directory, put at the end of a path; missing directories are made. -/
def place? (top : FileTree) (path : String) (bytes : Option ByteArray) : Option FileTree :=
  let names := (FilePath.rawParts path.toList).map String.ofList |>.filter fun name =>
    !name.isEmpty && name != "."
  match top, bytes with
  | .directory entries, some bytes => (putAt? entries bytes names).map .directory
  | .directory entries, none => (makeAt? entries names).map .directory
  | .file _, _ => none

/-! ## Differences -/

mutual

/-- The paths of all files with their bytes, behind the path of the tree. -/
def files (path : String) : FileTree → List (String × ByteArray)
  | .file bytes => [(path, bytes)]
  | .directory entries => filesOfEntries path entries

/-- The paths of all files in the entries. -/
def filesOfEntries (path : String) : List (String × FileTree) → List (String × ByteArray)
  | [] => []
  | (name, t) :: rest => files (FilePath.join path name) t ++ filesOfEntries path rest

end

/-- The files that are new, or have other bytes than before. -/
def changes (before after : FileTree) : List (String × ByteArray) :=
  let old := before.files ""
  (after.files "").filter fun (path, bytes) =>
    match Entries.get? old path with
    | some b => b.data != bytes.data
    | none => true

end FileTree

end ApiDescription
