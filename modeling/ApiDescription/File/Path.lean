/-!
# File paths

Paths are texts whose parts are separated by slashes. Empty parts and dots in the middle name nothing;
only the last part that does may have a stem and an extension.
-/

set_option autoImplicit false

namespace ApiDescription.FilePath

/-- The parts of a text between slashes. -/
def rawParts : List Char → List (List Char)
  | [] => [[]]
  | c :: cs =>
    if c = '/' then [] :: rawParts cs
    else
      match rawParts cs with
      | [] => [[c]]
      | p :: ps => (c :: p) :: ps

/-- The path begins at the root. -/
def isAbsolute (path : String) : Bool := path.toList.head? == some '/'

/-- The parts of a path that are neither empty nor a dot. -/
def parts (path : String) : List String :=
  ((rawParts path.toList).map String.ofList).filter fun p => !p.isEmpty && p != "."

/-- The name of what the path leads to, unless that is a step upwards. -/
def name? (path : String) : Option String := (parts path).getLast?.filter (· != "..")

/-- Splits a name at its last dot, unless the name begins with that dot. -/
def splitName (name : String) : String × Option String :=
  let cs := name.toList
  let ext := (cs.reverse.takeWhile (· ≠ '.')).reverse
  let stem := cs.take (cs.length - ext.length - 1)
  if cs.contains '.' && !stem.isEmpty then (String.ofList stem, some (String.ofList ext))
  else (name, none)

/-- The name without its extension. -/
def stem? (path : String) : Option String := (name? path).map fun n => (splitName n).1

/-- What stands behind the last dot of the name. -/
def extension? (path : String) : Option String := (name? path).bind fun n => (splitName n).2

/-- The path without the slashes, and the dots between slashes, at its end. -/
def trimEnd (reversed : List Char) : List Char :=
  match reversed with
  | '/' :: rest => if rest.isEmpty then ['/'] else trimEnd rest
  | ['.', '/'] => ['/']
  | '.' :: '/' :: rest => trimEnd ('/' :: rest)
  | cs => cs
  termination_by reversed.length

/-- The path to the directory that holds what the path leads to: the path without its last part. -/
def parent? (path : String) : Option String :=
  let trimmed := trimEnd path.toList.reverse
  if trimmed.isEmpty || trimmed = ['/'] then none
  else
    let rest := trimmed.dropWhile (· ≠ '/')
    some (String.ofList (trimEnd rest).reverse)

/-- The path that leads on from a directory, or the second path if it begins at the root. -/
def join (directory path : String) : String :=
  if isAbsolute path || directory.isEmpty then path
  else if directory.toList.getLast? == some '/' then directory ++ path
  else directory ++ "/" ++ path

end ApiDescription.FilePath
