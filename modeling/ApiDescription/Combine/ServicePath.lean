/-!
# Paths of combined services

The path of an operation after combining is the base URL, the prefix of the service and the path in the
document of the service, written one behind the other, with every run of slashes collapsed.
-/

set_option autoImplicit false

namespace ApiDescription.ServicePath

/-- The characters without the slashes that stand right behind a slash, where the first argument says
whether the text itself stands behind one. -/
def collapse : Bool → List Char → List Char
  | _, [] => []
  | behindSlash, c :: cs =>
    if c = '/' then if behindSlash then collapse true cs else c :: collapse true cs
    else c :: collapse false cs

/-- The text with every run of slashes collapsed into one slash. -/
def normalize (path : String) : String := String.ofList (collapse false path.toList)

/-- The path behind a base URL and a prefix. -/
def join (baseUrl servicePrefix path : String) : String := normalize (baseUrl ++ servicePrefix ++ path)

end ApiDescription.ServicePath
