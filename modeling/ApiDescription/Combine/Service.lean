import ApiDescription.File.Path

/-!
# Services and their tags

A service is named after the file of its document. A tag on each of its operations records where the
operation came from.
-/

set_option autoImplicit false

namespace ApiDescription.Service

/-- The text before a suffix that the text has. -/
def stripSuffix? (suffix text : String) : Option String :=
  let cs := text.toList
  let n := cs.length - suffix.length
  if cs.drop n = suffix.toList then some (String.ofList (cs.take n)) else none

/-- The text behind a beginning that the text has. -/
def stripStart? (start text : String) : Option String :=
  let cs := text.toList
  if cs.take start.length = start.toList then some (String.ofList (cs.drop start.length)) else none

/-- The endings of file names that are not part of the name of a service. -/
def suffixes : List String := ["-service", ".service", "-api", ".api"]

/-- The text without the first of the endings that it has. -/
def ofStem (stem : String) : String :=
  (suffixes.findSome? fun suffix => stripSuffix? suffix stem).getD stem

/-- The service that the document at a path describes. -/
def ofPath (path : String) : String := ofStem ((FilePath.stem? path).getD "")

/-- How the tag of a service begins. -/
def tagStart : String := "service:"

/-- The tag of a service. -/
def tag (service : String) : String := tagStart ++ service

/-- The service that the first tag of a service among the tags names. -/
def ofTags? (tags : List String) : Option String := tags.findSome? (stripStart? tagStart)

end ApiDescription.Service

namespace ApiDescription

/-- Which operations are kept, by their tags. An empty list lets everything through. -/
structure TagFilter where
  included : List String := []
  excluded : List String := []
  deriving DecidableEq, Repr, Inhabited

/-- An operation with the tags is kept. -/
def TagFilter.allows (f : TagFilter) (tags : List String) : Bool :=
  (f.included.isEmpty || tags.any f.included.contains) && !tags.any f.excluded.contains

end ApiDescription
