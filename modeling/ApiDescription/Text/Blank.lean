/-!
# Blank text

The characters that Unicode counts as white space, and texts without anything else.
-/

set_option autoImplicit false

namespace ApiDescription.Text

/-- The code points with the white-space property. -/
def blankCodePoints : List Nat :=
  [0x09, 0x0A, 0x0B, 0x0C, 0x0D, 0x20, 0x85, 0xA0, 0x1680, 0x2000, 0x2001, 0x2002, 0x2003, 0x2004,
    0x2005, 0x2006, 0x2007, 0x2008, 0x2009, 0x200A, 0x2028, 0x2029, 0x202F, 0x205F, 0x3000]

/-- The character is white space. -/
def isBlankChar (c : Char) : Bool := blankCodePoints.contains c.toNat

/-- The text has nothing but white space in it. -/
def isBlank (s : String) : Bool := s.toList.all isBlankChar

/-- The character of the ASCII alphabet in lower case; other characters stay as they are. -/
def lower (s : String) : String := String.ofList (s.toList.map Char.toLower)

end ApiDescription.Text
