/-!
# Powers

The powers of two and of ten that bound numbers and scale them.
-/

set_option autoImplicit false

namespace ApiDescription

/-- The power of two with the given exponent. -/
abbrev twoTo (n : Nat) : Nat := Nat.pow 2 n

/-- The power of ten with the given exponent. -/
abbrev tenTo (n : Nat) : Nat := Nat.pow 10 n

end ApiDescription
