import ApiDescription.Entries
import ApiDescription.Number.Binary64

/-!
# JSON values

Objects keep the order in which their members were written, and numbers keep integers and binary
floating-point numbers apart, so `1` and `1.0` are different values. `Json.same` is equality of
documents: it does not look at the order of the members of an object.
-/

set_option autoImplicit false

namespace ApiDescription

/-- A number of a document. -/
inductive Number where
  | integer (n : Int)
  | real (x : Dyadic64)
  deriving DecidableEq, Repr, Inhabited

/-- A JSON value. -/
inductive Json where
  | null
  | bool (b : Bool)
  | number (n : Number)
  | string (s : String)
  | array (items : List Json)
  | object (members : List (String × Json))
  deriving Repr, Inhabited

/-- Integers are equal to equal integers, and floating-point numbers as real numbers. -/
def Number.same : Number → Number → Bool
  | .integer m, .integer n => m == n
  | .real x, .real y => x.same y
  | _, _ => false

/-- The bounds of the integers that a document can hold; beyond them a number is floating-point. -/
def Number.isIntegerRange (n : Int) : Bool := -(twoTo 63 : Int) ≤ n && n < twoTo 64

namespace Json

/-- The integer as a JSON value. -/
def ofInt (n : Int) : Json := .number (.integer n)

/-- The natural as a JSON value. -/
def ofNat (n : Nat) : Json := .number (.integer n)

/-! ## Equality of documents -/

mutual

/-- The two values are equal up to the order of the members of their objects. -/
def same : Json → Json → Bool
  | .null, .null => true
  | .bool a, .bool b => a == b
  | .number a, .number b => a.same b
  | .string a, .string b => a == b
  | .array xs, .array ys => sameItems xs ys
  | .object ms, .object ns => ms.length == ns.length && sameMembers ms ns
  | _, _ => false

/-- The two lists have equal items in the same order. -/
def sameItems : List Json → List Json → Bool
  | [], [] => true
  | x :: xs, y :: ys => same x y && sameItems xs ys
  | _, _ => false

/-- Every member of the first list has an equal one under its name in the second. -/
def sameMembers : List (String × Json) → List (String × Json) → Bool
  | [], _ => true
  | (k, v) :: ms, ns =>
    (match Entries.get? ns k with
     | some w => same v w
     | none => false) && sameMembers ms ns

end

/-! ## Access -/

/-- The members of an object. -/
def members? : Json → Option (List (String × Json))
  | .object ms => some ms
  | _ => none

/-- The items of an array. -/
def items? : Json → Option (List Json)
  | .array xs => some xs
  | _ => none

/-- The text of a string. -/
def string? : Json → Option String
  | .string s => some s
  | _ => none

/-- The member of an object with the given name. -/
def get? (j : Json) (name : String) : Option Json :=
  match j with
  | .object ms => Entries.get? ms name
  | _ => none

/-- The value is an object. -/
def isObject : Json → Bool
  | .object _ => true
  | _ => false

/-- The value is null. -/
def isNull : Json → Bool
  | .null => true
  | _ => false

/-! ## Repeated names -/

mutual

/-- The value with every repeated member name left at its first place, holding its last value. -/
def withoutRepeats : Json → Json
  | .array xs => .array (withoutRepeatsItems xs)
  | .object ms => .object (Entries.ofList (withoutRepeatsMembers ms))
  | j => j

/-- `withoutRepeats` on every item. -/
def withoutRepeatsItems : List Json → List Json
  | [] => []
  | x :: xs => withoutRepeats x :: withoutRepeatsItems xs

/-- `withoutRepeats` on the value of every member. -/
def withoutRepeatsMembers : List (String × Json) → List (String × Json)
  | [] => []
  | (k, v) :: ms => (k, withoutRepeats v) :: withoutRepeatsMembers ms

end

end Json

end ApiDescription
