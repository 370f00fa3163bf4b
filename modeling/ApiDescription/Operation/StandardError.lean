import ApiDescription.Schema.Refine

/-!
# Standard errors

The responses that most operations give in the same way when something goes wrong.
-/

set_option autoImplicit false

namespace ApiDescription

/-- A status code with its usual description. -/
structure StandardError where
  code : Nat
  description : String
  deriving DecidableEq, Repr

namespace StandardError

/-- All standard errors by ascending code. -/
def all : List StandardError :=
  [⟨400, "Bad Request"⟩, ⟨401, "Unauthorized"⟩, ⟨403, "Forbidden"⟩, ⟨404, "Not Found"⟩,
    ⟨405, "Method Not Allowed"⟩, ⟨409, "Conflict"⟩, ⟨422, "Unprocessable Entity"⟩,
    ⟨429, "Too Many Requests"⟩, ⟨500, "Internal Server Error"⟩, ⟨502, "Bad Gateway"⟩,
    ⟨503, "Service Unavailable"⟩, ⟨504, "Gateway Timeout"⟩]

/-- The codes of the standard errors. -/
def codes : List Nat := all.map StandardError.code

/-- The standard error with the given code. -/
def ofCode? (code : Nat) : Option StandardError := all.find? (·.code == code)

/-- The schema of the body of every standard error: an error, and details that may be missing. -/
def body : Schema :=
  .ofProperties [("error", Schema.string.setPresence .required .optional), ("details", Schema.string)]

/-! ## Bundles -/

/-- The errors of any operation. -/
def commonCodes : List Nat := [400, 401, 403, 500]

/-- The errors of an operation that knows its caller. -/
def authCodes : List Nat := [401, 403]

/-- The errors of an operation that checks its input. -/
def validationCodes : List Nat := [400, 422]

/-- The errors of an operation on a stored thing. -/
def crudCodes : List Nat := [400, 401, 403, 404, 500]

/-- The errors of an operation that stores a new thing. -/
def createCodes : List Nat := [400, 401, 403, 409, 422, 500]

end StandardError

end ApiDescription
