/-!
# Grammar of arguments

The arguments of a command are options, which begin with one hyphen and a letter or with two hyphens and
a name, and inputs, which are everything else. `Grammar.read` sorts the arguments by the options of the
grammar, and refuses those that do not fit.
-/

set_option autoImplicit false

namespace ApiDescription

/-- Why arguments are refused, or what they ask for instead of a command. -/
inductive UsageError where
  | unknownArgument
  /-- A value is missing, or is none of the possible ones. -/
  | invalidValue
  /-- A value cannot be read. -/
  | malformedValue
  | tooManyValues
  /-- An option that may be given once is given again. -/
  | repeatedArgument
  | unknownCommand
  | noCommand
  | help
  | version
  deriving DecidableEq, Repr

/-- What the values of an option can be. -/
inductive ValueType where
  | text
  /-- A text that is not empty. -/
  | path
  | boolean
  /-- A text with a condition on it. -/
  | matching (holds : String → Bool)

/-- The value is of the type. -/
def ValueType.check (value : String) : ValueType → Except UsageError Unit
  | .text => .ok ()
  | .path => if value.isEmpty then .error .invalidValue else .ok ()
  | .boolean => if value = "true" || value = "false" then .ok () else .error .invalidValue
  | .matching holds => if holds value then .ok () else .error .malformedValue

/-- How an option is given. -/
inductive OptionKind where
  /-- Once, without a value. -/
  | flag
  /-- Once, with a value. -/
  | single (type : ValueType)
  /-- Once, alone or with a boolean behind an equals sign. -/
  | switch
  /-- Any number of times with a value, which may be several values between commas. -/
  | repeated (type : ValueType) (isSeparated : Bool)
  /-- It asks for something else than the command. -/
  | request (e : UsageError)

/-- An option. -/
structure OptionSpec where
  name : String
  letter : Option Char := none
  kind : OptionKind

/-- The options of a command, and the type of its inputs if it takes any. -/
structure Grammar where
  options : List OptionSpec
  inputs : Option ValueType := none

/-- The name under which inputs are kept. -/
def Grammar.inputsName : String := ""

/-- Arguments being read. -/
structure ArgumentReading where
  /-- The values so far, in order, by the names of their options. -/
  values : List (String × List String) := []
  /-- The last option, or the inputs, with values that have not been looked at yet. -/
  pending : Option (OptionSpec × List String) := none
  /-- The next argument is the value of the last option, unless it is an option itself. -/
  wantsValue : Bool := false
  /-- Everything else is an input. -/
  isInputsOnly : Bool := false

namespace ArgumentReading

/-- The values that were given under a name. -/
def valuesOf (r : ArgumentReading) (name : String) : List String :=
  (r.values.filter (·.1 = name)).flatMap Prod.snd

/-- The last value that was given under a name. -/
def value? (r : ArgumentReading) (name : String) : Option String := (r.valuesOf name).getLast?

/-- Something was given under a name. -/
def isGiven (r : ArgumentReading) (name : String) : Bool := r.values.any (·.1 = name)

/-! ## Values -/

/-- The pieces of a text between commas. -/
def commaPieces : List Char → List (List Char)
  | [] => [[]]
  | c :: cs =>
    match commaPieces cs with
    | [] => [[c]]
    | piece :: pieces => if c = ',' then [] :: piece :: pieces else (c :: piece) :: pieces

/-- Keeps values of the given type. -/
def keep (o : OptionSpec) (type : ValueType) (values : List String) (r : ArgumentReading) :
    Except UsageError ArgumentReading := do
  values.forM (type.check ·)
  .ok { r with values := r.values ++ [(o.name, values)] }

/-- Keeps the values of an option that may be given once. -/
def keepOnce (o : OptionSpec) (type : ValueType) (values : List String) (r : ArgumentReading) :
    Except UsageError ArgumentReading :=
  if r.isGiven o.name then .error .repeatedArgument else r.keep o type values

/-- Keeps what was given for an option. -/
def give (o : OptionSpec) (values : List String) (r : ArgumentReading) :
    Except UsageError ArgumentReading :=
  match o.kind with
  | .request e => .error e
  | .flag => r.keepOnce o .text values
  | .switch => r.keepOnce o .boolean (if values.isEmpty then ["true"] else values)
  | .single type => if values.isEmpty then .error .invalidValue else r.keepOnce o type values
  | .repeated type isSeparated =>
    if values.isEmpty then .error .invalidValue
    else if isSeparated then
      r.keep o type (values.flatMap fun v => (commaPieces v.toList).map String.ofList)
    else r.keep o type values

/-- Looks at the values that are waiting for it. -/
def settle (r : ArgumentReading) : Except UsageError ArgumentReading :=
  match r.pending with
  | none => .ok r
  | some (o, values) => { r with pending := none, wantsValue := false }.give o values

/-- Gives an option with the value that is attached to it. -/
def giveAttached (o : OptionSpec) (attached : Option String) (r : ArgumentReading) :
    Except UsageError ArgumentReading := do
  let r ← r.settle
  match o.kind, attached with
  | .single _, none | .repeated _ _, none =>
    .ok { r with pending := some (o, []), wantsValue := true }
  | _, _ => r.give o attached.toList

end ArgumentReading

namespace Grammar

/-! ## Arguments -/

/-- The argument as an option with a name, and what is attached to it behind an equals sign. -/
def longOption? (argument : String) : Option (String × Option String) :=
  match argument.toList with
  | '-' :: '-' :: c :: cs =>
    let name := (c :: cs).takeWhile (· ≠ '=')
    match (c :: cs).drop name.length with
    | _ :: attached => some (String.ofList name, some (String.ofList attached))
    | [] => some (String.ofList name, none)
  | _ => none

/-- The argument as a row of letters for options. -/
def letters? (argument : String) : Option (List Char) :=
  match argument.toList with
  | '-' :: '-' :: _ => none
  | '-' :: c :: cs => some (c :: cs)
  | _ => none

/-- The option takes a value that may stand in an argument of its own. -/
def takesValue (o : OptionSpec) : Bool :=
  match o.kind with
  | .single _ | .repeated _ _ => true
  | _ => false

/-- Reads an option with a name. -/
def readLong (g : Grammar) (name : String) (attached : Option String) (r : ArgumentReading) :
    Except UsageError ArgumentReading :=
  match g.options.find? (·.name = name) with
  | none => .error .unknownArgument
  | some o =>
    match o.kind, attached with
    | .flag, some _ | .request _, some _ => .error .tooManyValues
    | _, _ => r.giveAttached o attached

/-- Reads a row of letters. What follows the letter of an option with a value is the value. -/
def readLetters (g : Grammar) : List Char → ArgumentReading → Except UsageError ArgumentReading
  | [], r => .ok r
  | c :: cs, r =>
    match g.options.find? (·.letter = some c) with
    | none => .error .unknownArgument
    | some o =>
      if takesValue o then
        let attached := match cs with
          | [] => none
          | '=' :: value => some (String.ofList value)
          | value => some (String.ofList value)
        r.giveAttached o attached
      else
        match r.giveAttached o none with
        | .ok r => g.readLetters cs r
        | .error e => .error e

/-- Reads an input. Inputs that follow one another are looked at together. -/
def readInput (g : Grammar) (argument : String) (r : ArgumentReading) :
    Except UsageError ArgumentReading :=
  match g.inputs with
  | none => .error .unknownArgument
  | some type => do
    let o : OptionSpec := { name := inputsName, kind := .repeated type false }
    match r.pending with
    | some (p, values) =>
      if p.name = inputsName then .ok { r with pending := some (p, values ++ [argument]) }
      else
        let r ← r.settle
        .ok { r with pending := some (o, [argument]) }
    | none => .ok { r with pending := some (o, [argument]) }

/-- Reads the next argument. -/
def step (g : Grammar) (r : ArgumentReading) (argument : String) :
    Except UsageError ArgumentReading :=
  if r.isInputsOnly then g.readInput argument r
  else if argument = "--" then .ok { r with isInputsOnly := true }
  else
    match longOption? argument, letters? argument with
    | some (name, attached), _ => g.readLong name attached r
    | none, some cs => g.readLetters cs r
    | none, none =>
      match r.wantsValue, r.pending with
      | true, some (o, values) =>
        .ok { r with pending := some (o, values ++ [argument]), wantsValue := false }
      | _, _ => g.readInput argument r

/-- Reads all arguments. -/
def read (g : Grammar) (arguments : List String) : Except UsageError ArgumentReading := do
  let r ← arguments.foldlM g.step {}
  r.settle

end Grammar

end ApiDescription
