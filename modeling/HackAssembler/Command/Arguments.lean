/-! # Command lines

A command line asks for an assembly, for help or for the version. Options come before or after the
input, each at most once. The value of an option stands in the same argument, after an equals sign
or, behind a letter, without one; or else it is the next argument. Letters can be combined behind
one dash. What follows two dashes is no option.

Arguments are read from left to right, and help and version are asked for as soon as their option
is reached.
-/

namespace HackAssembler

structure Arguments where
  input : Option String := none
  output : Option String := none
  tables : Option String := none
  dump : Bool := false
  deriving DecidableEq, Repr

inductive Request where
  | assemble (arguments : Arguments)
  | showHelp
  | showVersion
  deriving DecidableEq, Repr

namespace Request

inductive ValueOption where
  | output
  | tables
  deriving DecidableEq, Repr

inductive Switch where
  | valued (option : ValueOption)
  | dump
  | help
  | version
  deriving DecidableEq, Repr

def Switch.ofLetter? : Char → Option Switch
  | 'o' => some (valued .output)
  | 't' => some (valued .tables)
  | 'd' => some dump
  | 'h' => some help
  | 'V' => some version
  | _ => none

def Switch.ofName? : String → Option Switch
  | "output" => some (valued .output)
  | "tables" => some (valued .tables)
  | "dump" => some dump
  | "help" => some help
  | "version" => some version
  | _ => none

/-! ### Effects of single arguments -/

def giveOnce {α : Type} (known : Option α) (value : α) : Option (Option α) :=
  if known.isSome then none else some (some value)

def giveInput (arguments : Arguments) (path : String) : Option Arguments := do
  return { arguments with input := ← giveOnce arguments.input path }

def giveValue (arguments : Arguments) (value : String) : ValueOption → Option Arguments
  | .output => do return { arguments with output := ← giveOnce arguments.output value }
  | .tables => do return { arguments with tables := ← giveOnce arguments.tables value }

def giveDump (arguments : Arguments) : Option Arguments :=
  if arguments.dump then none else some { arguments with dump := true }

/-- Where the reading of a command line stands after an argument. -/
inductive Progress where
  | ready (arguments : Arguments)
  | awaits (option : ValueOption) (arguments : Arguments)
  | done (request : Request)

def readLetters (arguments : Arguments) : List Char → Option Progress
  | [] => some (.ready arguments)
  | letter :: rest => do
    match ← Switch.ofLetter? letter with
    | .help => return .done showHelp
    | .version => return .done showVersion
    | .dump => readLetters (← giveDump arguments) rest
    | .valued option =>
      match rest with
      | [] => return .awaits option arguments
      | '=' :: value => return .ready (← giveValue arguments (String.ofList value) option)
      | value => return .ready (← giveValue arguments (String.ofList value) option)

/-- Reads the name of an option, with a value if there is an equals sign. -/
def readName (arguments : Arguments) (text : List Char) : Option Progress := do
  let name := text.takeWhile (· ≠ '=')
  let value := text.dropWhile (· ≠ '=')
  match ← Switch.ofName? (String.ofList name), value with
  | .valued option, [] => return .awaits option arguments
  | .valued option, _ :: value => return .ready (← giveValue arguments (String.ofList value) option)
  | .dump, [] => return .ready (← giveDump arguments)
  | .help, [] => return .done showHelp
  | .version, [] => return .done showVersion
  | _, _ :: _ => none

/-- A text can be the value of an option as an argument of its own if it is a lone dash or begins
with no dash. -/
def isValue : List Char → Bool
  | ['-'] => true
  | '-' :: _ => false
  | _ => true

/-! ### Command lines -/

def readInputs (arguments : Arguments) : List String → Option Request
  | [] => some (.assemble arguments)
  | path :: rest => do readInputs (← giveInput arguments path) rest

/-- Reads arguments, of which the first must be the value of an option that awaits one. -/
def readFrom (arguments : Arguments) (awaiting : Option ValueOption) :
    List String → Option Request
  | [] => if awaiting.isSome then none else some (.assemble arguments)
  | argument :: rest => do
    match awaiting with
    | some option =>
      guard (isValue argument.toList)
      readFrom (← giveValue arguments argument option) none rest
    | none =>
      let progress ←
        match argument.toList with
        | ['-', '-'] => return ← readInputs arguments rest
        | '-' :: '-' :: text => readName arguments text
        | '-' :: letter :: letters => readLetters arguments (letter :: letters)
        | _ => pure (.ready (← giveInput arguments argument))
      match progress with
      | .ready arguments => readFrom arguments none rest
      | .awaits option arguments => readFrom arguments (some option) rest
      | .done request => return request

end Request

def Request.read (arguments : List String) : Option Request :=
  readFrom {} none arguments

example : Request.read ["-do", "x", "--tables=", "-"] =
    some (.assemble ⟨some "-", some "x", some "", true⟩) := by decide +kernel

example : Request.read ["--", "-d"] = some (.assemble ⟨some "-d", none, none, false⟩) := by
  decide +kernel

example : Request.read ["-o", "x", "-ox"] = none := by decide +kernel

end HackAssembler
