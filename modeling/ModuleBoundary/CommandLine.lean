import ModuleBoundary.Command

/-! Reading the arguments of the program.

Arguments are read in order, first those of the program and then, from the word that
names a command, those of the command. A parameter that takes a value waits for it;
what it was given is examined only when the next parameter or the end is met, so a
faulty value is not noticed before an argument that nobody knows.
-/

set_option autoImplicit false

namespace ModuleBoundary.CommandLine

/-- Why arguments are refused. -/
inductive UsageError where
  | unknownArgument
  | invalidValue
  | tooManyValues
  | argumentConflict
  | missingArgument
  | invalidCommand
  | missingCommand
  /-- Nothing is asked for. -/
  | nothingGiven
  deriving DecidableEq

/-- How reading ends without a command to run. -/
inductive Ending where
  | help
  | version
  | misuse (error : UsageError)
  deriving DecidableEq

/-- Whose arguments are read. -/
inductive Scope where
  | program
  | verify
  | init
  deriving DecidableEq

/-- What a value is given for. The operand is the argument without a name. -/
inductive Slot where
  | operand
  | basePackage
  | format
  | reportFile
  | configurationDirectory
  | logLevel
  deriving DecidableEq

/-- A named parameter: one that takes a value, or one that asks for a text. -/
inductive Parameter where
  | value (slot : Slot)
  | help
  | version

def Scope.long? : Scope → String → Option Parameter
  | _, "help" => some .help
  | _, "log-level" => some (.value .logLevel)
  | .program, "version" => some .version
  | .verify, "base-package" => some (.value .basePackage)
  | .verify, "format" => some (.value .format)
  | .verify, "output" => some (.value .reportFile)
  | .verify, "config-dir" => some (.value .configurationDirectory)
  | _, _ => none

def Scope.short? : Scope → Char → Option Parameter
  | _, 'h' => some .help
  | .program, 'V' => some .version
  | .verify, 'b' => some (.value .basePackage)
  | .verify, 'f' => some (.value .format)
  | .verify, 'o' => some (.value .reportFile)
  | _, _ => none

def formatOfName? : String → Option ReportFormat
  | "markdown" => some .markdown
  | "json" => some .json
  | _ => none

/-- Paths are not empty. -/
def Slot.accepts : Slot → String → Bool
  | .operand, value => value ≠ ""
  | .reportFile, value => value ≠ ""
  | .configurationDirectory, value => value ≠ ""
  | .format, value => (formatOfName? value).isSome
  | .basePackage, _ => true
  | .logLevel, _ => true

/-- The forms of an argument. -/
inductive Word where
  /-- All after `--` are operands. -/
  | escape
  | long (name : String) (value : Option String)
  | short (letters : List Char)
  | plain

def Word.of (argument : String) : Word :=
  match argument.toList with
  | ['-', '-'] => .escape
  | '-' :: '-' :: rest =>
    let name := rest.takeWhile (· ≠ '=')
    match rest.drop name.length with
    | [] => .long (String.ofList name) none
    | _ :: value => .long (String.ofList name) (some (String.ofList value))
  | '-' :: letter :: rest => .short (letter :: rest)
  | _ => .plain

/-- What has been read of the arguments in one scope. -/
structure Reading where
  given : List (Slot × String) := []
  /-- The slot met last, with its value once that is there. -/
  pending : Option (Slot × Option String) := none
  operandsOnly : Bool := false

abbrev Step := Except Ending Reading

def refuse {α : Type} (error : UsageError) : Except Ending α := .error (.misuse error)

namespace Reading

/-- Whether the next argument is the value of the slot met last. -/
def awaitsValue (reading : Reading) : Bool :=
  !reading.operandsOnly && match reading.pending with
    | some (_, none) => true
    | _ => false

def give (reading : Reading) (slot : Slot) (value : String) : Step :=
  if (reading.given.lookup slot).isSome then refuse .argumentConflict
  else if slot.accepts value then .ok { reading with given := (slot, value) :: reading.given }
  else refuse .invalidValue

/-- Examine what is pending. -/
def settle (reading : Reading) : Step :=
  match reading.pending with
  | none => .ok reading
  | some (_, none) => refuse .invalidValue
  | some (slot, some value) => { reading with pending := none }.give slot value

/-- A value after its parameter is pending, one attached to it is examined at once. -/
def useParameter (reading : Reading) (parameter : Parameter) (attached : Option String) : Step := do
  let settled ← reading.settle
  match parameter, attached with
  | .help, _ => .error .help
  | .version, _ => .error .version
  | .value slot, none => .ok { settled with pending := some (slot, none) }
  | .value slot, some value => settled.give slot value

def readLong (scope : Scope) (reading : Reading) (name : String) (value : Option String) : Step :=
  match scope.long? name, value with
  | none, _ => refuse .unknownArgument
  | some (.value slot), value => reading.useParameter (.value slot) value
  | some _, some _ => refuse .tooManyValues
  | some parameter, none => reading.useParameter parameter none

/-- The first letter decides: it takes the rest as its value, without a `=` in front, or
ends the reading. -/
def readShort (scope : Scope) (reading : Reading) (letters : List Char) : Step :=
  match letters with
  | [] => .ok reading
  | letter :: rest =>
    match scope.short? letter with
    | none => refuse .unknownArgument
    | some parameter =>
      let attached := match rest with
        | [] => none
        | '=' :: value => some (String.ofList value)
        | value => some (String.ofList value)
      reading.useParameter parameter attached

def hasOperand (reading : Reading) : Bool :=
  (reading.given.lookup .operand).isSome || match reading.pending with
    | some (.operand, _) => true
    | _ => false

/-- The program itself takes no operand and there is one in each command. A word that
would have been a command is called unknown after `--`. -/
def readOperand (scope : Scope) (reading : Reading) (argument : String) : Step :=
  match scope with
  | .program =>
    if reading.operandsOnly && ["verify", "init", "help"].contains argument then
      refuse .unknownArgument
    else refuse .invalidCommand
  | _ =>
    if reading.hasOperand then refuse .unknownArgument
    else do
      let settled ← reading.settle
      return { settled with pending := some (.operand, some argument) }

def readValueOrOperand (scope : Scope) (reading : Reading) (argument : String) : Step :=
  match reading.awaitsValue, reading.pending with
  | true, some (slot, _) => .ok { reading with pending := some (slot, some argument) }
  | _, _ => reading.readOperand scope argument

def read (scope : Scope) (reading : Reading) (argument : String) : Step :=
  if reading.operandsOnly then reading.readOperand scope argument
  else match Word.of argument with
    | .escape => .ok { reading with operandsOnly := true }
    | .long name value => reading.readLong scope name value
    | .short letters => reading.readShort scope letters
    | .plain => reading.readValueOrOperand scope argument

end Reading

/-- Everything given in one scope. -/
def readAll (scope : Scope) (arguments : List String) : Except Ending (List (Slot × String)) := do
  let reading ← arguments.foldlM (Reading.read scope) {}
  return (← reading.settle).given

/-- Help is there for the program and for each of its commands, which have none of their own. -/
def readHelp : List String → Ending
  | [] => .help
  | [command] =>
    if ["verify", "init", "help"].contains command then .help else .misuse .invalidCommand
  | _ => .misuse .invalidCommand

/-- A command to run, and what to log meanwhile. -/
structure Invocation where
  logLevel : String
  command : Command
  deriving DecidableEq

def readVerify (arguments : List String) : Except Ending (Option String × Command) := do
  let given ← readAll .verify arguments
  match given.lookup .operand with
  | none => refuse .missingArgument
  | some classes =>
    return (given.lookup .logLevel, .verify {
      request := {
        classes
        basePackage := given.lookup .basePackage
        configurationDirectory := given.lookup .configurationDirectory }
      format := ((given.lookup .format).bind formatOfName?).getD .markdown
      reportFile := given.lookup .reportFile })

def readInit (arguments : List String) : Except Ending (Option String × Command) := do
  let given ← readAll .init arguments
  return (given.lookup .logLevel, .init ((given.lookup .operand).getD "."))

def readCommand? : String → Option (List String → Except Ending (Option String × Command))
  | "verify" => some readVerify
  | "init" => some readInit
  | "help" => some fun arguments => .error (readHelp arguments)
  | _ => none

/-- Read on from some arguments of the program. The log level given last and innermost
counts. -/
def readFrom (reading : Reading) : List String → Except Ending Invocation
  | [] => do
    let given := (← reading.settle).given
    refuse (if given.isEmpty then .nothingGiven else .missingCommand)
  | argument :: rest =>
    match readCommand? argument, reading.awaitsValue || reading.operandsOnly with
    | some readCommand, false => do
      let (inner, command) ← readCommand rest
      let outer := (← reading.settle).given.lookup .logLevel
      return ⟨(inner.or outer).getD "warn", command⟩
    | _, _ => do readFrom (← reading.read .program argument) rest

def read (arguments : List String) : Except Ending Invocation := readFrom {} arguments

end ModuleBoundary.CommandLine
