import EntitySchema.CommandLine.Basic
import EntitySchema.CommandLine.Similar

/-!
# Reading the arguments

The arguments are read twice.  First the options of the program are taken out, wherever they stand; then
the options of the command are taken out of what is not known.  From the first argument on that looks like
an option and is none, all that is left is not known.  Two dashes end the options.
-/

namespace EntitySchema

namespace CommandLine

/-- What is wrong with the arguments. -/
inductive ArgumentError where
  | missingValue (option : OptionSpec)
  | unknownOption (argument : String) (known : List String)
  | unknownCommand (name : String)
  deriving DecidableEq, Repr

/-- The names of all commands, that for help included. -/
def commandNames : List String :=
  commands.map (·.name) ++ [helpCommand]

/-- The message about wrong arguments. -/
def ArgumentError.message : ArgumentError → String
  | .missingValue option => "error: option '" ++ option.form ++ "' argument missing"
  | .unknownOption argument known =>
    "error: unknown option '" ++ argument ++ "'" ++
      (if ['-', '-'].isPrefixOf argument.toList then Similar.hint argument known else "")
  | .unknownCommand name => "error: unknown command '" ++ name ++ "'" ++ Similar.hint name commandNames

/-! ### Taking options out -/

/-- What is read: the arguments that are no options, those that are not known, and the options with their
values; an option that takes none has an empty value. -/
structure Reading where
  operands : List String := []
  unknown : List String := []
  given : List (OptionSpec × String) := []
  deriving DecidableEq, Repr

namespace Reading

/-- Whether an option is given. -/
def has (r : Reading) (o : OptionSpec) : Bool :=
  r.given.any (·.1 == o)

/-- The value of an option that was given last. -/
def value? (r : Reading) (o : OptionSpec) : Option String :=
  (r.given.reverse.find? (·.1 == o)).map (·.2)

/-- Adds an argument that is no known option. -/
def add (r : Reading) (argument : String) : Reading :=
  if r.unknown.isEmpty then { r with operands := r.operands ++ [argument] }
  else { r with unknown := r.unknown ++ [argument] }

/-- Adds an argument that looks like an option and is not known. -/
def addUnknown (r : Reading) (argument : String) : Reading :=
  { r with unknown := r.unknown ++ [argument] }

/-- Adds an option. -/
def give (r : Reading) (o : OptionSpec) (value : String) : Reading :=
  { r with given := r.given ++ [(o, value)] }

end Reading

/-- Whether an argument looks like an option. -/
def looksLikeOption (argument : String) : Bool :=
  match argument.toList with
  | '-' :: _ :: _ => true
  | _ => false

/-- What letters behind one dash are: options that take no value, and then the end, an option that takes
the next argument, an option with its value, or an argument that is not known. -/
inductive Letters where
  | done (flags : List OptionSpec)
  | wantsValue (flags : List OptionSpec) (option : OptionSpec)
  | value (flags : List OptionSpec) (option : OptionSpec) (text : String)
  | unknown (flags : List OptionSpec) (argument : String)
  deriving DecidableEq, Repr

/-- Reads letters behind one dash, behind those of options that take no value. -/
def readLetters (options : List OptionSpec) (flags : List OptionSpec) : List Char → Letters
  | [] => .done flags
  | c :: cs =>
    match options.find? (·.letter == some c) with
    | none => .unknown flags (String.ofList ('-' :: c :: cs))
    | some o =>
      if o.value.isNone then readLetters options (flags ++ [o]) cs
      else if cs.isEmpty then .wantsValue flags o
      else .value flags o (String.ofList cs)

/-- What an argument is. -/
inductive Argument where
  | operand
  | letters (l : Letters)
  | flag (option : OptionSpec)
  | wantsValue (option : OptionSpec)
  | value (option : OptionSpec) (text : String)
  | unknown
  deriving DecidableEq, Repr

/-- The option and its value in an argument with a sign of equality. -/
def splitValue? (options : List OptionSpec) (argument : String) : Option (OptionSpec × String) :=
  match argument.toList.span (· != '=') with
  | (word, '=' :: text) =>
    (options.find? fun o => o.value.isSome && o.long == String.ofList word).map fun o =>
      (o, String.ofList text)
  | _ => none

/-- Tells what an argument is. -/
def classify (options : List OptionSpec) (argument : String) : Argument :=
  if !looksLikeOption argument then .operand
  else
    match options.find? (·.is argument) with
    | some o => if o.value.isSome then .wantsValue o else .flag o
    | none =>
      match splitValue? options argument with
      | some (o, text) => .value o text
      | none =>
        match argument.toList with
        | '-' :: '-' :: _ => .unknown
        | _ :: cs => .letters (readLetters options [] cs)
        | [] => .operand

/-- Adds options that take no value. -/
def Reading.giveAll (r : Reading) (flags : List OptionSpec) : Reading :=
  flags.foldl (fun r o => r.give o "") r

/-- Takes options out of arguments. -/
def takeOptions (options : List OptionSpec) (r : Reading) : List String → Except ArgumentError Reading
  | [] => .ok r
  | argument :: rest =>
    if argument == "--" then
      .ok (rest.foldl Reading.add (if r.unknown.isEmpty then r else r.add argument))
    else
      match classify options argument with
      | .operand => takeOptions options (r.add argument) rest
      | .unknown => takeOptions options (r.addUnknown argument) rest
      | .flag o => takeOptions options (r.give o "") rest
      | .value o text => takeOptions options (r.give o text) rest
      | .letters (.done flags) => takeOptions options (r.giveAll flags) rest
      | .letters (.value flags o text) => takeOptions options ((r.giveAll flags).give o text) rest
      | .letters (.unknown flags text) => takeOptions options ((r.giveAll flags).addUnknown text) rest
      | .wantsValue o =>
        match rest with
        | [] => .error (.missingValue o)
        | text :: rest => takeOptions options (r.give o text) rest
      | .letters (.wantsValue flags o) =>
        match rest with
        | [] => .error (.missingValue o)
        | text :: rest => takeOptions options ((r.giveAll flags).give o text) rest

/-! ### What is asked for -/

/-- How a command runs. -/
structure Settings where
  directory : Option String := none
  file : Option String := none
  json : Bool := false
  jsonLogs : Bool := false
  deriving DecidableEq, Repr

/-- What arguments ask for.  Help is shown as an error when no command is given. -/
inductive Request where
  | version
  | programHelp (isError : Bool)
  | commandHelp (command : Command)
  | run (action : Action) (settings : Settings)
  deriving DecidableEq, Repr

/-- A text that is not empty. -/
def nonEmpty? (text : Option String) : Option String :=
  text.filter (!·.isEmpty)

/-- Whether help is asked for. -/
def asksForHelp (arguments : List String) : Bool :=
  arguments.any helpOption.is

/-- Reads the arguments of a command: those that are no options of the program, and those that are not
known to the program. -/
def readCommand (c : Command) (jsonLogs : Bool) (operands unknown : List String) :
    Except ArgumentError Request := do
  let r ← takeOptions c.options {} unknown
  if asksForHelp r.unknown then return .commandHelp c
  match r.unknown with
  | argument :: _ => throw (.unknownOption argument ((listed (c.options ++ programOptions)).map (·.long)))
  | [] =>
    return .run c.action
      { directory := nonEmpty? (operands ++ r.operands).head?
        file := nonEmpty? (r.value? configOption)
        json := r.has jsonOption
        jsonLogs }

/-- Reads the name of the command that help is asked for. -/
def readHelp (name : Option String) : Request :=
  match nonEmpty? name with
  | none => .programHelp false
  | some name =>
    match command? name with
    | some c => .commandHelp c
    | none => .programHelp true

/-- Reads the arguments of the program. -/
def readArguments (arguments : List String) : Except ArgumentError Request := do
  let r ← takeOptions programOptions {} arguments
  if r.has versionOption then return .version
  match r.operands, r.unknown with
  | [], [] => return .programHelp true
  | [], argument :: _ =>
    if asksForHelp r.unknown then return .programHelp false
    else throw (.unknownOption argument ((listed programOptions).map (·.long)))
  | name :: operands, unknown =>
    match command? name with
    | some c => readCommand c (r.has jsonLogsOption) operands unknown
    | none =>
      if name == helpCommand then return readHelp operands.head?
      else if asksForHelp unknown then return .programHelp false
      else throw (.unknownCommand name)

end CommandLine

end EntitySchema
