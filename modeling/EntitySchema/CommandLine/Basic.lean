import EntitySchema.Text.Collation

/-!
# Commands

The command line has two commands, each with a directory it may be given and with options.  Options of
the program itself may stand anywhere.
-/

namespace EntitySchema

namespace CommandLine

/-- An option: its letter, its word, and the name of its value if it takes one. -/
structure OptionSpec where
  letter : Option Char := none
  word : String
  value : Option String := none
  description : String
  byDefault : Option String := none
  deriving DecidableEq, Repr

namespace OptionSpec

/-- The option as it is given by its word. -/
def long (o : OptionSpec) : String :=
  "--" ++ o.word

/-- The option as it is given by its letter. -/
def short? (o : OptionSpec) : Option String :=
  o.letter.map fun c => String.ofList ['-', c]

/-- All forms of the option and its value. -/
def form (o : OptionSpec) : String :=
  (match o.short? with
    | some s => s ++ ", "
    | none => "") ++
    o.long ++
    (match o.value with
      | some v => " <" ++ v ++ ">"
      | none => "")

/-- Whether an argument is the option. -/
def is (o : OptionSpec) (argument : String) : Bool :=
  o.long == argument || o.short? == some argument

/-- By what the option is listed: its letter, or else its word. -/
def listedBy (o : OptionSpec) : String :=
  match o.letter with
  | some c => String.singleton c
  | none => o.word

/-- What the option does, and what holds if it is not given. -/
def explanation (o : OptionSpec) : String :=
  match o.byDefault with
  | some d => o.description ++ " (default: " ++ d ++ ")"
  | none => o.description

end OptionSpec

/-- Asks for help. -/
def helpOption : OptionSpec :=
  { letter := some 'h', word := "help", description := "display help for command" }

/-- Asks for the version of the program. -/
def versionOption : OptionSpec :=
  { letter := some 'V', word := "version", description := "output the version number" }

/-- Asks for a log in JSON. -/
def jsonLogsOption : OptionSpec :=
  { word := "json-logs", description := "Emit machine-readable JSON logs.", byDefault := some "false" }

/-- Names the configuration file. -/
def configOption : OptionSpec :=
  { letter := some 'c', word := "config", value := some "path"
    description := "Path to a protoyard configuration file" }

/-- Asks for a report in JSON. -/
def jsonOption : OptionSpec :=
  { word := "json", description := "Emit a JSON report instead of human-readable output."
    byDefault := some "false" }

/-- The options of the program, apart from that for help. -/
def programOptions : List OptionSpec := [versionOption, jsonLogsOption]

/-- What a command does: report on the documents, or show what they define. -/
inductive Action where
  | analyze | inspect
  deriving DecidableEq, Repr

/-- A command. -/
structure Command where
  action : Action
  name : String
  summary : String
  description : String
  /-- The options of the command, apart from that for help. -/
  options : List OptionSpec
  deriving DecidableEq, Repr

/-- Reports on the documents. -/
def analyzeCommand : Command :=
  { action := .analyze
    name := "analyze"
    summary := "Validate model documents and report diagnostics."
    description := "Compile the model documents of a project and its dependency modules."
    options := [configOption, jsonOption] }

/-- Shows what the documents define. -/
def inspectCommand : Command :=
  { action := .inspect
    name := "inspect"
    summary := "Print the compiled definitions as JSON."
    description := "Compile the model documents and print the model definitions and table definitions."
    options := [configOption] }

/-- All commands. -/
def commands : List Command := [analyzeCommand, inspectCommand]

/-- The command of a name. -/
def command? (name : String) : Option Command :=
  commands.find? (·.name == name)

/-- The name of the command that shows help. -/
def helpCommand : String := "help"

/-- What is told about the program. -/
structure Program where
  name : String
  version : String
  description : String
  deriving DecidableEq, Repr

/-- Options with that for help, in the order in which they are listed. -/
def listed (options : List OptionSpec) : List OptionSpec :=
  Collation.sortBy OptionSpec.listedBy (helpOption :: options)

end CommandLine

end EntitySchema
