import EntitySchema.CommandLine.Arguments
import EntitySchema.CommandLine.Failure
import EntitySchema.CommandLine.Help
import EntitySchema.Discovery
import EntitySchema.Number.OfText
import EntitySchema.Report

/-!
# Running a command

A command finds the configuration and the documents of all its modules, compiles them, and writes a
report.  It ends with status 0 if all is well and with 1 if anything is wrong.
-/

namespace EntitySchema

namespace CommandLine

/-! ### What is written -/

/-- A piece of what a program writes.  A log entry goes to the output as a line of JSON with the time at
which it is written. -/
inductive Written where
  | out (text : String)
  | err (text : String)
  | log (entry : LogEntry)
  deriving Repr

/-- How a program ends, and what it has written. -/
structure Outcome where
  status : Nat
  written : List Written
  deriving Repr

/-- What is written for a log entry: a line of JSON if that is asked for, else a line for people if there
are any at the terminal. -/
def logged (json isTerminal : Bool) (entry : LogEntry) : List Written :=
  if json then [.log entry]
  else if isTerminal then [.err (Log.prettyLine entry.toJson)]
  else []

/-! ### What is compiled -/

/-- The modules to be compiled, with their documents. -/
structure Environment where
  configuration : Configuration
  project : ModuleSource
  dependencies : List ModuleSource
  deriving Repr

/-- Collects the documents of the modules of a configuration. -/
def Environment.collect {ε : Type} (configuration : Configuration)
    (discover : ModuleLocation → Except ε ModuleSource) : Except ε Environment := do
  let project ← discover configuration.project
  let dependencies ← configuration.dependencies.mapM discover
  return { configuration, project, dependencies }

/-- The log entry about what is compiled. -/
def Environment.entry (e : Environment) : LogEntry :=
  let module (m : ModuleSource) : Json :=
    .obj [("name", .str m.name), ("documents", .nat m.documents.length)]
  let file :=
    match e.configuration.file with
    | some file => Json.str file
    | none => .null
  { level := .debug
    name := "cli"
    event := "cli.workspace"
    data := some (.obj [("configPath", file), ("modules", .arr ((e.project :: e.dependencies).map module))]) }

/-! ### Commands -/

/-- What a program sees: files, its working directory, and whether people read its messages. -/
structure Surroundings where
  files : FileTree
  directory : List String
  isTerminal : Bool := false

/-- Where the configuration is asked for. -/
def Settings.place (settings : Settings) : Configuration.Place :=
  { file := settings.file, directory := settings.directory }

/-- What a command finds to be compiled. -/
def findEnvironment (s : Surroundings) (settings : Settings) : Except CommandFailure Environment := do
  let configuration ← (Configuration.find s.files s.directory settings.place).mapError .ofConfig
  (Environment.collect configuration (Discovery.discover s.files s.directory)).mapError .ofSearch

/-- The line of a diagnostic. -/
def diagnosticLine (d : Diagnostic) : Written :=
  .err (d.line ++ "\n")

/-- The report of an action on a compilation. -/
def report (action : Action) (settings : Settings) (c : Compilation) : List Written :=
  match action with
  | .analyze => [.out (if settings.json then Report.text (Report.analyze c) else Report.human c)]
  | .inspect => .out (Report.text (Report.inspect c)) :: (Diagnostic.errors c.diagnostics).map diagnosticLine

/-- Runs an action on what was found. -/
def act (s : Surroundings) (action : Action) (settings : Settings) (e : Environment) : Outcome :=
  let c := compile e.project e.dependencies
  { status := if c.hasErrors then 1 else 0
    written := (e.entry :: c.log).flatMap (logged settings.jsonLogs s.isTerminal) ++ report action settings c }

/-- Does what arguments ask for. -/
def answer (program : Program) (s : Surroundings) : Request → Outcome
  | .version => ⟨0, [.out (program.version ++ "\n")]⟩
  | .programHelp isError => if isError then ⟨1, [.err program.help]⟩ else ⟨0, [.out program.help]⟩
  | .commandHelp c => ⟨0, [.out (c.help program)]⟩
  | .run action settings =>
    match findEnvironment s settings with
    | .ok e => act s action settings e
    | .error failure => ⟨1, [.err failure.line]⟩

/-- Runs the program with the given arguments. -/
def run (program : Program) (s : Surroundings) (arguments : List String) : Outcome :=
  match readArguments arguments with
  | .ok request => answer program s request
  | .error e => ⟨1, [.err (e.message ++ "\n"), .err "(add --help for usage information)\n"]⟩

/-! ### Around the program -/

/-- The message about an empty list of arguments. -/
def missingExecutable : String :=
  "Argument vector must include at least the node executable."

/-- The arguments in a whole vector, which starts with the executable and the program. -/
def argumentsOf? (vector : List String) : Option (List String) :=
  if vector.isEmpty then none else some (vector.drop 2)

/-- The status a program ends with: success gives way to another status that was set before. -/
def exitStatus (status : Number) (pending : Option Number) : Number :=
  match pending with
  | some p => if status.same Number.zero && !p.same Number.zero then p else status
  | none => status

end CommandLine

end EntitySchema
