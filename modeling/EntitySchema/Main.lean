import EntitySchema.Calendar
import EntitySchema.CommandLine.Run
import Std.Time

/-!
# The program

The outer layer: it gathers the files that a command may need, lets the command run on them, and writes
what the command has written.
-/

namespace EntitySchema

namespace Main

/-- What is told about the program. -/
def program : CommandLine.Program :=
  { name := "protoyard"
    version := "0.1.0"
    description := "Command line interface for analysing and inspecting protoyard model documents." }

/-- The text of the file at a path, if there is a readable one. -/
def readFile? (path : List String) : IO (Option File) := do
  try
    return some ⟨path, ← IO.FS.readFile (Path.text path)⟩
  catch _ => return none

/-- The paths of the files below a directory, or of the file itself.  Links are not followed. -/
partial def pathsBelow (path : List String) : IO (List (List String)) := do
  try
    let place ← IO.FS.realPath (Path.text path)
    match (← place.symlinkMetadata).type with
    | .file => return [path]
    | .dir =>
      let mut all := []
      for entry in ← place.readDir do
        if (← entry.path.symlinkMetadata).type != .symlink then
          all := all ++ (← pathsBelow (path ++ [entry.fileName]))
      return all
    | _ => return []
  catch _ => return []

/-- The files that a configuration may need: those that its patterns bring in with their text, and the
other ones below the directories searched without it. -/
def filesFor (configuration : Configuration) : IO (List File) := do
  let mut all : List File := []
  for location in configuration.modules do
    for start in Discovery.startsOf location do
      all := all ++ (← pathsBelow start).map fun path => ⟨path, ""⟩
  let mut loaded : List File := []
  for location in configuration.modules do
    match Discovery.filesOf ⟨all⟩ location with
    | .ok found => loaded := loaded ++ (← found.filterMapM fun f => readFile? (Path.ofText f.path))
    | .error _ => pure ()
  return all ++ loaded

/-- The files that a request may need. -/
def filesOfRequest (directory : List String) (request : CommandLine.Request) : IO FileTree := do
  match request with
  | .run _ settings =>
    let place := settings.place
    let near ←
      match Configuration.candidate? directory place with
      | some path => do
        match ← readFile? path with
        | some file => pure [file]
        | none => pure ((← pathsBelow path).map fun path => ⟨path, ""⟩)
      | none => pure []
    match Configuration.find ⟨near⟩ directory place with
    | .ok configuration => return ⟨near ++ (← filesFor configuration)⟩
    | .error _ => return ⟨near⟩
  | _ => return ⟨[]⟩

/-- Writes what a command has written. -/
def write (written : CommandLine.Written) : IO Unit := do
  match written with
  | .out text => (← IO.getStdout).putStr text
  | .err text => (← IO.getStderr).putStr text
  | .log entry => do
    let now ← Std.Time.Timestamp.now
    let line := Log.jsonLine (Calendar.text now.toMillisecondsSinceUnixEpoch.val) entry.toJson
    (← IO.getStdout).putStr line

end Main

end EntitySchema

open EntitySchema in
/-- Runs the program. -/
def main (arguments : List String) : IO UInt32 := do
  let directory := Path.ofText (← IO.currentDir).toString
  let files ←
    match CommandLine.readArguments arguments with
    | .ok request => Main.filesOfRequest directory request
    | .error _ => pure ⟨[]⟩
  let isTerminal ← (← IO.getStderr).isTty
  let outcome := CommandLine.run Main.program ⟨files, directory, isTerminal⟩ arguments
  outcome.written.forM Main.write
  return outcome.status.toUInt32
