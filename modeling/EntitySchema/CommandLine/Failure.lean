import EntitySchema.Configuration.Search
import EntitySchema.Glob.Search
import EntitySchema.Json.Literal

/-!
# Failures of commands

What is printed when a command cannot do its work.  Misuse is explained by its message alone; any other
error has the name of its kind in front, or the trace that comes with it; and any other value stands for
itself.
-/

namespace EntitySchema

namespace CommandLine

/-- Why a command fails. -/
inductive CommandFailure where
  | usage (message : String)
  | error (kind message : String) (trace : Option String)
  | value (v : Json)
  deriving Repr

namespace CommandFailure

/-- The text of a failure. -/
def text : CommandFailure → String
  | .usage message => message
  | .error kind message trace => trace.getD (kind ++ ": " ++ message)
  | .value v => v.literal

/-- The text of a failure with a line end. -/
def line (f : CommandFailure) : String :=
  if f.text.toList.getLast? == some '\n' then f.text else f.text ++ "\n"

/-- An error of no special kind. -/
def plain (message : String) : CommandFailure :=
  .error "Error" message none

/-- A configuration that breaks the rules is misuse. -/
def ofConfig : ConfigFailure → CommandFailure
  | .invalid file issues => .usage (ConfigFailure.message (.invalid file issues))
  | f => plain f.message

/-- A search that fails. -/
def ofSearch (f : Glob.SearchFailure) : CommandFailure :=
  plain f.message

end CommandFailure

end CommandLine

end EntitySchema
