import EntitySchema.Json.Writer

/-!
# Log entries

What a program does is logged as entries with a level, a name and an event, written one a line: as JSON
with the time, or as short text for people.
-/

namespace EntitySchema

/-- How important a log entry is. -/
inductive LogLevel where
  | debug | info | warn | error
  deriving DecidableEq, Repr, Inhabited

/-- The name of a level. -/
def LogLevel.name : LogLevel → String
  | .debug => "debug"
  | .info => "info"
  | .warn => "warn"
  | .error => "error"

/-- An entry of the log. -/
structure LogEntry where
  level : LogLevel
  name : String
  event : String
  elapsedMs : Option Number := none
  data : Option Json := none
  deriving Repr, Inhabited

/-- An entry as JSON. -/
def LogEntry.toJson (e : LogEntry) : Json :=
  .obj ([("level", .str e.level.name), ("name", .str e.name), ("event", .str e.event)] ++
    Json.optional "elapsedMs" .num e.elapsedMs ++
    Json.optional "data" id e.data)

namespace Log

/-- The line of an entry as JSON; the time is the last of its values. -/
def jsonLine (timestamp : String) (entry : Json) : String :=
  (Json.obj (Json.put entry.entries "timestamp" (.str timestamp))).compact ++ "\n"

/-- The text of a duration in milliseconds. -/
def durationText (x : Number) : String :=
  x.oneDecimal ++ "ms"

/-- The line of an entry for people: level, event, elapsed time and data. -/
def prettyLine (entry : Json) : String :=
  let text (key : String) : String := ((entry.get? key).bind Json.str?).getD ""
  let elapsed :=
    match (entry.get? "elapsedMs").bind Json.num? with
    | some x => " (" ++ durationText x ++ ")"
    | none => ""
  let data :=
    match entry.get? "data" with
    | none | some .null => ""
    | some d => " " ++ d.compact
  "[" ++ text "level" ++ "] " ++ text "event" ++ elapsed ++ data ++ "\n"

end Log

end EntitySchema
