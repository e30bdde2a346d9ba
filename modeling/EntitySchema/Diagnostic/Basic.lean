/-!
# Diagnostics

A diagnostic is a message of a level, with what is known about its cause: a code, a category, the
document, a pointer into it, and the part of the text.
-/

namespace EntitySchema

/-- How serious a diagnostic is. -/
inductive Level where
  | info | warn | error
  deriving DecidableEq, Repr, Inhabited

/-- The name of a level. -/
def Level.name : Level → String
  | .info => "info"
  | .warn => "warn"
  | .error => "error"

/-- The word for a level in front of a message. -/
def Level.label : Level → String
  | .info => "info"
  | .warn => "warning"
  | .error => "error"

/-- A place in a text; lines and columns count from zero. -/
structure Position where
  line : Int
  column : Int
  deriving DecidableEq, Repr, Inhabited

/-- A part of a text. -/
structure Span where
  start : Position
  stop : Position
  deriving DecidableEq, Repr, Inhabited

/-- The span between two lines and columns. -/
def Span.between (startLine startColumn stopLine stopColumn : Int) : Span :=
  ⟨⟨startLine, startColumn⟩, ⟨stopLine, stopColumn⟩⟩

/-- Another place that a diagnostic refers to. -/
structure Related where
  message : String
  source : Option String := none
  pointer : Option String := none
  span : Option Span := none
  deriving DecidableEq, Repr

/-- A diagnostic. -/
structure Diagnostic where
  level : Level
  message : String
  code : Option String := none
  category : Option String := none
  source : Option String := none
  pointer : Option String := none
  span : Option Span := none
  related : Option (List Related) := none
  deriving DecidableEq, Repr

namespace Diagnostic

/-- Whether a diagnostic is an error. -/
def isError (d : Diagnostic) : Bool := d.level == .error

/-- The errors among the diagnostics. -/
def errors (ds : List Diagnostic) : List Diagnostic := ds.filter isError

/-- The warnings among the diagnostics. -/
def warnings (ds : List Diagnostic) : List Diagnostic := ds.filter (·.level == .warn)

/-- Whether one of the diagnostics is an error. -/
def hasErrors (ds : List Diagnostic) : Bool := ds.any isError

/-- Where a diagnostic belongs: its document and the place in it.  Lines and columns count from one
here. -/
def location (d : Diagnostic) : Option String :=
  match d.source with
  | none => none
  | some source =>
    if source.isEmpty then none
    else
      match d.span with
      | some span =>
        some (source ++ ":" ++ toString (span.start.line + 1) ++ ":" ++ toString (span.start.column + 1))
      | none => some source

/-- The diagnostic as one line of a report. -/
def line (d : Diagnostic) : String :=
  let place :=
    match d.location with
    | some place => place ++ " "
    | none => ""
  place ++ d.level.label ++ " " ++ d.message

end Diagnostic

end EntitySchema
