import EntitySchema.Compilation
import EntitySchema.Diagnostic.Encoding
import EntitySchema.Table.Encoding
import EntitySchema.Table.OfModel

/-!
# Reports on a compilation

The report for people has one line for each diagnostic and a summary.  The reports for programs are
JSON: the summary with the diagnostics, or the definitions and tables of all modules.
-/

namespace EntitySchema

namespace Report

/-- A count of things, with the plural where it is not one. -/
def counted (n : Nat) (noun : String) : String :=
  toString n ++ " " ++ noun ++ (if n = 1 then "" else "s")

/-- What is counted in a summary. -/
structure Summary where
  modules : Nat
  models : Nat
  errorCount : Nat
  warningCount : Nat
  deriving DecidableEq, Repr

/-- The summary of a compilation. -/
def summaryOf (c : Compilation) : Summary :=
  { modules := c.modules.length
    models := (c.modules.flatMap (·.models)).length
    errorCount := (Diagnostic.errors c.diagnostics).length
    warningCount := (Diagnostic.warnings c.diagnostics).length }

/-- The line of a summary. -/
def Summary.line (s : Summary) : String :=
  "Analyzed " ++ counted s.models "model" ++ " in " ++ counted s.modules "module" ++ ": " ++
    counted s.errorCount "error" ++ ", " ++ counted s.warningCount "warning" ++ "."

/-- The report for people. -/
def human (c : Compilation) : String :=
  String.join ((c.diagnostics.map Diagnostic.line ++ [(summaryOf c).line]).map (· ++ "\n"))

/-- A summary as JSON. -/
def Summary.toJson (s : Summary) : Json :=
  .obj [("modules", .nat s.modules), ("models", .nat s.models), ("errorCount", .nat s.errorCount),
    ("warningCount", .nat s.warningCount)]

/-- The diagnostics as JSON. -/
def diagnosticsJson (c : Compilation) : Json :=
  .arr (c.diagnostics.map Diagnostic.toJson)

/-- The summary and the diagnostics as JSON. -/
def analyze (c : Compilation) : Json :=
  .obj [("summary", (summaryOf c).toJson), ("diagnostics", diagnosticsJson c)]

/-- The modules other than the one at a position. -/
def others (modules : List ProtocolDef) (position : Nat) : List ProtocolDef :=
  modules.eraseIdx position

/-- The tables of every module. -/
def tables (modules : List ProtocolDef) : List (List Table) :=
  modules.mapIdx fun i p => p.tables (others modules i)

/-- The definitions and tables of a module as JSON. -/
def moduleJson (p : ProtocolDef) (tables : List Table) : Json :=
  .obj (p.toJson.entries ++ [("tables", .arr (tables.map Table.toJson))])

/-- The definitions and tables of all modules as JSON. -/
def inspect (c : Compilation) : Json :=
  let parts := List.zipWith moduleJson c.modules (tables c.modules)
  .obj [("project", parts.headD .null), ("dependencies", .arr parts.tail), ("diagnostics", diagnosticsJson c)]

/-- The text of a report for programs: sorted keys and two blanks a level. -/
def text (report : Json) : String :=
  report.pretty ++ "\n"

end Report

end EntitySchema
