import EntitySchema.Diagnostic.Basic
import EntitySchema.Json.Basic

/-!
# Diagnostics as JSON
-/

namespace EntitySchema

/-- A place as JSON. -/
def Position.toJson (p : Position) : Json :=
  .obj [("line", .int p.line), ("column", .int p.column)]

/-- A span as JSON. -/
def Span.toJson (s : Span) : Json :=
  .obj [("start", s.start.toJson), ("end", s.stop.toJson)]

/-- Another place that a diagnostic refers to as JSON. -/
def Related.toJson (r : Related) : Json :=
  .obj ([("message", .str r.message)] ++ Json.optional "source" .str r.source ++
    Json.optional "pointer" .str r.pointer ++ Json.optional "span" Span.toJson r.span)

/-- A diagnostic as JSON. -/
def Diagnostic.toJson (d : Diagnostic) : Json :=
  .obj ([("level", .str d.level.name), ("message", .str d.message)] ++
    Json.optional "code" .str d.code ++ Json.optional "category" .str d.category ++
    Json.optional "source" .str d.source ++ Json.optional "pointer" .str d.pointer ++
    Json.optional "span" Span.toJson d.span ++
    Json.optional "related" (fun rs => .arr (rs.map Related.toJson)) d.related)

end EntitySchema
