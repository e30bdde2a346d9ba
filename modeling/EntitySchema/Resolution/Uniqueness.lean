import EntitySchema.Entity.Lookup

/-!
# Names that are declared twice

Within a module a class is declared once; in the whole compilation a table and an index are.  The first
declaration keeps the name, every later one is reported.
-/

namespace EntitySchema

namespace Uniqueness

/-- The first entry for a key. -/
def owner? (names : List (String × Entity)) (key : String) : Option Entity :=
  (names.find? (·.1 == key)).map (·.2)

/-- The names that have been declared so far, each with the entity that declares it. -/
structure Names where
  classes : List (String × Entity) := []
  tables : List (String × Entity) := []
  indexes : List (String × Entity) := []

/-- The issue of a class name that is taken. -/
def takenClass (e first : Entity) : Issue :=
  { message := "The class name \"" ++ e.className ++ "\" is already declared in \"" ++
      first.header.sourceFileName ++ "\"."
    code := .duplicateClass, category := .module
    span := some e.nameSpan, pointer := some (pointer [e.kind.name]) }

/-- The issue of a table name that is taken. -/
def takenTable (table : Spanned String) (first : Entity) : Issue :=
  { message := "The table name \"" ++ table.value ++ "\" is already used by \"" ++ first.className ++ "\"."
    code := .duplicateTable, category := .module
    span := some table.span, pointer := some (pointer ["table"]) }

/-- The issue of an index name that is taken. -/
def takenIndex (index : IndexDraft) (first : Entity) : Issue :=
  { message := "The index name \"" ++ index.name ++ "\" is already used by \"" ++ first.className ++ "\"."
    code := .duplicateIndex, category := .module
    span := some index.nameSpan, pointer := some index.pointer }

/-- Declares a name, or reports that it is taken. -/
def declare (names : List (String × Entity)) (key : String) (e : Entity) (taken : Entity → Issue) :
    List (String × Entity) × List Issue :=
  match owner? names key with
  | some first => (names, [taken first])
  | none => (names ++ [(key, e)], [])

/-- Declares the names of indexes. -/
def declareIndexes (names : List (String × Entity)) (e : Entity) :
    List IndexDraft → List (String × Entity) × List Issue
  | [] => (names, [])
  | i :: is =>
    let (names, issues) := declare names i.name e (takenIndex i)
    let (names, more) := declareIndexes names e is
    (names, issues ++ more)

/-- Declares the table of a class. -/
def declareTable (names : List (String × Entity)) (e : Entity) :
    Option (Spanned String) → List (String × Entity) × List Issue
  | none => (names, [])
  | some table => declare names table.value e (takenTable table)

/-- Declares all names of an entity. -/
def declareEntity (names : Names) (e : Entity) : Names × List Issue :=
  let (classes, classIssues) := declare names.classes e.key e (takenClass e)
  match e.class? with
  | none => ({ names with classes }, classIssues)
  | some c =>
    let (tables, tableIssues) := declareTable names.tables e c.table
    let (indexes, indexIssues) := declareIndexes names.indexes e c.indexes
    (⟨classes, tables, indexes⟩, classIssues ++ tableIssues ++ indexIssues)

/-- The diagnostics of entities behind the names that have been declared. -/
def checkFrom (names : Names) : List Entity → List Diagnostic
  | [] => []
  | e :: es =>
    let (names, issues) := declareEntity names e
    issues.map e.diagnostic ++ checkFrom names es

/-- The diagnostics of all names that are declared again. -/
def check (entities : List Entity) : List Diagnostic :=
  checkFrom {} entities

end Uniqueness

end EntitySchema
