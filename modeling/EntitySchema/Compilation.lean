import EntitySchema.Entity.Definition
import EntitySchema.Entity.OfDocument
import EntitySchema.Log
import EntitySchema.Resolution.Indexes
import EntitySchema.Resolution.Relations
import EntitySchema.Resolution.Types
import EntitySchema.Resolution.Uniqueness

/-!
# Compiling modules

The documents of a project and of the modules it depends on are read in the order of their file names,
so neither the definitions nor the diagnostics depend on the order in which documents are given.  Then
names, types, relations and indexes are resolved over all entities, and every module gets its
definitions.
-/

namespace EntitySchema

/-- The documents of a module.  A module without an alias is known by its name. -/
structure ModuleSource where
  name : String
  moduleAlias : Option String := none
  documents : List DocumentInput
  deriving Repr

/-- The name under which other modules know a module. -/
def ModuleSource.knownAs (m : ModuleSource) : String :=
  m.moduleAlias.getD m.name

/-- The result of compiling modules. -/
structure Compilation where
  project : ProtocolDef
  dependencies : List ProtocolDef
  diagnostics : List Diagnostic
  hasErrors : Bool
  log : List LogEntry

namespace Compilation

/-! ### Reading the documents -/

/-- The diagnostic of a module whose alias is taken. -/
def takenAlias (moduleAlias : String) : Diagnostic :=
  { level := .error
    message := "The module alias \"" ++ moduleAlias ++ "\" is used by more than one module."
    code := some Code.duplicateModule.name
    category := some Category.module.name }

/-- Whether the file name of one document comes before that of another or is the same. -/
def fileNameLE (a b : DocumentInput) : Bool :=
  Text.le a.sourceFileName b.sourceFileName

/-- The documents of a module in the order of their file names. -/
def orderedDocuments (m : ModuleSource) : List DocumentInput :=
  m.documents.mergeSort fileNameLE

/-- What documents declare, in their order. -/
def readDocuments (moduleAlias : String) : List DocumentInput → List Entity × List Diagnostic
  | [] => ([], [])
  | d :: ds =>
    let (entity, diagnostics) := Entity.ofDocument { d with moduleAlias := some moduleAlias }
    let (entities, more) := readDocuments moduleAlias ds
    (entity.toList ++ entities, diagnostics ++ more)

/-- The modules that take part, with their names and aliases. -/
structure ModuleIdentity where
  name : String
  moduleAlias : String
  deriving DecidableEq, Repr

/-- What all modules declare.  A module whose alias is taken is left out. -/
structure Reading where
  modules : List ModuleIdentity
  entities : List Entity
  diagnostics : List Diagnostic

/-- Reads modules behind those whose aliases are taken. -/
def readModules (taken : List String) : List ModuleSource → Reading
  | [] => ⟨[], [], []⟩
  | m :: ms =>
    let moduleAlias := m.knownAs
    if taken.contains moduleAlias then
      let rest := readModules taken ms
      { rest with diagnostics := takenAlias moduleAlias :: rest.diagnostics }
    else
      let (entities, diagnostics) := readDocuments moduleAlias (orderedDocuments m)
      let rest := readModules (taken ++ [moduleAlias]) ms
      { modules := ⟨m.name, moduleAlias⟩ :: rest.modules
        entities := entities ++ rest.entities
        diagnostics := diagnostics ++ rest.diagnostics }

/-! ### The passes -/

/-- The entities after every pass, and the diagnostics that the pass adds. -/
structure Passes where
  unique : List Diagnostic
  types : List Entity × List Diagnostic
  relations : List Entity × List Diagnostic
  indexes : List Entity × List Diagnostic

/-- Runs the passes over the entities of the modules with the given aliases. -/
def runPasses (aliases : List String) (entities : List Entity) : Passes :=
  let types := TypeResolution.resolve ⟨entities, aliases⟩
  let relations := RelationResolution.resolve ⟨types.1, aliases⟩
  ⟨Uniqueness.check entities, types, relations, IndexCheck.resolve relations.1⟩

/-- The definitions of a module. -/
def definitionsOf (entities : List Entity) (m : ModuleIdentity) : ProtocolDef :=
  { moduleName := m.name
    moduleAlias := m.moduleAlias
    models := (entities.filter (·.moduleAlias == m.moduleAlias)).map Entity.toDefinition }

/-! ### The log -/

/-- The name under which the compiler logs. -/
def loggerName : String := "compiler"

/-- The number of errors as JSON. -/
def errorCount (ds : List Diagnostic) : Json := .nat (Diagnostic.errors ds).length

/-- The entry of a stage.  Pure code takes no time that could be measured. -/
def stageEntry (stage : String) (ds : List Diagnostic) : LogEntry :=
  { level := .debug
    name := loggerName
    event := "compiler.stage"
    elapsedMs := some Number.zero
    data := some (.obj [("stage", .str stage), ("errorCount", errorCount ds)]) }

/-- The entry at the end. -/
def completeEntry (modules : List ProtocolDef) (ds : List Diagnostic) : LogEntry :=
  { level := if Diagnostic.hasErrors ds then .warn else .info
    name := loggerName
    event := "compiler.complete"
    elapsedMs := some Number.zero
    data := some (.obj
      [("modules", .nat modules.length), ("models", .nat (modules.flatMap (·.models)).length),
        ("errorCount", errorCount ds), ("warningCount", .nat (Diagnostic.warnings ds).length)]) }

/-! ### Compiling -/

/-- All modules of a compilation. -/
def modules (c : Compilation) : List ProtocolDef :=
  c.project :: c.dependencies

end Compilation

open Compilation in
/-- Compiles a project and the modules it depends on.  The diagnostics stand behind those that are
given. -/
def compile (project : ModuleSource) (dependencies : List ModuleSource) (given : List Diagnostic := []) :
    Compilation :=
  let reading := readModules [] (project :: dependencies)
  let passes := runPasses (reading.modules.map (·.moduleAlias)) reading.entities
  let analyzed := given ++ reading.diagnostics ++ passes.unique
  let typed := analyzed ++ passes.types.2
  let related := typed ++ passes.relations.2
  let indexed := related ++ passes.indexes.2
  let protocols := reading.modules.map (definitionsOf passes.indexes.1)
  let (first, rest) :=
    match protocols with
    | p :: ps => (p, ps)
    | [] => (⟨project.name, project.name, []⟩, [])
  { project := first
    dependencies := rest
    diagnostics := indexed
    hasErrors := Diagnostic.hasErrors indexed
    log :=
      [stageEntry "analyze" analyzed, stageEntry "resolve-types" typed,
        stageEntry "resolve-relations" related, stageEntry "validate-indexes" indexed,
        stageEntry "assemble" indexed, completeEntry protocols indexed] }

end EntitySchema
