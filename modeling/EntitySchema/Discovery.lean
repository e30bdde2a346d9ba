import EntitySchema.Compilation
import EntitySchema.Configuration.Basic
import EntitySchema.Glob.Search
import EntitySchema.Text.Collation

/-!
# Finding the documents of a module

The documents of a module are the files that its patterns bring in.  They are listed in the order of
their paths, and each knows its name, the directories between it and the directory of the module, and its
path as seen from the working directory.
-/

namespace EntitySchema

namespace Discovery

/-- The endings of the names of documents. -/
def endings : List String := [".spy.yaml", ".yaml"]

/-- The name of a document: that of its file without the first ending that fits. -/
def documentName (fileName : String) : String :=
  let cs := fileName.toList
  match endings.find? fun e => e.toList.isSuffixOf cs with
  | some e => String.ofList (cs.take (cs.length - e.toList.length))
  | none => fileName

/-- A file that was found: the text of its path, and its own text. -/
structure FoundFile where
  path : String
  content : String
  deriving DecidableEq, Repr

/-- The document in a file. -/
def documentOf (workingDirectory : List String) (location : ModuleLocation) (f : FoundFile) : DocumentInput :=
  let path := Path.ofText f.path
  let names := Path.relative (Path.ofText location.directory) path
  { yaml := f.content
    sourceFileName := Path.relativeText workingDirectory path
    fileName := documentName (names.getLast?.getD "")
    subDirectoryParts := names.dropLast
    moduleAlias := none }

/-- The module whose documents are in the files found for it. -/
def moduleOf (workingDirectory : List String) (location : ModuleLocation) (found : List FoundFile) :
    ModuleSource :=
  { name := location.name
    moduleAlias := location.moduleAlias
    documents := (Collation.sortBy FoundFile.path found).map (documentOf workingDirectory location) }

/-- The paths at or below which files may be found for a module. -/
def startsOf (location : ModuleLocation) : List (List String) :=
  Glob.starts (Path.ofText location.directory) (Glob.readSelection location.patterns)

/-- The files of a tree that are found for a module. -/
def filesOf (tree : FileTree) (location : ModuleLocation) : Except Glob.SearchFailure (List FoundFile) := do
  let paths ← Glob.search tree (Path.ofText location.directory) (Glob.readSelection location.patterns)
  return paths.map fun path => ⟨Path.text path, (tree.content? path).getD ""⟩

/-- A module with the documents that a tree has for it. -/
def discover (tree : FileTree) (workingDirectory : List String) (location : ModuleLocation) :
    Except Glob.SearchFailure ModuleSource := do
  return moduleOf workingDirectory location (← filesOf tree location)

end Discovery

end EntitySchema
