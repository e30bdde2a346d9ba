import EntitySchema.Path

/-!
# Configurations

A configuration says which modules are compiled and where their documents lie: the project itself and
the modules it depends on.
-/

namespace EntitySchema

/-- Where the documents of a module lie. -/
structure ModuleLocation where
  name : String
  moduleAlias : Option String := none
  /-- The text of an absolute path. -/
  directory : String
  patterns : List String
  deriving DecidableEq, Repr

/-- The modules that are compiled, and the file that names them. -/
structure Configuration where
  project : ModuleLocation
  dependencies : List ModuleLocation := []
  file : Option String := none
  deriving DecidableEq, Repr

namespace Configuration

/-- The patterns of the documents of a module that names none. -/
def defaultPatterns : List String := ["**/*.spy.yaml"]

/-- The file that is looked for in the working directory. -/
def defaultFile : String := "protoyard.config.json"

/-- The configuration of a directory that is a project of its own and bears its name. -/
def ofDirectory (path : List String) : Configuration :=
  { project := { name := Path.lastName path, directory := Path.text path, patterns := defaultPatterns } }

/-- All modules of a configuration, the project first. -/
def modules (c : Configuration) : List ModuleLocation :=
  c.project :: c.dependencies

end Configuration

end EntitySchema
