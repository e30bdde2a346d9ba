import EntitySchema.Configuration.Basic
import EntitySchema.Json.Basic
import EntitySchema.Text.Blank

/-!
# Reading a configuration

A configuration is read from JSON.  All issues are reported, in the order of the keys that are known:
those of a value before those of the next one, and the keys of an object that are not known at its end.
-/

namespace EntitySchema

/-- What is wrong with a value of a configuration. -/
inductive ConfigProblem where
  | required
  | wrongType (expected received : String)
  | emptyText
  | emptyList
  | unknownKeys (keys : List String)
  deriving DecidableEq, Repr

/-- What is wrong, and at which value. -/
structure ConfigIssue where
  path : List String
  problem : ConfigProblem
  deriving DecidableEq, Repr

namespace ConfigProblem

/-- The text of a problem. -/
def message : ConfigProblem → String
  | .required => "Required"
  | .wrongType expected received => "Expected " ++ expected ++ ", received " ++ received
  | .emptyText => "String must not be empty."
  | .emptyList => "Array must contain at least 1 element(s)"
  | .unknownKeys keys =>
    "Unrecognized key(s) in object: " ++ ", ".intercalate (keys.map fun k => "'" ++ k ++ "'")

end ConfigProblem

/-- The line of an issue. -/
def ConfigIssue.line (i : ConfigIssue) : String :=
  "  - " ++ (if i.path.isEmpty then "" else ".".intercalate i.path ++ ": ") ++ i.problem.message

namespace Configuration

/-! ### Values that are checked -/

/-- A value that is read, or none when it cannot be used, with the issues found in it. -/
structure Checked (α : Type) where
  value : Option α
  issues : List ConfigIssue

/-- The name of the type of a value. -/
def typeName : Json → String
  | .null => "null"
  | .bool _ => "boolean"
  | .num _ => "number"
  | .str _ => "string"
  | .arr _ => "array"
  | .obj _ => "object"

/-- A value that cannot be used. -/
def refused {α : Type} (path : List String) (problem : ConfigProblem) : Checked α :=
  ⟨none, [⟨path, problem⟩]⟩

/-- Refuses a value for its type. -/
def mistyped {α : Type} (path : List String) (expected : String) (value : Json) : Checked α :=
  refused path (.wrongType expected (typeName value))

/-- Reads a text that is not blank. -/
def readText (path : List String) : Json → Checked String
  | .str s => if (Text.trim s.toList).isEmpty then refused path .emptyText else ⟨some s, []⟩
  | value => mistyped path "string" value

/-- Reads the items of a list, numbered from `index`. -/
def readItems {α : Type} (read : List String → Json → Checked α) (path : List String) (index : Nat) :
    List Json → Checked (List α)
  | [] => ⟨some [], []⟩
  | x :: xs =>
    let first := read (path ++ [toString index]) x
    let rest := readItems read path (index + 1) xs
    ⟨first.value.bind fun v => rest.value.map (v :: ·), first.issues ++ rest.issues⟩

/-- Reads a list. -/
def readList {α : Type} (read : List String → Json → Checked α) (path : List String) :
    Json → Checked (List α)
  | .arr xs => readItems read path 0 xs
  | value => mistyped path "array" value

/-- Reads a list with at least one item. -/
def readSomeList {α : Type} (read : List String → Json → Checked α) (path : List String)
    (value : Json) : Checked (List α) :=
  match value with
  | .arr [] => refused path .emptyList
  | value => readList read path value

/-- Reads the value at a key that has to be there. -/
def atKey {α : Type} (read : List String → Json → Checked α) (path : List String) (value : Json)
    (key : String) : Checked α :=
  match value.get? key with
  | some v => read (path ++ [key]) v
  | none => refused (path ++ [key]) .required

/-- Reads the value at a key that may be left out. -/
def atOptionalKey {α : Type} (read : List String → Json → Checked α) (path : List String) (value : Json)
    (key : String) : Checked (Option α) :=
  match value.get? key with
  | some v =>
    let checked := read (path ++ [key]) v
    ⟨checked.value.map some, checked.issues⟩
  | none => ⟨some none, []⟩

/-- The issue of the keys of an object that are not known. -/
def unknownKeys (path : List String) (known : List String) (value : Json) : List ConfigIssue :=
  match (value.entries.map (·.1)).filter fun k => !known.contains k with
  | [] => []
  | keys => [⟨path, .unknownKeys keys⟩]

/-! ### Modules and configurations -/

/-- Reads the location of a module; its directory is seen from the given one. -/
def readModule (directory : List String) (path : List String) (value : Json) : Checked ModuleLocation :=
  match value with
  | .obj _ =>
    let name := atKey readText path value "name"
    let moduleAlias := atOptionalKey readText path value "alias"
    let place := atKey readText path value "directory"
    let patterns := atOptionalKey (readSomeList readText) path value "patterns"
    let location : Option ModuleLocation := do
      let place ← place.value
      return ⟨← name.value, ← moduleAlias.value, Path.text (Path.follow directory place),
        (← patterns.value).getD defaultPatterns⟩
    ⟨location, name.issues ++ moduleAlias.issues ++ place.issues ++ patterns.issues ++
      unknownKeys path ["name", "alias", "directory", "patterns"] value⟩
  | value => mistyped path "object" value

/-- Reads a configuration; directories are seen from that of its file. -/
def readValue (file : String) (value : Json) : Checked Configuration :=
  match value with
  | .obj _ =>
    let readModule := readModule (Path.parent file)
    let project := atKey readModule [] value "project"
    let dependencies := atOptionalKey (readList readModule) [] value "dependencies"
    let configuration : Option Configuration := do
      return ⟨← project.value, (← dependencies.value).getD [], some file⟩
    ⟨configuration, project.issues ++ dependencies.issues ++
      unknownKeys [] ["project", "dependencies"] value⟩
  | value => mistyped [] "object" value

/-- The configuration in a value, or all that is wrong with it. -/
def ofJson (file : String) (value : Json) : Except (List ConfigIssue) Configuration :=
  match readValue file value with
  | ⟨some configuration, []⟩ => .ok configuration
  | ⟨_, issues⟩ => .error issues

/-- The message about issues. -/
def issuesMessage (file : String) (issues : List ConfigIssue) : String :=
  "Invalid protoyard configuration in " ++ file ++ ":\n" ++ "\n".intercalate (issues.map ConfigIssue.line)

end Configuration

end EntitySchema
