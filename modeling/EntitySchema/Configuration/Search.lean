import EntitySchema.Configuration.Reading
import EntitySchema.FileTree
import EntitySchema.Json.Reader
import EntitySchema.Yaml.Document

/-!
# Finding the configuration

A configuration file that is asked for has to be there.  Otherwise a directory that is asked for is the
project, then the file in the working directory counts, and if there is none the working directory itself
is the project.  A file whose text is blank or whose value is null says nothing.
-/

namespace EntitySchema

/-- Why there is no configuration. -/
inductive ConfigFailure where
  | notFound (path : List String)
  | isDirectory
  | throughFile (path : List String)
  | unknownFormat (extension : String)
  | malformed (format : String) (path : List String)
  | invalid (file : String) (issues : List ConfigIssue)
  deriving DecidableEq, Repr

/-- The message of a failure. -/
def ConfigFailure.message : ConfigFailure → String
  | .notFound path => "Configuration file not found at " ++ Path.text path
  | .isDirectory => "EISDIR: illegal operation on a directory, read"
  | .throughFile path => "ENOTDIR: not a directory, open '" ++ Path.text path ++ "'"
  | .unknownFormat extension => "No loader specified for extension \"" ++ extension ++ "\""
  | .malformed format path => format ++ " Error in " ++ Path.text path ++ ":\nThe text is not well-formed."
  | .invalid file issues => Configuration.issuesMessage file issues

namespace Configuration

/-! ### Values of files -/

mutual

/-- The value of a YAML node. -/
def yamlValue : Yaml.Node → Json
  | .scalar .null _ _ => .null
  | .scalar (.bool b) _ _ => .bool b
  | .scalar (.number x) _ _ => .num x
  | .scalar (.text s) _ _ => .str s
  | .alias _ => .null
  | .map entries _ => .ofEntries (yamlEntries entries)
  | .sequence items _ => .arr (yamlItems items)

/-- The entries of a YAML map whose keys are scalars. -/
def yamlEntries : List (Yaml.Node × Option Yaml.Node) → List (String × Json)
  | [] => []
  | (key, value) :: rest =>
    let v :=
      match value with
      | some n => yamlValue n
      | none => .null
    match key with
    | .scalar k _ _ => (k.toText, v) :: yamlEntries rest
    | _ => yamlEntries rest

/-- The items of a YAML sequence. -/
def yamlItems : List Yaml.Node → List Json
  | [] => []
  | n :: rest => yamlValue n :: yamlItems rest

end

/-- The value in a YAML text. -/
def readYaml? (text : String) : Option Json :=
  let document := Yaml.read text.toList
  if document.errors.isEmpty then some ((document.content.map yamlValue).getD .null) else none

/-- The extension of a file name: its end from the last dot on, unless that is its first character. -/
def extension (name : String) : String :=
  match name.toList.reverse.span (· != '.') with
  | (behind, '.' :: _ :: _) => String.ofList ('.' :: behind.reverse)
  | _ => ""

/-- The value that a text at a path holds; `null` when it says nothing. -/
def valueOf (path : List String) (text : String) : Except ConfigFailure Json :=
  let read (format : String) (value : Option Json) : Except ConfigFailure Json :=
    match value with
    | some v => .ok v
    | none => .error (.malformed format path)
  if (Text.trim text.toList).isEmpty then .ok .null
  else
    match extension (Path.lastName path) with
    | ".json" => read "JSON" (Json.read? text)
    | ".yaml" | ".yml" | "" => read "YAML" (readYaml? text)
    | other => .error (.unknownFormat other)

/-! ### Files -/

/-- The configuration in a value of a file. -/
def ofValue (path : List String) (value : Json) : Except ConfigFailure Configuration :=
  let file := Path.text path
  match ofJson file value with
  | .ok configuration => .ok configuration
  | .error issues => .error (.invalid file issues)

/-- The configuration in the file at a path. -/
def load (tree : FileTree) (path : List String) : Except ConfigFailure Configuration :=
  match tree.entry path with
  | .missing => .error (.notFound path)
  | .directory => .error .isDirectory
  | .throughFile => .error (.throughFile path)
  | .file text => do
    match ← valueOf path text with
    | .null => .error (.notFound path)
    | value => ofValue path value

/-- The configuration in the working directory, if there is one. -/
def search (tree : FileTree) (directory : List String) : Except ConfigFailure (Option Configuration) := do
  let path := directory ++ [defaultFile]
  match tree.content? path with
  | none => return none
  | some text =>
    match ← valueOf path text with
    | .null => return none
    | value => return some (← ofValue path value)

/-- Where the configuration is asked for: in a file, in a directory, or nowhere. -/
structure Place where
  file : Option String := none
  directory : Option String := none
  deriving DecidableEq, Repr

/-- The file that is read first for a place. -/
def candidate? (directory : List String) (place : Place) : Option (List String) :=
  match place.file, place.directory with
  | some file, _ => some (Path.follow directory file)
  | none, some _ => none
  | none, none => some (directory ++ [defaultFile])

/-- The configuration for a place, seen from the working directory. -/
def find (tree : FileTree) (directory : List String) (place : Place) : Except ConfigFailure Configuration :=
  match place.file, place.directory with
  | some file, _ => load tree (Path.follow directory file)
  | none, some project => .ok (ofDirectory (Path.follow directory project))
  | none, none => do
    match ← search tree directory with
    | some configuration => return configuration
    | none => return ofDirectory directory

end Configuration

end EntitySchema
