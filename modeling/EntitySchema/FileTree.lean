import EntitySchema.Path

/-!
# File trees

The files a program can see, by their absolute paths.  A directory is there when a file lies below it.
-/

namespace EntitySchema

/-- A file with its path and its text. -/
structure File where
  path : List String
  content : String
  deriving DecidableEq, Repr

/-- Files.  Of several files at one path the last one counts. -/
structure FileTree where
  files : List File
  deriving Repr

/-- What is at a path. -/
inductive Entry where
  | file (content : String)
  | directory
  | missing
  /-- One of the names before the last is that of a file. -/
  | throughFile
  deriving DecidableEq, Repr

namespace FileTree

/-- The text of the file at a path. -/
def content? (t : FileTree) (path : List String) : Option String :=
  (t.files.reverse.find? fun f => f.path == path).map (·.content)

/-- Whether a file is at a path. -/
def isFile (t : FileTree) (path : List String) : Bool :=
  (t.content? path).isSome

/-- Whether a path goes through a file. -/
def goesThroughFile (t : FileTree) (path : List String) : Bool :=
  t.files.any fun f => f.path.isPrefixOf path && f.path != path

/-- Whether files lie below a path. -/
def isDirectory (t : FileTree) (path : List String) : Bool :=
  t.files.any fun f => path.isPrefixOf f.path && f.path != path

/-- What is at a path. -/
def entry (t : FileTree) (path : List String) : Entry :=
  match t.content? path with
  | some content => .file content
  | none =>
    if t.isDirectory path then .directory
    else if t.goesThroughFile path then .throughFile
    else .missing

/-- The paths of the files below a directory, as seen from it. -/
def below (t : FileTree) (path : List String) : List (List String) :=
  (t.files.filterMap fun f =>
    if path.isPrefixOf f.path then some (f.path.drop path.length) else none).filter (!·.isEmpty)

end FileTree

end EntitySchema
