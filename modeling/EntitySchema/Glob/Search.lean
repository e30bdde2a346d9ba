import EntitySchema.FileTree
import EntitySchema.Glob.Reader

/-!
# Looking for files

Patterns that spell out a path are looked up.  For the other ones the files below a directory are gone
through: below the directory searched, or, if no pattern needs that, below the names that a pattern
starts with.  A pattern that takes a directory away by its name takes away all that lies below it.
-/

namespace EntitySchema

namespace Glob

/-- Why a search fails: a path that has to be a directory is a file, or goes through one.  The action is
the one that fails. -/
structure SearchFailure where
  action : String
  path : List String
  deriving DecidableEq, Repr

/-- Whether a pattern leads out of the directory searched. -/
def Pattern.leadsOut (p : Pattern) : Bool :=
  p.isAbsolute || p.segments.head? == some (.name [.char '.', .char '.'])

/-- Whether a pattern spells out a whole path. -/
def Pattern.isLiteral (p : Pattern) : Bool :=
  Glob.isLiteral p.segments

/-- A path as patterns see it: the names it is reached by, from the root or from the directory searched. -/
structure Found where
  isAbsolute : Bool
  names : List String
  deriving DecidableEq, Repr

/-- The absolute path of what is found. -/
def Found.path (directory : List String) (f : Found) : List String :=
  Path.walk (if f.isAbsolute then [] else directory) f.names

/-- Whether a pattern matches what is found. -/
def Pattern.matchesFound (dots : Bool) (p : Pattern) (f : Found) : Bool :=
  p.isAbsolute == f.isAbsolute && matchPath dots p.segments f.names

/-- Whether a pattern takes away a directory together with all that lies below it. -/
def Pattern.closesDirectories (p : Pattern) : Bool :=
  match p.segments.getLast? with
  | some .anyDepth => true
  | some s => s.literal?.isSome
  | none => false

/-- Whether a pattern takes away what is found.  One that starts at the root is compared with the whole
path. -/
def Pattern.takesAway (directory : List String) (p : Pattern) (f : Found) : Bool :=
  if p.isAbsolute then matchPath true p.segments (f.path directory)
  else !f.isAbsolute && matchPath true p.segments f.names

/-- Whether a directory between the start of a search and what is found is taken away. -/
def isClosedOff (excluded : List Pattern) (start : Nat) (f : Found) : Bool :=
  let ends := (List.range f.names.length).filter (start < ·)
  excluded.any fun p => p.closesDirectories &&
    ends.any fun n => p.matchesFound false { f with names := f.names.take n }

/-- The names below which the files for a pattern are looked for. -/
def searchStart (included : List Pattern) (p : Pattern) : List String :=
  let start := base p.segments
  let wide := included.any fun q => !q.isLiteral && !q.leadsOut && base q.segments == []
  if !p.leadsOut && wide then [] else start

/-- What a pattern that spells out a path finds. -/
def lookUp (tree : FileTree) (directory : List String) (s : Selection) (p : Pattern) :
    Except SearchFailure (List Found) :=
  let f : Found := ⟨p.isAbsolute, p.segments.filterMap Segment.literal?⟩
  let path := f.path directory
  if tree.goesThroughFile path then .error ⟨"lstat", path⟩
  else if tree.isFile path && !s.excluded.any (·.takesAway directory f) then .ok [f]
  else .ok []

/-- What a pattern with open parts finds. -/
def goThrough (tree : FileTree) (directory : List String) (s : Selection) (p : Pattern) :
    Except SearchFailure (List Found) :=
  let start := searchStart s.included p
  let root := Found.path directory ⟨p.isAbsolute, start⟩
  if tree.isFile root || tree.goesThroughFile root then .error ⟨"scandir", root⟩
  else
    let all := (tree.below root).map fun rest => Found.mk p.isAbsolute (start ++ rest)
    .ok (all.filter fun f =>
      p.matchesFound false f && !s.excluded.any (·.takesAway directory f) &&
        !isClosedOff s.excluded start.length f)

/-- The absolute paths at or below which files are found. -/
def starts (directory : List String) (s : Selection) : List (List String) :=
  (s.included.map fun p =>
    let start := if p.isLiteral then base p.segments else searchStart s.included p
    Found.path directory ⟨p.isAbsolute, start⟩).eraseDups

/-- The absolute paths of the files that a selection brings in, each way to a file once. -/
def search (tree : FileTree) (directory : List String) (s : Selection) :
    Except SearchFailure (List (List String)) := do
  let found ← s.included.mapM fun p =>
    if p.isLiteral then lookUp tree directory s p else goThrough tree directory s p
  return found.flatten.eraseDups.map (Found.path directory)

/-- The message of a failure. -/
def SearchFailure.message (f : SearchFailure) : String :=
  "ENOTDIR: not a directory, " ++ f.action ++ " '" ++ Path.text f.path ++ "'"

end Glob

end EntitySchema
