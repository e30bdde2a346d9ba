/-!
# Paths

An absolute path is the list of the names it goes through, from the root down.  A text is followed from
some path: it starts over at the root when it begins with a slash, `.` stays and `..` goes up by one name.
-/

namespace EntitySchema

namespace Path

/-- The names in a text: the parts between its slashes that are not empty. -/
def names (text : String) : List String :=
  (text.toList.splitOn '/').filterMap fun part => if part.isEmpty then none else some (String.ofList part)

/-- Whether a text is followed from the root. -/
def isAbsolute (text : String) : Bool :=
  text.toList.head? == some '/'

/-- Goes from a path to where a name leads. -/
def step (path : List String) (name : String) : List String :=
  if name == "." then path
  else if name == ".." then path.dropLast
  else path ++ [name]

/-- Goes from a path to where names lead. -/
def walk (path : List String) (names : List String) : List String :=
  names.foldl step path

/-- Goes from a path to where a text leads. -/
def follow (path : List String) (text : String) : List String :=
  walk (if isAbsolute text then [] else path) (names text)

/-- The path that an absolute text denotes. -/
def ofText (text : String) : List String :=
  follow [] text

/-- The text of an absolute path. -/
def text (path : List String) : String :=
  "/" ++ "/".intercalate path

/-- The path of the directory that an absolute text lies in.  Its last name does not count, even if it
is `..`. -/
def parent (text : String) : List String :=
  walk [] (names text).dropLast

/-- The last name of a path; the root has none. -/
def lastName (path : List String) : String :=
  path.getLast?.getD ""

/-- The names that lead from one path to another: up to the last directory that both share, and down. -/
def relative : List String → List String → List String
  | a :: as, b :: bs => if a = b then relative as bs else (a :: as).map (fun _ => "..") ++ b :: bs
  | as, bs => as.map (fun _ => "..") ++ bs

/-- The text of the names that lead from one path to another. -/
def relativeText (source target : List String) : String :=
  "/".intercalate (relative source target)

/-- A name that is neither `.` nor `..`. -/
def IsPlain (name : String) : Prop :=
  name ≠ "." ∧ name ≠ ".."

/-- Plain names lead down. -/
theorem walk_plain (path : List String) {names : List String} (h : ∀ n ∈ names, IsPlain n) :
    walk path names = path ++ names := by
  induction names generalizing path with
  | nil => simp [walk]
  | cons n ns ih =>
    have hn : step path n = path ++ [n] := by
      simp [step, (h n (by simp)).1, (h n (by simp)).2]
    have : walk path (n :: ns) = walk (step path n) ns := rfl
    rw [this, hn, ih _ fun m hm => h m (by simp [hm])]
    simp

end Path

end EntitySchema
