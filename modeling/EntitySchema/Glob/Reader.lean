import EntitySchema.Glob.Basic

/-!
# Reading patterns

Braces stand for several patterns and are resolved first; a pattern with a mark of exclamation in front
takes paths away.  Then a pattern is cut at its slashes, and each part is read by itself.
-/

namespace EntitySchema

namespace Glob

/-! ### Braces -/

/-- The alternatives of a group in braces, and the text behind it; `none` if the group does not end.
The reading starts behind the opening brace, with `depth` groups open inside the group. -/
def readGroup (depth : Nat) (current : List Char) (done : List (List Char)) :
    List Char → Option (List (List Char) × List Char)
  | [] => none
  | c :: cs =>
    if c == '\x7b' then readGroup (depth + 1) (current ++ [c]) done cs
    else if c == '\x7d' then
      match depth with
      | 0 => some (done ++ [current], cs)
      | d + 1 => readGroup d (current ++ [c]) done cs
    else if c == ',' && depth == 0 then readGroup 0 [] (done ++ [current]) cs
    else readGroup depth (current ++ [c]) done cs

/-- The patterns that a pattern with braces stands for, when it has at most `groups` opening braces.  A
group without a comma is no group. -/
def expandGroups : Nat → List Char → List (List Char)
  | 0, cs => [cs]
  | groups + 1, cs =>
    let before := cs.takeWhile (· != '\x7b')
    match cs.dropWhile (· != '\x7b') with
    | [] => [cs]
    | brace :: rest =>
      let kept := (expandGroups groups rest).map (before ++ brace :: ·)
      match readGroup 0 [] [] rest with
      | none | some ([], _) | some ([_], _) => kept
      | some (alternatives, after) =>
        alternatives.flatMap fun a => (expandGroups groups (a ++ after)).map (before ++ ·)

/-- The patterns that a pattern with braces stands for. -/
def expandBraces (cs : List Char) : List (List Char) :=
  expandGroups (cs.count '\x7b') cs

/-! ### Names -/

/-- The ranges of characters between brackets. -/
def readRanges : List Char → List (Char × Char)
  | a :: '-' :: b :: cs => (a, b) :: readRanges cs
  | c :: cs => (c, c) :: readRanges cs
  | [] => []

/-- The piece for the characters between brackets. -/
def readClass : List Char → Piece
  | '!' :: cs | '^' :: cs => .oneOf true (readRanges cs)
  | cs => .oneOf false (readRanges cs)

/-- Whether a closing bracket behind these characters is one of the characters between the brackets. -/
def isClassStart (cs : List Char) : Bool :=
  cs == [] || cs == ['!'] || cs == ['^']

/-- The pieces of a name.  Behind an opening bracket the characters up to the closing one are collected;
if there is none they stand for themselves. -/
def readPieces : Option (List Char) → List Char → List Piece
  | none, [] => []
  | some collected, [] => .char '[' :: collected.map .char
  | some collected, c :: cs =>
    if c == ']' && !isClassStart collected then readClass collected :: readPieces none cs
    else readPieces (some (collected ++ [c])) cs
  | none, '\\' :: c :: cs => .char c :: readPieces none cs
  | none, c :: cs =>
    if c == '*' then .anyText :: readPieces none cs
    else if c == '?' then .anyChar :: readPieces none cs
    else if c == '[' then readPieces (some []) cs
    else .char c :: readPieces none cs

/-- The part of a pattern between two slashes. -/
def readSegment (cs : List Char) : Segment :=
  if cs == ['*', '*'] then .anyDepth else .name (readPieces none cs)

/-! ### Patterns -/

/-- A pattern: whether it starts at the root, and its parts. -/
structure Pattern where
  isAbsolute : Bool
  segments : List Segment
  deriving DecidableEq, Repr

/-- The pattern in a text without braces.  A leading `.` stands for nothing. -/
def readPattern (cs : List Char) : Pattern :=
  let parts := (cs.splitOn '/').filter (!·.isEmpty)
  let parts := if parts.head? == some ['.'] then parts.tail else parts
  ⟨cs.head? == some '/', parts.map readSegment⟩

/-- What is looked for: the patterns that bring paths in and those that take paths away. -/
structure Selection where
  included : List Pattern
  excluded : List Pattern
  deriving Repr

/-- The text behind the mark of a pattern that takes paths away. -/
def excludedText? : List Char → Option (List Char)
  | '!' :: '(' :: _ => none
  | '!' :: cs => some cs
  | _ => none

/-- The selection that texts describe. -/
def readSelection (texts : List String) : Selection :=
  let all := (texts.flatMap fun t => expandBraces t.toList).filter (!·.isEmpty)
  { included := (all.filter fun cs => (excludedText? cs).isNone).map readPattern
    excluded := (all.filterMap excludedText?).map readPattern }

end Glob

end EntitySchema
