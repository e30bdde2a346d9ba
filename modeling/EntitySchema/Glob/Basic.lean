/-!
# Patterns of paths

A pattern has one part for each name of a path.  The part `**` stands for any number of names; the parts
of a name stand for characters.  A name that starts with a dot is only matched by a pattern that spells
the dot out, unless dots are allowed.
-/

namespace EntitySchema

namespace Glob

/-- A part of the pattern of a name. -/
inductive Piece where
  | char (c : Char)
  | anyChar
  | anyText
  | oneOf (isNegated : Bool) (ranges : List (Char × Char))
  deriving DecidableEq, Repr

/-- A part of a pattern: the pattern of one name, or any number of names. -/
inductive Segment where
  | name (pieces : List Piece)
  | anyDepth
  deriving DecidableEq, Repr

/-- The list and all its ends, the longest first. -/
def suffixes {α : Type} : List α → List (List α)
  | [] => [[]]
  | x :: xs => (x :: xs) :: suffixes xs

/-- Whether a character lies in one of the ranges. -/
def inRanges (ranges : List (Char × Char)) (c : Char) : Bool :=
  ranges.any fun r => r.1 ≤ c && c ≤ r.2

/-- Whether pieces match all of a text. -/
def matchPieces : List Piece → List Char → Bool
  | [], cs => cs.isEmpty
  | .char _ :: _, [] | .anyChar :: _, [] | .oneOf _ _ :: _, [] => false
  | .char d :: ps, c :: cs => d == c && matchPieces ps cs
  | .anyChar :: ps, _ :: cs => matchPieces ps cs
  | .oneOf isNegated ranges :: ps, c :: cs => (inRanges ranges c != isNegated) && matchPieces ps cs
  | .anyText :: ps, cs => (suffixes cs).any (matchPieces ps)

/-- Whether a name may be matched without being spelled out. -/
def isOpen (dots : Bool) (name : String) : Bool :=
  name != "." && name != ".." && (dots || name.toList.head? != some '.')

/-- Whether the pattern of a name starts with a piece that stands for characters it does not spell. -/
def startsOpen : List Piece → Bool
  | .anyChar :: _ | .anyText :: _ => true
  | _ => false

/-- Whether the pattern of a name matches a name. -/
def matchName (dots : Bool) (pieces : List Piece) (name : String) : Bool :=
  (!startsOpen pieces || isOpen dots name) && matchPieces pieces name.toList

/-- The ends of a path that remain when names that need not be spelled are left out at its start. -/
def openSuffixes (dots : Bool) : List String → List (List String)
  | [] => [[]]
  | n :: ns => (n :: ns) :: if isOpen dots n then openSuffixes dots ns else []

/-- Whether a pattern matches the names of a path. -/
def matchPath (dots : Bool) : List Segment → List String → Bool
  | [], ns => ns.isEmpty
  | .name _ :: _, [] => false
  | .name ps :: ss, n :: ns => matchName dots ps n && matchPath dots ss ns
  | .anyDepth :: ss, ns => (openSuffixes dots ns).any (matchPath dots ss)

/-- The text that pieces spell out, if they leave nothing open. -/
def literal? : List Piece → Option (List Char)
  | [] => some []
  | .char c :: ps => (literal? ps).map (c :: ·)
  | _ => none

/-- The name that a part spells out. -/
def Segment.literal? : Segment → Option String
  | .name ps => (Glob.literal? ps).map String.ofList
  | .anyDepth => none

/-- The names that a pattern spells out at its start. -/
def base : List Segment → List String
  | [] => []
  | s :: ss =>
    match s.literal? with
    | some n => n :: base ss
    | none => []

/-- Whether a pattern spells out a whole path. -/
def isLiteral (segments : List Segment) : Bool :=
  segments.all fun s => s.literal?.isSome

theorem matchPieces_literal {ps : List Piece} {cs : List Char} (h : literal? ps = some cs) :
    matchPieces ps cs = true := by
  induction ps generalizing cs with
  | nil => simp_all [literal?, matchPieces]
  | cons p ps ih =>
    cases p with
    | char c =>
      obtain ⟨ds, hd, rfl⟩ := Option.map_eq_some_iff.1 h
      simp [matchPieces, ih hd]
    | anyChar => simp [literal?] at h
    | anyText => simp [literal?] at h
    | oneOf b r => simp [literal?] at h

end Glob

end EntitySchema
