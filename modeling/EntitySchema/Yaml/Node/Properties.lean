import EntitySchema.Yaml.Problem

/-!
# Lexemes in front of a node

The lexemes in front of a key, an item or a value hold at most one indicator, one anchor, one tag and
inside flow collections one comma, besides white space and comments.
-/

namespace EntitySchema

namespace Yaml

/-- Where the lexemes stand: the indicator to look for, the name of the flow collection around, what
comes next, the offset in front, and the indentation of the collection. -/
structure PropertyContext where
  indicator : Kind
  flowName : Option String := none
  nextKind : Option Kind := none
  nextOffset : Nat := 0
  /-- Whether the next part is an empty plain scalar. -/
  nextIsEmpty : Bool := false
  nextIsFlow : Bool := false
  nextIsBlockCollection : Bool := false
  offset : Nat
  parentIndent : Nat
  atLineStart : Bool

/-- What the lexemes in front of a node hold. -/
structure Properties where
  comma : Option Lexeme := none
  found : Option Lexeme := none
  hasComment : Bool := false
  hasNewline : Bool := false
  anchor : Option Lexeme := none
  tag : Option Lexeme := none
  newlineAfter : Option Lexeme := none
  /-- The offset behind the lexemes. -/
  stop : Nat := 0
  /-- The offset of the first anchor or tag, or the one behind the lexemes. -/
  start : Nat := 0
  deriving Inhabited

/-- What has been seen so far. -/
structure PropertyScan where
  atLineStart : Bool
  hasSpace : Bool
  needsSpace : Bool := false
  tab : Option Lexeme := none
  firstProperty : Option Nat := none
  result : Properties := {}
  problems : List Problem := []

/-- Adds a problem. -/
def PropertyScan.report (s : PropertyScan) (p : Problem) : PropertyScan :=
  { s with problems := s.problems ++ [p] }

/-- Adds a problem if the condition holds. -/
def PropertyScan.reportIf (s : PropertyScan) (condition : Bool) (p : Problem) : PropertyScan :=
  if condition then s.report p else s

/-- An anchor or tag. -/
def PropertyScan.property (s : PropertyScan) (l : Lexeme) : PropertyScan :=
  { s with
      firstProperty := s.firstProperty.or (some l.offset)
      atLineStart := false
      hasSpace := false
      needsSpace := true }

/-- A lexeme of the indicator's kind. -/
def PropertyScan.indicator (s : PropertyScan) (c : PropertyContext) (l : Lexeme) : PropertyScan :=
  let s := s.reportIf (s.result.anchor.isSome || s.result.tag.isSome)
    (Problem.of (.propertyBeforeIndicator l.text) l)
  let s := s.reportIf s.result.found.isSome
    (Problem.of (.unexpectedIndicator l.text (c.flowName.getD "collection")) l)
  { s with
      result := { s.result with found := some l }
      atLineStart := c.indicator == .sequenceItem || c.indicator == .explicitKey
      hasSpace := false }

/-- Adds a lexeme. -/
def PropertyScan.add (c : PropertyContext) (s : PropertyScan) (l : Lexeme) : PropertyScan :=
  let s :=
    if s.needsSpace then
      { s.reportIf (l.kind != .space && l.kind != .newline && l.kind != .comma)
          (Problem.at .missingSpaceAroundProperty l.offset) with needsSpace := false }
    else s
  let s :=
    match s.tab with
    | some tab =>
      { s.reportIf (s.atLineStart && l.kind != .comment && l.kind != .newline)
          (Problem.of .tabIndentation tab) with tab := none }
    | none => s
  let other (s : PropertyScan) : PropertyScan :=
    { s.report (Problem.of (.unexpectedKind l.kind) l) with atLineStart := false, hasSpace := false }
  match l.kind with
  | .space =>
    let mayIndent := c.flowName.isNone && (c.indicator != .documentStart || !c.nextIsFlow)
    { s with
        tab := if mayIndent && l.text.contains '\t' then some l else s.tab
        hasSpace := true }
  | .comment =>
    { s.reportIf (!s.hasSpace) (Problem.of .missingSpaceBeforeComment l) with
        result := { s.result with hasComment := true }
        atLineStart := false }
  | .newline =>
    { s with
        atLineStart := true
        hasSpace := true
        result := { s.result with
          hasNewline := true
          newlineAfter :=
            if s.result.anchor.isSome || s.result.tag.isSome then some l else s.result.newlineAfter } }
  | .anchor =>
    let s := s.reportIf s.result.anchor.isSome (Problem.of .multipleAnchors l)
    let s := s.reportIf (l.text.getLast? == some ':') (Problem.at .ambiguousAnchor (l.stop - 1)).warning
    { s.property l with result := { s.result with anchor := some l } }
  | .tag =>
    let s := s.reportIf s.result.tag.isSome (Problem.of .multipleTags l)
    { s.property l with result := { s.result with tag := some l } }
  | .comma =>
    match c.flowName with
    | some name =>
      let s := s.reportIf s.result.comma.isSome (Problem.of (.unexpectedComma name) l)
      { s with result := { s.result with comma := some l }, atLineStart := false, hasSpace := false }
    | none => other s
  | kind => if kind == c.indicator then s.indicator c l else other s

/-- What the lexemes in front of a node hold, and what is wrong with them. -/
def readProperties (c : PropertyContext) (ls : List Lexeme) : Properties × List Problem :=
  let s := ls.foldl (PropertyScan.add c) { atLineStart := c.atLineStart, hasSpace := c.atLineStart }
  let stop := match ls.getLast? with
    | some l => l.stop
    | none => c.offset
  let s := s.reportIf
    (s.needsSpace &&
      match c.nextKind with
      | some kind => kind != .space && kind != .newline && kind != .comma && !c.nextIsEmpty
      | none => false)
    (Problem.at .missingSpaceAroundProperty c.nextOffset)
  let s :=
    match s.tab with
    | some tab =>
      s.reportIf ((s.atLineStart && tab.indent ≤ c.parentIndent) || c.nextIsBlockCollection)
        (Problem.of .tabIndentation tab)
    | none => s
  ({ s.result with stop, start := s.firstProperty.getD stop }, s.problems)

/-- What is wrong with the lexemes behind a node, and the offset behind them. -/
def readTail (offset : Nat) (needsSpace : Bool) (ls : List Lexeme) : Nat × List Problem :=
  let step (acc : Nat × Bool × List Problem) (l : Lexeme) : Nat × Bool × List Problem :=
    let (offset, hasSpace, problems) := acc
    let offset := offset + l.length
    match l.kind with
    | .space => (offset, true, problems)
    | .newline => (offset, true, problems)
    | .comment =>
      (offset, hasSpace,
        if needsSpace && !hasSpace then problems ++ [Problem.of .missingSpaceBeforeComment l] else problems)
    | kind => (offset, hasSpace, problems ++ [Problem.of (.unexpectedAtEnd kind) l])
  let (offset, _, problems) := ls.foldl step (offset, false, [])
  (offset, problems)

/-- The offset of a value that is not there: behind the last indicator, anchor or tag and the white
space that follows it, or in front of all lexemes if there is none. -/
def emptyPosition (offset : Nat) (before : List Lexeme) : Nat :=
  let blank := (before.reverse.takeWhile (·.kind.isBlank)).reverse
  let start := offset - totalLength blank
  if blank.length == before.length then start
  else start + totalLength (blank.takeWhile (·.kind == .space))

end Yaml

end EntitySchema
