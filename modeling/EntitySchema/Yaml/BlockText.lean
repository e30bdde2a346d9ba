import EntitySchema.Yaml.Problem
import EntitySchema.Number.Read

/-!
# The text of block scalars

The header of a block scalar says whether line ends are kept (`|`) or folded (`>`), how far its lines
are indented, and what happens to the line ends at its end.  Without a number in the header the first
line that is not empty sets the indentation.
-/

namespace EntitySchema

namespace Yaml

/-- What becomes of the line ends at the end. -/
inductive Chomp where
  | strip | clip | keep
  deriving DecidableEq, Repr

/-- What the header of a block scalar says. -/
structure BlockStyle where
  folded : Bool
  indent : Nat
  chomp : Chomp
  /-- The number of code units of the header line. -/
  length : Nat

/-- Reads the characters behind the `|` or `>`: the indentation, the chomping, and the place of the
first character that is neither. -/
def readIndicators (cs : List Char) : Nat × Option Chomp × Option Nat :=
  let step (acc : Nat × Option Chomp × Option Nat × Nat) (c : Char) :=
    let (indent, chomp, bad, i) := acc
    if chomp.isNone && c == '-' then (indent, some Chomp.strip, bad, i + 1)
    else if chomp.isNone && c == '+' then (indent, some Chomp.keep, bad, i + 1)
    else
      let n := if Number.isDigit c then Number.digitValue c else 0
      if indent == 0 && n != 0 then (n, chomp, bad, i + 1)
      else (indent, chomp, bad.or (some i), i + 1)
  let (indent, chomp, bad, _) := cs.foldl step (0, none, none, 0)
  (indent, chomp, bad)

/-- The problems of the lexemes behind a header. -/
def headerTail (hasSpace : Bool) : List Lexeme → List Problem
  | [] => []
  | l :: ls =>
    match l.kind with
    | .space => headerTail true ls
    | .newline => headerTail hasSpace ls
    | .comment =>
      (if hasSpace then [] else [Problem.of .missingSpaceBeforeComment l]) ++ headerTail hasSpace ls
    | kind => Problem.of (.blockHeaderKind kind) l :: headerTail hasSpace ls

/-- The style that a header sets. -/
def blockStyle (offset : Nat) (header : List Lexeme) : BlockStyle × List Problem :=
  match header with
  | [] => (⟨false, 0, .clip, 0⟩, [])
  | l :: rest =>
    let (indent, chomp, bad) := readIndicators (l.text.drop 1)
    let problems :=
      match bad with
      | some i => [Problem.at (.blockHeader l.text) (offset + 1 + i)]
      | none => []
    (⟨l.text.head? == some '>', indent, chomp.getD .clip, totalLength header⟩,
      problems ++ headerTail false rest)

/-- A line as its indentation and its text; a carriage return at its end belongs to the text. -/
structure BlockLine where
  indent : Nat
  text : List Char

/-- Whether a line has no text. -/
def BlockLine.isEmpty (l : BlockLine) : Bool :=
  l.text.isEmpty || l.text == ['\r']

/-- The number of code units of a line with its line end. -/
def BlockLine.length (l : BlockLine) : Nat :=
  l.indent + Text.units l.text + 1

/-- The number of code units of lines that follow each other. -/
def linesLength (ls : List BlockLine) : Nat :=
  ls.foldr (fun l n => l.length + n) 0

/-- The text of a line without a carriage return at its end. -/
def BlockLine.body (l : BlockLine) : List Char :=
  if l.text.getLast? == some '\r' then l.text.dropLast else l.text

/-- What stays of the indentation. -/
def BlockLine.extraIndent (l : BlockLine) (trim : Nat) : List Char :=
  List.replicate (l.indent - trim) ' '

/-- The lines of the source of a block scalar. -/
def blockLines (source : List Char) : List BlockLine :=
  let rec lines : List Char → List (List Char)
    | [] => [[]]
    | c :: cs =>
      match lines cs with
      | [] => [[c]]
      | l :: ls => if c == '\n' then [] :: l :: ls else (c :: l) :: ls
  if source.isEmpty then []
  else (lines source).map fun l => ⟨(l.takeWhile (· == ' ')).length, l.dropWhile (· == ' ')⟩

/-- The indentation that is taken off, and the problems of the lines that set it: the empty ones in
front may not be indented further than the first line with text. -/
def findIndent (style : BlockStyle) (atRoot : Bool) (trim offset : Nat) :
    List BlockLine → Nat × List Problem
  | [] => (trim, [])
  | l :: ls =>
    if l.isEmpty then
      let trim := if style.indent == 0 && trim < l.indent then l.indent else trim
      findIndent style atRoot trim (offset + l.length) ls
    else
      let early := if l.indent < trim then [Problem.at .blockLeadingBlanks (offset + l.indent)] else []
      let trim := if style.indent == 0 then l.indent else trim
      let flat := if trim == 0 && !atRoot then [Problem.at .blockNotIndented offset] else []
      (trim, early ++ flat)

/-- Lines put together so far: the text in reverse order of its pieces, what separates it from the
next line, whether the last line was indented further, and the problems. -/
structure Joined where
  text : List Char
  separator : List Char
  moreIndented : Bool
  problems : List Problem

/-- Adds a line to the text. -/
def Joined.add (j : Joined) (style : BlockStyle) (trim offset : Nat) (l : BlockLine) : Joined :=
  let body := l.body
  let short := !body.isEmpty && l.indent < trim
  let j :=
    if short then
      let back := Text.units body + (if l.text.getLast? == some '\r' then 2 else 1)
      { j with problems := j.problems ++
          [Problem.at (.blockLessIndented (style.indent != 0)) (offset + l.length - back)] }
    else j
  let extra := if short then [] else l.extraIndent trim
  if !style.folded then
    { j with text := j.text ++ j.separator ++ extra ++ body, separator := ['\n'] }
  else if (!short && trim < l.indent) || body.head? == some '\t' then
    let separator :=
      if j.separator == [' '] then ['\n']
      else if !j.moreIndented && j.separator == ['\n'] then ['\n', '\n']
      else j.separator
    { j with text := j.text ++ separator ++ extra ++ body, separator := ['\n'], moreIndented := true }
  else if body.isEmpty then
    if j.separator == ['\n'] then { j with text := j.text ++ ['\n'] } else { j with separator := ['\n'] }
  else
    { j with text := j.text ++ j.separator ++ body, separator := [' '], moreIndented := false }

/-- Adds lines one by one; `offset` is where the first one starts. -/
def Joined.addAll (j : Joined) (style : BlockStyle) (trim offset : Nat) : List BlockLine → Joined
  | [] => j
  | l :: ls => (j.add style trim offset l).addAll style trim (offset + l.length) ls

/-- The text of a block scalar, the offset behind it, and its problems. -/
def blockText (offset indent : Nat) (header : List Lexeme) (source : List Char) (atRoot : Bool) :
    List Char × Nat × List Problem :=
  let (style, headerProblems) := blockStyle offset header
  let stop := offset + style.length + Text.units source
  let lines := blockLines source
  let content := (lines.reverse.dropWhile BlockLine.isEmpty).reverse
  if content.isEmpty then
    let breaks := if style.chomp == .keep && !lines.isEmpty then max 1 (lines.length - 1) else 0
    (List.replicate breaks '\n', stop, headerProblems)
  else
    let (trim, indentProblems) :=
      findIndent style atRoot (indent + style.indent) (offset + style.length) content
    let leading := content.takeWhile BlockLine.isEmpty
    -- Empty lines at the end that are indented further are text as well.
    let trailing := (((lines.drop content.length).reverse.dropWhile fun l => l.indent ≤ trim)).reverse
    let chompStart := content.length + trailing.length
    let start := leading.flatMap fun l => l.extraIndent trim ++ ['\n']
    let bodyOffset := offset + style.length + linesLength leading
    let joined := (Joined.mk start [] false []).addAll style trim bodyOffset
      ((lines.take chompStart).drop leading.length)
    let text :=
      match style.chomp with
      | .strip => joined.text
      | .clip => joined.text ++ ['\n']
      | .keep =>
        let kept := joined.text ++
          (lines.drop chompStart).flatMap fun l => '\n' :: l.extraIndent trim
        if kept.getLast? == some '\n' then kept else kept ++ ['\n']
    (text, stop, headerProblems ++ indentProblems ++ joined.problems)

end Yaml

end EntitySchema
