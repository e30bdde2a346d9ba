import EntitySchema.Text.Blank
import EntitySchema.Text.Units

/-!
# Splitting at separators

A text is cut at the separators that stand outside of quotes and brackets.  Brackets are counted; one
that closes nothing is an ordinary character.  The pieces are trimmed and know their offsets.
-/

namespace EntitySchema

/-- A trimmed piece of a text with its offsets. -/
structure Segment where
  text : String
  start : Nat
  stop : Nat
  deriving DecidableEq, Repr, Inhabited

namespace Segment

/-- Where the reader is: inside of a quote, and how many brackets are open. -/
structure Level where
  quote : Option Char := none
  depth : Nat := 0
  deriving DecidableEq, Repr

/-- Whether a character opens a bracket. -/
def isOpening (c : Char) : Bool := c == '<' || c == '('

/-- Whether a character closes a bracket. -/
def isClosing (c : Char) : Bool := c == '>' || c == ')'

/-- Whether a character is a quote. -/
def isQuote (c : Char) : Bool := c == '\'' || c == '"'

/-- Where the reader is behind a character. -/
def Level.after (l : Level) (c : Char) : Level :=
  match l.quote with
  | some q => if c == q then { l with quote := none } else l
  | none =>
    if isQuote c then { l with quote := some c }
    else if isOpening c then { l with depth := l.depth + 1 }
    else if isClosing c then { l with depth := l.depth - 1 }
    else l

/-- Whether a character separates two pieces. -/
def Level.splits (l : Level) (isSeparator : Char → Bool) (c : Char) : Bool :=
  l.quote.isNone && l.depth == 0 && !isQuote c && !isOpening c && isSeparator c

/-- The trimmed part of a text between two indices; the text starts at an offset. -/
def create (text : List Char) (start stop offset : Nat) : Segment :=
  let raw := Text.slice text start stop
  let leading := Text.units raw - Text.units (Text.trimStart raw)
  let trimmed := Text.trim raw
  ⟨String.ofList trimmed, offset + start + leading, offset + start + leading + Text.units trimmed⟩

/-- The segments of a text from an index on, where the rest of the text stands; the piece that the reader is in
starts at an index of its own.  A piece ends in front of a separator, and the last one ends with the text,
whatever is open there. -/
def scan (isSeparator : Char → Bool) (text : List Char) (offset : Nat) (l : Level) (segmentStart index : Nat) :
    List Char → List Segment
  | [] => [create text segmentStart index offset]
  | c :: cs =>
    if l.splits isSeparator c then
      create text segmentStart index offset ::
        scan isSeparator text offset l (index + 1) (index + Text.width c) cs
    else scan isSeparator text offset (l.after c) segmentStart (index + Text.width c) cs

/-- The segments of a text that starts at an offset. -/
def splitBy (isSeparator : Char → Bool) (text : List Char) (offset : Nat := 0) : List Segment :=
  scan isSeparator text offset {} 0 0 text

/-- The segments of a text between its commas. -/
def split (text : List Char) (offset : Nat := 0) : List Segment :=
  splitBy (· == ',') text offset

/-- A key and a value separated by the first equals sign. -/
def assignment (s : Segment) : String × Option String :=
  let cs := s.text.toList
  let key := cs.takeWhile (· != '=')
  match cs.drop key.length with
  | [] => (s.text, none)
  | _ :: value => (String.ofList (Text.trim key), some (String.ofList (Text.trim value)))

end Segment

end EntitySchema
