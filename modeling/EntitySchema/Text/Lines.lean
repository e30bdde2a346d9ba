import EntitySchema.Text.Units

/-!
# Lines and columns

Only a line feed starts a new line.  Lines and columns count from zero, columns in code units; an
offset behind the end of the text is on its last line.
-/

namespace EntitySchema

namespace Text

/-- The offsets behind the line feeds of a text that starts at `offset`. -/
def lineStartsFrom (offset : Nat) : List Char → List Nat
  | [] => []
  | c :: cs =>
    let next := offset + width c
    if c == '\n' then next :: lineStartsFrom next cs else lineStartsFrom next cs

/-- The offsets at which the lines of a text start. -/
def lineStarts (cs : List Char) : List Nat :=
  0 :: lineStartsFrom 0 cs

/-- The line and the column of an offset. -/
def lineColumn (starts : List Nat) (offset : Nat) : Nat × Nat :=
  let reached := starts.takeWhile (· ≤ offset)
  (reached.length - 1, offset - reached.getLastD 0)

/-- The lines of a text; a carriage return in front of a line feed belongs to the line end. -/
def splitLines : List Char → List (List Char)
  | [] => [[]]
  | '\r' :: '\n' :: cs => [] :: splitLines cs
  | c :: cs =>
    if c == '\n' then [] :: splitLines cs
    else
      match splitLines cs with
      | [] => [[c]]
      | l :: ls => (c :: l) :: ls

end Text

end EntitySchema
