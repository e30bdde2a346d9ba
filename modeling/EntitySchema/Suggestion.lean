import EntitySchema.Text.LowerCase
import EntitySchema.Text.Units

/-!
# Suggestions for misspelled words

The distance of two words is the least number of units that have to be inserted, deleted or replaced.
It is computed over two rows of cells, one cell for each start of the shorter word.  For every unit of
the longer word one row is filled from left to right out of the other, and then the two rows change
places; nothing is cleared in between.  The suggestion for a word is the first of the nearest candidates.
-/

namespace EntitySchema

namespace Suggestion

/-- The two rows: the one filled last, and the one that is to be filled next. -/
structure Rows where
  previous : Array Nat
  current : Array Nat

/-- The rows before the first unit of the longer word, for a shorter word of so many units. -/
def Rows.initial (length : Nat) : Rows :=
  ⟨(List.range (length + 1)).toArray, (List.replicate (length + 1) 0).toArray⟩

/-- Fills one cell of the current row, for a unit of the longer word. -/
def fillCell (shorter : List Nat) (unit : Nat) (previous current : Array Nat) (column : Nat) : Array Nat :=
  let cost := if shorter.getD (column - 1) 0 = unit then 0 else 1
  current.setIfInBounds column
    (min (min (previous.getD column 0 + 1) (current.getD (column - 1) 0 + 1))
      (previous.getD (column - 1) 0 + cost))

/-- Fills the first cells of the current row up to a column. -/
def fillRow (shorter : List Nat) (unit row : Nat) (rows : Rows) (columns : Nat) : Array Nat :=
  (List.range' 1 columns).foldl (fillCell shorter unit rows.previous) (rows.current.setIfInBounds 0 row)

/-- Fills the current row for the unit of the longer word it stands for, and lets the rows change places. -/
def Rows.next (shorter longer : List Nat) (rows : Rows) (row : Nat) : Rows :=
  ⟨fillRow shorter (longer.getD (row - 1) 0) row rows shorter.length, rows.previous⟩

/-- The rows once the first units of the longer word have been looked at. -/
def rowsAfter (shorter longer : List Nat) (count : Nat) : Rows :=
  (List.range' 1 count).foldl (Rows.next shorter longer) (Rows.initial shorter.length)

/-- The distance of two lists of units, the first of which is not longer than the second. -/
def orderedDistance (shorter longer : List Nat) : Nat :=
  if shorter.length = 0 then longer.length
  else (rowsAfter shorter longer longer.length).previous.getD shorter.length 0

/-- The distance of two lists of units. -/
def unitDistance (xs ys : List Nat) : Nat :=
  if xs.length ≤ ys.length then orderedDistance xs ys else orderedDistance ys xs

/-- The distance of two texts, in code units. -/
def distance (s t : String) : Nat :=
  unitDistance (Text.codeUnits s.toList) (Text.codeUnits t.toList)

/-- The distance of two texts when case does not count. -/
def caselessDistance (s t : String) : Nat :=
  unitDistance (Text.codeUnits (Text.lower s.toList)) (Text.codeUnits (Text.lower t.toList))

/-- The better of a candidate found before and a new one; the earlier one wins a tie. -/
def better (best : Option (String × Nat)) (candidate : String) (d : Nat) : Option (String × Nat) :=
  match best with
  | none => some (candidate, d)
  | some (c, e) => if d < e then some (candidate, d) else some (c, e)

/-- The first of the nearest candidates within a distance. -/
def closest (needle : String) (candidates : List String) (maxDistance : Int := 2) : Option String :=
  let step (best : Option (String × Nat)) (candidate : String) : Option (String × Nat) :=
    let d := caselessDistance needle candidate
    if maxDistance < d then best else better best candidate d
  (candidates.foldl step none).map (·.1)

/-- The hint behind the message about a word that is not known: the nearest known word, or all. -/
def hint (needle : String) (candidates : List String) (otherwise : String) : String :=
  match closest needle candidates with
  | some c => "Did you mean \"" ++ c ++ "\"?"
  | none => otherwise

end Suggestion

end EntitySchema
