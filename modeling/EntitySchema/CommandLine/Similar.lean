import EntitySchema.Text.Collation
import EntitySchema.Text.Units

/-!
# Similar names

What may be meant by a name that is not known.  The distance of two names is the least number of units
that have to be inserted, deleted, replaced, or exchanged with their neighbour, where no unit is touched
twice.  The distances of the beginnings of one name to those of the other are built up row by row.
-/

namespace EntitySchema

namespace Similar

/-- The largest distance of similar names. -/
def maxDistance : Nat := 3

/-- The row of the empty beginning. -/
def firstRow (xs : List Nat) : List Nat :=
  List.range (xs.length + 1)

/-- The cells of a row behind `left`, for the unit `y` behind `before`.  The row above and the row above
that are given from the cell on that stands above `left`, and from two cells further left. -/
def cellsFrom (y : Nat) (before : Option Nat) (left : Nat) (last : Option Nat) :
    List Nat → List Nat → List Nat → List Nat
  | x :: xs, p :: q :: above, higher =>
    let direct := min (min (q + 1) (left + 1)) (if x = y then p else p + 1)
    let isExchange := last == some y && before == some x
    let cell := if isExchange then min direct (higher.headD 0 + 1) else direct
    let higher := if last.isSome then higher.tail else higher
    cell :: cellsFrom y before cell (some x) xs (q :: above) higher
  | _, _, _ => []

/-- The next row, for the unit `y` behind `before`. -/
def nextRow (xs : List Nat) (before : Option Nat) (y : Nat) (above higher : List Nat) : List Nat :=
  let left := above.headD 0 + 1
  left :: cellsFrom y before left none xs above higher

/-- The last row. -/
def lastRow (xs : List Nat) (before : Option Nat) (above higher : List Nat) : List Nat → List Nat
  | [] => above
  | y :: ys => lastRow xs (some y) (nextRow xs before y above higher) above ys

/-- The distance of two names.  Names whose lengths are far apart are as far apart as they can be. -/
def distance (xs ys : List Nat) : Nat :=
  if max xs.length ys.length - min xs.length ys.length > maxDistance then max xs.length ys.length
  else (lastRow xs none (firstRow xs) [] ys).getLastD 0

/-- Whether names of some length at some distance have enough in common. -/
def isClose (length distance : Nat) : Bool :=
  4 * length < 10 * (length - distance)

/-- The nearest of the candidates and their distance; one unit is no name. -/
def nearest (word : List Nat) : List (List Nat × String) → Nat × List String
  | candidates => candidates.foldl (step word) (maxDistance, [])
where
  /-- Takes one more candidate into account. -/
  step (word : List Nat) (best : Nat × List String) (candidate : List Nat × String) : Nat × List String :=
    let d := distance word candidate.1
    if candidate.1.length ≤ 1 || !isClose (max word.length candidate.1.length) d then best
    else if d < best.1 then (d, [candidate.2])
    else if d = best.1 then (d, best.2 ++ [candidate.2])
    else best

/-- A name without its first two characters. -/
def withoutDashes (s : String) : String :=
  String.ofList (s.toList.drop 2)

/-- The names that a word may stand for.  Of a word that starts with two dashes, and then of all names,
the rest is compared. -/
def similar (word : String) (names : List String) : List String :=
  let dashed := ['-', '-'].isPrefixOf word.toList
  let bare (s : String) : String := if dashed then withoutDashes s else s
  let units (s : String) : List Nat := Text.codeUnits s.toList
  let candidates := names.eraseDups.map fun n => (units (bare n), bare n)
  let found := Collation.sortBy id (nearest (units (bare word)) candidates).2
  if dashed then found.map ("--" ++ ·) else found

/-- The line about the names that a word may stand for, behind a line end; nothing if there are none. -/
def hint (word : String) (names : List String) : String :=
  match similar word names with
  | [] => ""
  | [name] => "\n(Did you mean " ++ name ++ "?)"
  | names => "\n(Did you mean one of " ++ ", ".intercalate names ++ "?)"

end Similar

end EntitySchema
