import EntitySchema.Number.Basic
import EntitySchema.Number.Read

/-!
# JSON values

A JSON value whose objects are lists of entries.  Objects built by `Object.put` hold every key once:
a repeated key keeps its place and takes the later value, and keys that are whole numbers below
`2 ^ 32 - 1` come first, in ascending order.
-/

namespace EntitySchema

/-- A JSON value. -/
inductive Json where
  | null
  | bool (b : Bool)
  | num (x : Number)
  | str (s : String)
  | arr (items : List Json)
  | obj (entries : List (String × Json))
  deriving Repr, Inhabited

namespace Json

/-- The number that a key denotes when it is the canonical text of an array position. -/
def arrayIndex? (key : String) : Option Nat :=
  let cs := key.toList
  match cs with
  | [] => none
  | c :: rest =>
    if !cs.all Number.isDigit then none
    else if c == '0' && !rest.isEmpty then none
    else
      let n := Number.digitsValue 10 cs
      if n < 4294967295 then some n else none

/-- Whether a new key stands in front of an old one. -/
def keyBefore (new old : String) : Bool :=
  match arrayIndex? new, arrayIndex? old with
  | some n, some m => n < m
  | some _, none => true
  | none, _ => false

/-- Adds an entry to an object. -/
def put (entries : List (String × Json)) (key : String) (value : Json) : List (String × Json) :=
  if entries.any (·.1 == key) then
    entries.map fun e => if e.1 == key then (key, value) else e
  else
    entries.takeWhile (fun e => !keyBefore key e.1) ++
      (key, value) :: entries.dropWhile (fun e => !keyBefore key e.1)

/-- The object with the given entries, added one by one. -/
def ofEntries (entries : List (String × Json)) : Json :=
  .obj (entries.foldl (fun acc e => put acc e.1 e.2) [])

/-- The value at a key of an object. -/
def get? (value : Json) (key : String) : Option Json :=
  match value with
  | .obj entries => (entries.find? (·.1 == key)).map (·.2)
  | _ => none

/-- The string that a value is. -/
def str? : Json → Option String
  | .str s => some s
  | _ => none

/-- The number that a value is. -/
def num? : Json → Option Number
  | .num x => some x
  | _ => none

/-- The whole number that a value is. -/
def int? (value : Json) : Option Int :=
  value.num?.bind Number.toInt?

/-- The truth value that a value is. -/
def bool? : Json → Option Bool
  | .bool b => some b
  | _ => none

/-- The items of an array; no items of anything else. -/
def items : Json → List Json
  | .arr xs => xs
  | _ => []

/-- The entries of an object; no entries of anything else. -/
def entries : Json → List (String × Json)
  | .obj es => es
  | _ => []

/-- A number that is a natural number. -/
def nat (n : Nat) : Json := .num (Number.ofNat n)

/-- A number that is an integer. -/
def int (n : Int) : Json := .num (Number.ofInt n)

/-- An entry that is present only when there is a value. -/
def optional {α : Type} (key : String) (encode : α → Json) : Option α → List (String × Json)
  | some a => [(key, encode a)]
  | none => []

/-- The list of strings as an array. -/
def strings (xs : List String) : Json := .arr (xs.map .str)

end Json

end EntitySchema
