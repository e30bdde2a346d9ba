import EntitySchema.Json.Basic
import EntitySchema.Number.Text
import EntitySchema.Text.Units

/-!
# Writing JSON

The compact text, in the order of the entries, and the indented text with two blanks a level and the
keys in the order of their code units.  Only quotes, backslashes and control characters are escaped;
a number that is not finite is written as `null`.
-/

namespace EntitySchema

namespace Json

/-- The lower-case hexadecimal digit of a number below sixteen. -/
def hexDigit (n : Nat) : Char :=
  if n < 10 then Char.ofNat (0x30 + n) else Char.ofNat (0x57 + n)

/-- A character inside a string literal. -/
def escapeChar (c : Char) : List Char :=
  match c with
  | '"' => ['\\', '"']
  | '\\' => ['\\', '\\']
  | '\n' => ['\\', 'n']
  | '\r' => ['\\', 'r']
  | '\t' => ['\\', 't']
  | '\x08' => ['\\', 'b']
  | '\x0c' => ['\\', 'f']
  | c =>
    if c.toNat < 0x20 then ['\\', 'u', '0', '0', hexDigit (c.toNat / 16), hexDigit (c.toNat % 16)] else [c]

/-- A string literal. -/
def quote (s : String) : String :=
  String.ofList ('"' :: s.toList.flatMap escapeChar ++ ['"'])

/-- The text of a number. -/
def numberText (x : Number) : String :=
  if x.isFinite then x.text else "null"

/-- The texts joined by commas. -/
def commaSeparated (texts : List String) : String :=
  String.intercalate "," texts

mutual

/-- The compact text. -/
def compact : Json → String
  | .null => "null"
  | .bool b => if b then "true" else "false"
  | .num x => numberText x
  | .str s => quote s
  | .arr xs => "[" ++ commaSeparated (compactItems xs) ++ "]"
  | .obj es => "\x7b" ++ commaSeparated (compactEntries es) ++ "\x7d"

/-- The compact texts of the items of an array. -/
def compactItems : List Json → List String
  | [] => []
  | x :: xs => compact x :: compactItems xs

/-- The compact texts of the entries of an object. -/
def compactEntries : List (String × Json) → List String
  | [] => []
  | (k, v) :: es => (quote k ++ ":" ++ compact v) :: compactEntries es

end

/-- Whether one entry comes before another by the code units of their keys. -/
def entryLE {α : Type} (a b : String × α) : Bool :=
  Text.le a.1 b.1

mutual

/-- The value with the entries of all its objects in the order of their keys. -/
def sortKeys : Json → Json
  | .arr xs => .arr (sortItems xs)
  | .obj es => .obj ((sortEntries es).mergeSort entryLE)
  | v => v

/-- The items, each with its keys sorted. -/
def sortItems : List Json → List Json
  | [] => []
  | x :: xs => sortKeys x :: sortItems xs

/-- The entries, each value with its keys sorted. -/
def sortEntries : List (String × Json) → List (String × Json)
  | [] => []
  | (k, v) :: es => (k, sortKeys v) :: sortEntries es

end

/-- A line break followed by the blanks of a level. -/
def lineBreak (level : Nat) : String :=
  "\n" ++ String.ofList (List.replicate (2 * level) ' ')

/-- The items of a collection, one a line. -/
def block (opening closing : String) (level : Nat) (texts : List String) : String :=
  if texts.isEmpty then opening ++ closing
  else
    opening ++ lineBreak (level + 1) ++ String.intercalate ("," ++ lineBreak (level + 1)) texts ++
      lineBreak level ++ closing

mutual

/-- The indented text, with the entries as they stand. -/
def indented (level : Nat) : Json → String
  | .arr xs => block "[" "]" level (indentedItems (level + 1) xs)
  | .obj es => block "\x7b" "\x7d" level (indentedEntries (level + 1) es)
  | v => compact v

/-- The indented texts of the items of an array. -/
def indentedItems (level : Nat) : List Json → List String
  | [] => []
  | x :: xs => indented level x :: indentedItems level xs

/-- The indented texts of the entries of an object. -/
def indentedEntries (level : Nat) : List (String × Json) → List String
  | [] => []
  | (k, v) :: es => (quote k ++ ": " ++ indented level v) :: indentedEntries level es

end

/-- The indented text with sorted keys. -/
def pretty (value : Json) : String :=
  indented 0 (sortKeys value)

end Json

end EntitySchema
