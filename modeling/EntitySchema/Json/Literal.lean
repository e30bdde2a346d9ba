import EntitySchema.Json.Writer

/-!
# Values as people write them

A value on one line with single quotes around texts and blanks inside brackets.  Values three levels down
are only named.
-/

namespace EntitySchema

namespace Json

/-- The quote around a text: the first that does not occur in it. -/
def quoteFor (cs : List Char) : Char :=
  if !cs.contains '\'' then '\''
  else if !cs.contains '"' then '"'
  else if !cs.contains '\x60' then '\x60'
  else '\''

/-- A capital hexadecimal digit. -/
def capitalHexDigit (n : Nat) : Char :=
  (hexDigit n).toUpper

/-- A character between quotes. -/
def literalChar (quote c : Char) : List Char :=
  if c == quote || c == '\\' then ['\\', c]
  else if c == '\n' then ['\\', 'n']
  else if c == '\t' then ['\\', 't']
  else if c == '\r' then ['\\', 'r']
  else if c == '\x08' then ['\\', 'b']
  else if c == '\x0c' then ['\\', 'f']
  else if c.toNat < 0x20 || (0x7F ≤ c.toNat && c.toNat < 0xA0) then
    ['\\', 'x', capitalHexDigit (c.toNat / 16), capitalHexDigit (c.toNat % 16)]
  else [c]

/-- A text with quotes. -/
def literalText (s : String) : String :=
  let cs := s.toList
  let quote := quoteFor cs
  String.ofList (quote :: cs.flatMap (literalChar quote) ++ [quote])

/-- Whether a key needs no quotes. -/
def isPlainKey (key : String) : Bool :=
  match key.toList with
  | [] => false
  | c :: cs =>
    let isWordStart (c : Char) : Bool := c.isAlpha || c == '_'
    isWordStart c && cs.all fun c => isWordStart c || c.isDigit

/-- Items between brackets. -/
def bracketed (opening closing : String) (items : List String) : String :=
  if items.isEmpty then opening ++ closing
  else opening ++ " " ++ ", ".intercalate items ++ " " ++ closing

mutual

/-- A value with a number of levels above it. -/
def literalAt (level : Nat) : Json → String
  | .null => "null"
  | .bool b => if b then "true" else "false"
  | .num (.finite true 0 _) => "-0"
  | .num x => x.text
  | .str s => literalText s
  | .arr items =>
    if level > 2 && !items.isEmpty then "[Array]"
    else bracketed "[" "]" (literalItems level items)
  | .obj entries =>
    if level > 2 && !entries.isEmpty then "[Object]"
    else bracketed "\x7b" "\x7d" (literalEntries level entries)

/-- The items of an array with a number of levels above it. -/
def literalItems (level : Nat) : List Json → List String
  | [] => []
  | x :: xs => literalAt (level + 1) x :: literalItems level xs

/-- The entries of an object with a number of levels above it. -/
def literalEntries (level : Nat) : List (String × Json) → List String
  | [] => []
  | (key, value) :: rest =>
    ((if isPlainKey key then key else literalText key) ++ ": " ++ literalAt (level + 1) value) ::
      literalEntries level rest

end

/-- A value as people write it; a text stands for itself. -/
def literal : Json → String
  | .str s => s
  | value => literalAt 0 value

end Json

end EntitySchema
