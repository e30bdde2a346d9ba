import EntitySchema.Calendar
import EntitySchema.Number.Arithmetic
import EntitySchema.Text.Blank
import EntitySchema.TypeDef

/-!
# Default values

A default is a text, and the type of its field decides which texts are defaults.  Whether a text is a
value of an enum is left open until all documents have been read.
-/

namespace EntitySchema

namespace DefaultValue

/-- The text between a pair of equal quotes. -/
def unquote? (value : String) : Option String :=
  match value.toList with
  | q :: rest =>
    if (q == '\'' || q == '"') && rest.getLast? == some q then some (String.ofList rest.dropLast)
    else none
  | [] => none

/-! ### Shapes -/

/-- Digits with an optional minus sign. -/
def isInteger (cs : List Char) : Bool :=
  let digits := if cs.head? == some '-' then cs.tail else cs
  !digits.isEmpty && digits.all Number.isDigit

/-- Digits with an optional minus sign and optionally a point with further digits. -/
def isDecimal (cs : List Char) : Bool :=
  let whole := cs.takeWhile (· != '.')
  isInteger whole &&
    match cs.drop whole.length with
    | [] => true
    | _ :: fraction => !fraction.isEmpty && fraction.all Number.isDigit

/-- Whether a text has the shape of a pattern, in which `0` stands for a digit, `f` for a hexadecimal
digit and any other character for itself. -/
def hasShape : List Char → List Char → Bool
  | [], [] => true
  | p :: ps, c :: cs =>
    (if p == '0' then Number.isDigit c else if p == 'f' then Number.isHexDigit c else p == c) &&
      hasShape ps cs
  | _, _ => false

/-- The shape of a UUID. -/
def uuidShape : List Char := "ffffffff-ffff-ffff-ffff-ffffffffffff".toList

/-- The shape of a timestamp up to its seconds. -/
def timestampShape : List Char := "0000-00-00T00:00:00".toList

/-- Whether what stands behind the seconds is an optional fraction of at most six digits and `Z`. -/
def isTimestampEnd (cs : List Char) : Bool :=
  match cs with
  | ['Z'] => true
  | '.' :: rest =>
    let digits := rest.takeWhile Number.isDigit
    1 ≤ digits.length && digits.length ≤ 6 && rest.drop digits.length == ['Z']
  | _ => false

/-- Whether a text is a timestamp in UTC. -/
def isTimestamp (value : String) : Bool :=
  let cs := value.toList
  hasShape timestampShape (cs.take timestampShape.length) &&
    isTimestampEnd (cs.drop timestampShape.length) && (Calendar.read? value).isSome

/-! ### Durations -/

/-- The units of a duration with their milliseconds, from the largest on. -/
def durationUnits : List (List Char × Nat) :=
  [("d".toList, 86400000), ("h".toList, 3600000), ("min".toList, 60000), ("s".toList, 1000),
    ("ms".toList, 1)]

/-- The number in front of a unit at the start of a text, and the text behind the unit. -/
def takeUnit (unit : List Char) (cs : List Char) : Option (List Char × List Char) :=
  let digits := cs.takeWhile Number.isDigit
  let rest := cs.drop digits.length
  if !digits.isEmpty && unit.isPrefixOf rest then some (digits, rest.drop unit.length) else none

/-- The numbers in front of the units at the start of a text, each with the milliseconds of its unit,
and the rest of the text.  Every unit may be left out, and white space may stand behind it. -/
def takeUnits : List (List Char × Nat) → List Char → List (List Char × Nat) × List Char
  | [], cs => ([], cs)
  | (unit, ms) :: units, cs =>
    let cs := Text.trimStart cs
    match takeUnit unit cs with
    | some (digits, rest) =>
      let (parts, rest) := takeUnits units rest
      ((digits, ms) :: parts, rest)
    | none => takeUnits units cs

/-- The numbers in front of the units of a duration. -/
def durationParts? (value : String) : Option (List (List Char × Nat)) :=
  let cs := Text.trim value.toList
  if cs.isEmpty then none
  else
    let (parts, rest) := takeUnits durationUnits cs
    if rest.isEmpty then some parts else none

/-- The milliseconds of a duration. -/
def durationMilliseconds? (value : String) : Option Number :=
  (durationParts? value).map fun parts =>
    parts.foldl (fun total p =>
      total.add ((Number.ofDecimal false (Number.digitsValue 10 p.1) 0).mul (Number.ofNat p.2)))
      Number.zero

/-! ### Checking -/

/-- What is known about a default. -/
inductive Check where
  | valid
  | deferred
  | invalid (message : String)
  deriving DecidableEq, Repr

/-- What a default of a scalar type has to be; `none` when the type has no defaults. -/
inductive Expectation where
  | timestamp | uuid | integer | decimal | bool | string | bigInteger | duration
  deriving DecidableEq, Repr

/-- The wording of what is expected. -/
def Expectation.message : Expectation → String
  | .timestamp => "Use \"now\" or a UTC timestamp such as \"2024-05-01T10:00:00Z\"."
  | .uuid => "Use \"random\", \"random_v7\" or a quoted UUID."
  | .integer => "Use an integer."
  | .decimal => "Use a number."
  | .bool => "Use \"true\" or \"false\"."
  | .string => "Use a quoted string."
  | .bigInteger => "Use a quoted integer."
  | .duration => "Use a duration such as \"1d 2h 3min 4s 5ms\"."

/-- Whether a text is what is expected. -/
def Expectation.isMet (value : String) : Expectation → Bool
  | .timestamp => value == "now" || isTimestamp value
  | .uuid =>
    value == "random" || value == "random_v7" ||
      (unquote? value).any (fun s => hasShape uuidShape s.toList)
  | .integer => isInteger value.toList
  | .decimal => isDecimal value.toList
  | .bool => value == "true" || value == "false"
  | .string => (unquote? value).isSome
  | .bigInteger => (unquote? value).any (fun s => isInteger s.toList)
  | .duration => (durationParts? value).isSome

/-- What a default of a scalar type has to be. -/
def expectation? (typeName : String) : Option Expectation :=
  match typeName with
  | "DateTime" => some .timestamp
  | "UuidValue" => some .uuid
  | "int" => some .integer
  | "double" => some .decimal
  | "bool" => some .bool
  | "String" => some .string
  | "BigInt" => some .bigInteger
  | "Duration" => some .duration
  | _ => none

/-- The message about a type that has no defaults. -/
def unsupported (type : TypeDef) (key : String) : String :=
  "The \"" ++ key ++ "\" annotation is not supported for the type \"" ++ type.describe ++ "\"."

/-- The message about a default that its type does not have. -/
def notValid (type : TypeDef) (value key : String) (expected : Expectation) : String :=
  "The \"" ++ key ++ "\" value \"" ++ value ++ "\" is not valid for the type \"" ++ type.describe ++
    "\". " ++ expected.message

/-- Checks a default that is declared under the word `key`. -/
def check (type : TypeDef) (value key : String) : Check :=
  match type.category with
  | .unresolved => .deferred
  | .entity => if type.entityKind == some .enum then .deferred else .invalid (unsupported type key)
  | .vector | .container => .invalid (unsupported type key)
  | .scalar =>
    match expectation? type.name with
    | none => .invalid (unsupported type key)
    | some expected =>
      if expected.isMet value then .valid else .invalid (notValid type value key expected)

end DefaultValue

end EntitySchema
