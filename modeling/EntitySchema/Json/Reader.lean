import EntitySchema.Json.Basic

/-!
# Reading JSON

The text is first cut into tokens, one character at a time; the tokens are then put together by a
builder that keeps the collections which are still open on a stack.  Both are folds, so reading is
structural in the text.
-/

namespace EntitySchema

namespace Json

/-- A token of a JSON text. -/
inductive Token where
  | openObject | closeObject | openArray | closeArray | comma | colon
  | scalar (value : Json)
  | invalid

/-- What the token reader is in the middle of. -/
inductive Pending where
  | between
  | word (read : List Char)
  | string (read : List Char)
  | escape (read : List Char)
  | unicode (read : List Char) (high : Option Nat) (missing : Nat) (value : Nat)
  | surrogate (read : List Char) (high : Nat)
  | surrogateEscape (read : List Char) (high : Nat)

/-- The token of a bare word: a constant or a number. -/
def wordToken (cs : List Char) : Token :=
  match String.ofList cs with
  | "null" => .scalar .null
  | "true" => .scalar (.bool true)
  | "false" => .scalar (.bool false)
  | _ =>
    match Number.readLeading cs with
    | (x, []) => .scalar (.num x)
    | _ => .invalid

/-- The token of a character that stands for itself. -/
def punctuation? : Char → Option Token
  | '{' => some .openObject
  | '}' => some .closeObject
  | '[' => some .openArray
  | ']' => some .closeArray
  | ',' => some .comma
  | ':' => some .colon
  | _ => none

/-- Whether a character is white space between tokens. -/
def isGap (c : Char) : Bool :=
  c == ' ' || c == '\n' || c == '\r' || c == '\t'

/-- The character that a one-letter escape denotes. -/
def escaped? : Char → Option Char
  | '"' => some '"'
  | '\\' => some '\\'
  | '/' => some '/'
  | 'b' => some '\x08'
  | 'f' => some '\x0c'
  | 'n' => some '\n'
  | 'r' => some '\r'
  | 't' => some '\t'
  | _ => none

/-- Characters are read in reverse order. -/
def finishString (read : List Char) : Token :=
  .scalar (.str (String.ofList read.reverse))

/-- A surrogate that has no partner. -/
def loneSurrogate : Char := '\uFFFD'

/-- Whether a code unit is the first half of a pair. -/
def isHighSurrogate (n : Nat) : Bool := 0xD800 ≤ n && n < 0xDC00

/-- Whether a code unit is the second half of a pair. -/
def isLowSurrogate (n : Nat) : Bool := 0xDC00 ≤ n && n < 0xE000

/-- The character of a surrogate pair. -/
def pairedChar (high low : Nat) : Char :=
  Char.ofNat (0x10000 + (high - 0xD800) * 0x400 + (low - 0xDC00))

/-- What follows a complete `\u` escape. -/
def afterUnit (read : List Char) (high : Option Nat) (n : Nat) : Pending :=
  match high with
  | some h =>
    if isLowSurrogate n then .string (pairedChar h n :: read)
    else if isHighSurrogate n then .surrogate (loneSurrogate :: read) n
    else .string (Char.ofNat n :: loneSurrogate :: read)
  | none =>
    if isHighSurrogate n then .surrogate read n
    else if isLowSurrogate n then .string (loneSurrogate :: read)
    else .string (Char.ofNat n :: read)

/-- One character outside of a string. -/
def stepBetween (c : Char) : Pending × List Token :=
  if isGap c then (.between, [])
  else if c == '"' then (.string [], [])
  else match punctuation? c with
    | some t => (.between, [t])
    | none => (.word [c], [])

/-- One character inside of a string. -/
def stepString (read : List Char) (c : Char) : Pending × List Token :=
  if c == '"' then (.between, [finishString read])
  else if c == '\\' then (.escape read, [])
  else (.string (c :: read), [])

/-- One character of the text: the new state and the tokens that it completes. -/
def tokenStep (state : Pending) (c : Char) : Pending × List Token :=
  match state with
  | .between => stepBetween c
  | .word read =>
    if isGap c || c == '"' || (punctuation? c).isSome then
      let (state, tokens) := stepBetween c
      (state, wordToken read.reverse :: tokens)
    else (.word (c :: read), [])
  | .string read => stepString read c
  | .escape read =>
    if c == 'u' then (.unicode read none 4 0, [])
    else match escaped? c with
      | some d => (.string (d :: read), [])
      | none => (.between, [.invalid])
  | .unicode read high missing value =>
    if Number.isHexDigit c then
      let value := value * 16 + Number.digitValue c
      if missing ≤ 1 then (afterUnit read high value, [])
      else (.unicode read high (missing - 1) value, [])
    else (.between, [.invalid])
  | .surrogate read high =>
    if c == '\\' then (.surrogateEscape read high, []) else stepString (loneSurrogate :: read) c
  | .surrogateEscape read high =>
    if c == 'u' then (.unicode read (some high) 4 0, [])
    else match escaped? c with
      | some d => (.string (d :: loneSurrogate :: read), [])
      | none => (.between, [.invalid])

/-- The tokens of the text from a state on. -/
def tokensFrom (state : Pending) : List Char → List Token
  | [] =>
    match state with
    | .between => []
    | .word read => [wordToken read.reverse]
    | _ => [.invalid]
  | c :: cs =>
    let (state, tokens) := tokenStep state c
    tokens ++ tokensFrom state cs

/-- A collection that is still open; what it holds so far is in reverse order. -/
inductive Open where
  | array (items : List Json)
  | object (entries : List (String × Json)) (key : Option String)

/-- What may come next. -/
inductive Expect where
  | value | valueOrClose | key | keyOrClose | colon | commaOrClose | nothing
  deriving DecidableEq

/-- The builder: open collections, what may come next, and the finished value. -/
structure Builder where
  stack : List Open
  expect : Expect
  result : Option Json

/-- Puts a finished value where it belongs. -/
def Builder.place (b : Builder) (value : Json) : Option Builder :=
  match b.stack with
  | [] => some { b with expect := .nothing, result := some value }
  | .array xs :: rest => some { b with stack := .array (value :: xs) :: rest, expect := .commaOrClose }
  | .object es (some key) :: rest =>
    some { b with stack := .object ((key, value) :: es) none :: rest, expect := .commaOrClose }
  | .object _ none :: _ => none

/-- Adds one token. -/
def Builder.step (b : Builder) (t : Token) : Option Builder :=
  let wantsValue := b.expect == .value || b.expect == .valueOrClose
  match t with
  | .scalar v =>
    if wantsValue then b.place v
    else match b.expect == .key || b.expect == .keyOrClose, v, b.stack with
      | true, .str key, .object es none :: rest =>
        some { b with stack := .object es (some key) :: rest, expect := .colon }
      | _, _, _ => none
  | .openArray =>
    if wantsValue then some { b with stack := .array [] :: b.stack, expect := .valueOrClose } else none
  | .openObject =>
    if wantsValue then some { b with stack := .object [] none :: b.stack, expect := .keyOrClose } else none
  | .closeArray =>
    match b.stack with
    | .array xs :: rest =>
      if b.expect == .valueOrClose || b.expect == .commaOrClose then
        { b with stack := rest }.place (.arr xs.reverse)
      else none
    | _ => none
  | .closeObject =>
    match b.stack with
    | .object es none :: rest =>
      if b.expect == .keyOrClose || b.expect == .commaOrClose then
        { b with stack := rest }.place (ofEntries es.reverse)
      else none
    | _ => none
  | .comma =>
    match b.expect == .commaOrClose, b.stack with
    | true, .array _ :: _ => some { b with expect := .value }
    | true, .object .. :: _ => some { b with expect := .key }
    | _, _ => none
  | .colon => if b.expect == .colon then some { b with expect := .value } else none
  | .invalid => none

/-- Adds the tokens one by one. -/
def Builder.run (b : Builder) : List Token → Option Builder
  | [] => some b
  | t :: ts => (b.step t).bind fun b => b.run ts

/-- The value that a text denotes. -/
def read? (text : String) : Option Json :=
  (Builder.run ⟨[], .value, none⟩ (tokensFrom .between text.toList)).bind (·.result)

end Json

end EntitySchema
