import EntitySchema.Yaml.Problem
import EntitySchema.Json.Reader

/-!
# The text of flat scalars

A flat scalar that spans several lines is folded: the white space around line ends goes away, a single
line end becomes a blank, and `n + 1` line ends in a row become `n`.  Quoted scalars lose their quotes;
inside single quotes a quote is written twice, inside double quotes a backslash starts an escape.
-/

namespace EntitySchema

namespace Yaml

/-- Blanks and tabs. -/
def isInline (c : Char) : Bool :=
  c == ' ' || c == '\t'

/-- The lines of a text without their line ends. -/
def splitAtBreaks : List Char → List (List Char)
  | [] => [[]]
  | c :: cs =>
    match splitAtBreaks cs with
    | [] => [[c]]
    | l :: ls => if c == '\n' then [] :: l :: ls else (c :: l) :: ls

/-- A line without white space at its end, and without the carriage return behind it. -/
def trimLineEnd (l : List Char) : List Char :=
  let l := if l.getLast? == some '\r' then l.dropLast else l
  (l.reverse.dropWhile isInline).reverse

/-- Adds the lines behind the first one to the folded text.  `pending` is what the last line end has
become so far. -/
def foldRest (pending : List Char) : List (List Char) → List Char
  | [] => []
  | [last] => pending ++ last.dropWhile isInline
  | l :: ls =>
    let body := trimLineEnd (l.dropWhile isInline)
    if body.isEmpty then
      if pending == ['\n'] then '\n' :: foldRest ['\n'] ls else foldRest ['\n'] ls
    else pending ++ body ++ foldRest [' '] ls

/-- The folded text. -/
def foldLines (cs : List Char) : List Char :=
  match splitAtBreaks cs with
  | [] => []
  | [only] => only
  | first :: rest => trimLineEnd first ++ foldRest [' '] rest

/-- What a plain scalar may not start with. -/
def badStart? : Char → Option String
  | '\t' => some "a tab character"
  | ',' => some "flow indicator character ,"
  | '%' => some "directive indicator character %"
  | '|' => some "block scalar indicator |"
  | '>' => some "block scalar indicator >"
  | '@' => some "reserved character @"
  | '\x60' => some "reserved character \x60"
  | _ => none

/-- The text of a plain scalar at an offset. -/
def plainText (offset : Nat) (source : List Char) : List Char × List Problem :=
  let problems :=
    match source.head?.bind badStart? with
    | some what => [Problem.at (.badScalarStart what) offset]
    | none => []
  (foldLines source, problems)

/-- Reads quotes written twice as one. -/
def undoubleQuotes : List Char → List Char
  | '\'' :: '\'' :: cs => '\'' :: undoubleQuotes cs
  | c :: cs => c :: undoubleQuotes cs
  | [] => []

/-- The source between the quotes, and whether the closing one is there. -/
def unquoteSource (quote : Char) (source : List Char) : List Char × Bool :=
  ((source.drop 1).dropLast, source.getLast? == some quote && source.length != 1)

/-- The text of a single quoted scalar at an offset. -/
def singleQuotedText (offset : Nat) (source : List Char) : List Char × List Problem :=
  let (body, closed) := unquoteSource '\'' source
  (undoubleQuotes (foldLines body),
    if closed then [] else [Problem.at .unclosedSingleQuote (offset + Text.units source)])

/-! ### Escapes -/

/-- The character that a one-letter escape denotes. -/
def escapeOf? : Char → Option Char
  | '0' => some '\x00'
  | 'a' => some '\x07'
  | 'b' => some '\x08'
  | 'e' => some '\x1b'
  | 'f' => some '\x0c'
  | 'n' => some '\n'
  | 'r' => some '\r'
  | 't' => some '\t'
  | 'v' => some '\x0b'
  | 'N' => some '\u0085'
  | '_' => some '\u00a0'
  | 'L' => some '\u2028'
  | 'P' => some '\u2029'
  | ' ' => some ' '
  | '"' => some '"'
  | '/' => some '/'
  | '\\' => some '\\'
  | '\t' => some '\t'
  | _ => none

/-- The number of digits behind a letter that escapes a code point. -/
def escapeDigits? : Char → Option Nat
  | 'x' => some 2
  | 'u' => some 4
  | 'U' => some 8
  | _ => none

/-- One unit of a text with escapes: a character, half of a surrogate pair, or nothing. -/
inductive Unit16 where
  | char (c : Char)
  | half (n : Nat)

/-- Joins the halves of surrogate pairs. -/
def joinHalves : List Unit16 → List Char
  | .half h :: .half l :: us =>
    if Json.isHighSurrogate h && Json.isLowSurrogate l then Json.pairedChar h l :: joinHalves us
    else Json.loneSurrogate :: joinHalves (.half l :: us)
  | .half _ :: us => Json.loneSurrogate :: joinHalves us
  | .char c :: us => c :: joinHalves us
  | [] => []
termination_by us => us.length

/-- A piece of a double quoted text: what it denotes, the number of characters it takes, and whether
it is an invalid escape. -/
structure EscapePiece where
  units : List Unit16
  length : Nat
  invalid : Option (List Char)

/-- The number of characters of a run of line ends and white space behind a line end, and the line
ends among them. -/
def breakRun : List Char → Nat × List Char
  | '\r' :: cs =>
    match cs with
    | '\n' :: _ => let (n, fold) := breakRun cs; (n + 1, fold)
    | _ => (0, [])
  | c :: cs =>
    if c == '\n' then let (n, fold) := breakRun cs; (n + 1, '\n' :: fold)
    else if isInline c then let (n, fold) := breakRun cs; (n + 1, fold)
    else (0, [])
  | [] => (0, [])

/-- The escape behind a backslash; `after` is the rest of the scalar with its closing quote. -/
def escapePiece (after : List Char) : EscapePiece :=
  match after with
  | [] => ⟨[], 1, none⟩
  | c :: rest =>
    match escapeOf? c with
    | some d => ⟨[.char d], 2, none⟩
    | none =>
      if c == '\n' then ⟨[], 2 + (rest.takeWhile isInline).length, none⟩
      else if c == '\r' && rest.head? == some '\n' then
        ⟨[], 3 + ((rest.drop 1).takeWhile isInline).length, none⟩
      else match escapeDigits? c with
        | some n =>
          let digits := rest.take n
          let code := Number.digitsValue 16 digits
          if digits.length == n && digits.all Number.isHexDigit && code ≤ 0x10FFFF then
            if 0xD800 ≤ code && code < 0xE000 then ⟨[.half code], n + 2, none⟩
            else ⟨[.char (Char.ofNat code)], n + 2, none⟩
          else
            let raw := '\\' :: c :: digits
            ⟨raw.map .char, n + 2, some raw⟩
        | none => ⟨['\\', c].map .char, 2, some ['\\', c]⟩

/-- The first piece of the rest of a double quoted scalar.  `cs` ends with the closing quote. -/
def quotedPiece (cs : List Char) : EscapePiece :=
  match cs with
  | [] => ⟨[], 1, none⟩
  | c :: rest =>
    if c == '\r' && rest.head? == some '\n' then ⟨[], 1, none⟩
    else if c == '\n' then
      let (n, fold) := breakRun rest
      ⟨(if fold.isEmpty then [' '] else fold).map .char, n + 1, none⟩
    else if c == '\\' then escapePiece rest
    else if isInline c then
      let run := c :: rest.takeWhile isInline
      let after := rest.dropWhile isInline
      let atBreak := match after with
        | '\n' :: _ => true
        | '\r' :: '\n' :: _ => true
        | _ => false
      ⟨if atBreak then [] else run.map .char, run.length, none⟩
    else ⟨[.char c], 1, none⟩

/-- The text of the rest of a double quoted scalar; its last character, the closing quote, is not
part of it. -/
def doubleQuotedRest (offset : Nat) (cs : List Char) : List Unit16 × List Problem :=
  match cs with
  | [] => ([], [])
  | [_] => ([], [])
  | c :: d :: rest =>
    let piece := quotedPiece (c :: d :: rest)
    let taken := max 1 piece.length
    let (more, problems) :=
      doubleQuotedRest (offset + Text.units ((c :: d :: rest).take taken)) ((c :: d :: rest).drop taken)
    (piece.units ++ more,
      match piece.invalid with
      | some raw => Problem.at (.badEscape raw) offset :: problems
      | none => problems)
termination_by cs.length
decreasing_by
  simp only [List.length_drop, List.length_cons]
  omega

/-- The text of a double quoted scalar at an offset. -/
def doubleQuotedText (offset : Nat) (source : List Char) : List Char × List Problem :=
  let closed := source.getLast? == some '"' && source.length != 1
  let (us, problems) := doubleQuotedRest (offset + 1) (source.drop 1)
  (joinHalves us,
    problems ++ if closed then [] else [Problem.at .unclosedDoubleQuote (offset + Text.units source)])

end Yaml

end EntitySchema
