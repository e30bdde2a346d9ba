import EntitySchema.Yaml.Lexeme.Basic

/-!
# The lexemes of a text

The text is read from left to right.  What comes next depends on where the reader is: between
documents, at the start of a line, behind an indicator, in block content or inside a flow collection.
The reader keeps two indentations, the one of the current line and the one that continuation lines of
a scalar must at least have.

Every step of the reader either takes characters off the text or moves to a place of lower rank, so
reading ends.
-/

namespace EntitySchema

namespace Yaml

/-- Where the reader is. -/
inductive Place where
  | content | blockStart | lineStart | flow | stream
  deriving DecidableEq, Repr

/-- The order of places between which the reader moves without taking a character. -/
def Place.rank : Place → Nat
  | .content => 0
  | .flow => 0
  | .blockStart => 1
  | .lineStart => 2
  | .stream => 3

/-- There are four ranks. -/
theorem Place.rank_le (p : Place) : p.rank ≤ 3 := by
  cases p <;> decide

/-- The reader: the rest of the text, the pieces read so far in reverse order, the depth of flow
collections, whether a flow key has just ended, and the two indentations. -/
structure Reader where
  rest : List Char
  pieces : List Piece
  flowDepth : Nat
  afterFlowKey : Bool
  lineIndent : Nat
  minIndent : Nat

namespace Reader

/-- The reader before the first character. -/
def start (text : List Char) : Reader :=
  ⟨text, [], 0, false, 0, 0⟩

/-- Takes a piece even if it is empty. -/
def mark (r : Reader) (kind : Kind) (n : Nat) : Reader :=
  { r with rest := r.rest.drop n, pieces := ⟨kind, r.rest.take n⟩ :: r.pieces }

/-- Takes a piece of `n` characters, if there are any. -/
def take (r : Reader) (kind : Kind) (n : Nat) : Reader :=
  if n = 0 ∨ r.rest.isEmpty then r else r.mark kind n

/-- Takes the blanks, and the tabs where they are allowed. -/
def spaces (r : Reader) (tabs : Bool) : Reader :=
  r.take .space (r.rest.takeWhile fun c => c == ' ' || (tabs && c == '\t')).length

/-- Takes a line end. -/
def newline (r : Reader) : Reader :=
  match r.rest with
  | '\n' :: _ => r.take .newline 1
  | '\r' :: '\n' :: _ => r.take .newline 2
  | _ => r

/-- The rest of the current line, without its line end. -/
def line (r : Reader) : List Char :=
  let cs := r.rest.takeWhile (· != '\n')
  if cs.length < r.rest.length && cs.getLast? == some '\r' then cs.dropLast else cs

/-- Takes the rest of a line, which is a comment or no lexeme at all. -/
def lineRest (r : Reader) : Reader :=
  let cs := r.line
  r.take (if cs.head? == some '#' then .comment else .unknown) cs.length

/-- Whether only white space and a comment are left on the line. -/
def atLineEnd (r : Reader) : Bool :=
  match r.rest.dropWhile (fun c => c == ' ' || c == '\t') with
  | [] => true
  | '#' :: _ => true
  | '\n' :: _ => true
  | '\r' :: '\n' :: _ => true
  | _ => false

end Reader

/-! ### Tags, anchors and block indicators -/

/-- The number of tag characters at the start of a text; an escaped byte counts three. -/
def tagLength : List Char → Nat
  | '%' :: a :: b :: cs => if isHex a && isHex b then tagLength cs + 3 else 0
  | c :: cs => if isTagChar c then tagLength cs + 1 else 0
  | [] => 0

/-- The length of the tag at the start of a text. -/
def tagSpan : List Char → Nat
  | '!' :: '<' :: cs =>
    let body := cs.takeWhile fun c => !isSeparator c && c != '>'
    match cs.drop body.length with
    | '>' :: _ => body.length + 3
    | _ => body.length + 2
  | _ :: cs => tagLength cs + 1
  | [] => 0

namespace Reader

/-- Takes one tag, anchor or indicator with the white space behind it, if there is one. -/
def property (r : Reader) : Reader :=
  match r.rest with
  | '!' :: _ => (r.take .tag (tagSpan r.rest)).spaces true
  | '&' :: _ => (r.take .anchor (r.rest.takeWhile isNameChar).length).spaces true
  | c :: cs =>
    if (c == '-' || c == '?' || c == ':') &&
        (startsBlank cs || (0 < r.flowDepth && startsFlowIndicator cs)) then
      let r := if r.flowDepth = 0 then { r with minIndent := r.lineIndent + 1 }
        else { r with afterFlowKey := false }
      let kind := if c == '-' then Kind.sequenceItem else if c == '?' then .explicitKey else .mapValue
      (r.take kind 1).spaces true
    else r
  | [] => r

/-- Takes all tags, anchors and indicators in front of a node. -/
def properties (r : Reader) : Reader :=
  let next := r.property
  if next.rest.length < r.rest.length then next.properties else next
termination_by r.rest.length

end Reader

/-! ### Scalars over several lines -/

/-- Whether a text starts with a document marker. -/
def startsMarker (cs : List Char) : Bool :=
  match cs with
  | '-' :: '-' :: '-' :: rest => startsBlank rest
  | '.' :: '.' :: '.' :: rest => startsBlank rest
  | _ => false

/-- Whether a scalar goes on at the start of a line: the line is empty or indented enough, and at the
outermost level it is no document marker. -/
def continues (minIndent : Nat) (cs : List Char) : Bool :=
  if 0 < minIndent then
    let indent := (cs.takeWhile (· == ' ')).length
    match cs.drop indent with
    | '\n' :: _ => true
    | '\r' :: '\n' :: _ => true
    | _ => minIndent ≤ indent
  else !startsMarker cs

/-- The number of characters up to the last one that belongs to a plain scalar, when `i` characters
have been looked at and `stop` of them belong to it. -/
def plainStop (inFlow : Bool) (minIndent : Nat) : List Char → Nat → Nat → Nat
  | [], _, stop => stop
  | '\r' :: '\n' :: cs, i, stop =>
    if cs.head? == some '#' || (inFlow && startsFlowIndicator cs) || !continues minIndent cs then stop
    else plainStop inFlow minIndent cs (i + 2) stop
  | c :: cs, i, stop =>
    if c == ':' then
      if startsBlank cs || (inFlow && startsFlowIndicator cs) then stop
      else plainStop inFlow minIndent cs (i + 1) (i + 1)
    else if isSeparator c then
      let stop := if c == '\r' then i + 1 else stop
      if cs.head? == some '#' || (inFlow && startsFlowIndicator cs) then stop
      else if c == '\n' && !continues minIndent cs then stop
      else plainStop inFlow minIndent cs (i + 1) stop
    else if inFlow && isFlowIndicator c then stop
    else plainStop inFlow minIndent cs (i + 1) (i + 1)

/-- The number of characters in front of the closing quote, behind the opening one. -/
def singleQuotedBody : List Char → Option Nat
  | [] => none
  | '\'' :: '\'' :: cs => (singleQuotedBody cs).map (· + 2)
  | '\'' :: _ => some 0
  | _ :: cs => (singleQuotedBody cs).map (· + 1)

/-- The number of characters in front of the closing quote, behind the opening one. -/
def doubleQuotedBody : List Char → Option Nat
  | [] => none
  | '\\' :: _ :: cs => (doubleQuotedBody cs).map (· + 2)
  | '"' :: _ => some 0
  | _ :: cs => (doubleQuotedBody cs).map (· + 1)

/-- The number of characters in front of the first of `n` characters that ends a line behind which
the scalar does not go on. -/
def brokenAt (minIndent : Nat) : Nat → List Char → Option Nat
  | 0, _ => none
  | _, [] => none
  | n + 1, c :: cs =>
    if c == '\n' && !continues minIndent cs then some 0
    else (brokenAt minIndent n cs).map (· + 1)

/-- The number of characters of the quoted scalar at the start of a text.  Without a closing quote it
takes the whole text; a line that is not indented enough cuts it off. -/
def quotedLength (minIndent : Nat) (cs : List Char) : Nat :=
  let body :=
    match cs with
    | '\'' :: rest => singleQuotedBody rest
    | _ :: rest => doubleQuotedBody rest
    | [] => none
  match body with
  | none => cs.length
  | some n =>
    match brokenAt minIndent (n + 1) cs with
    | none => n + 2
    | some k => if (cs.take k).getLast? == some '\r' then k - 1 else k

/-! ### Block scalars -/

/-- The lines of a text, each with its line end. -/
def fullLines : List Char → List (List Char)
  | [] => []
  | c :: cs =>
    if c == '\n' then ['\n'] :: fullLines cs
    else
      match fullLines cs with
      | [] => [[c]]
      | l :: ls => (c :: l) :: ls

/-- Whether a line holds blanks only and has a line end. -/
def isBlankLine (l : List Char) : Bool :=
  match l.dropWhile (· == ' ') with
  | ['\n'] => true
  | ['\r', '\n'] => true
  | _ => false

/-- Whether a line holds at most `indent` blanks and nothing else. -/
def isShortBlank (indent : Nat) (l : List Char) : Bool :=
  let body := if l.getLast? == some '\n' then l.dropLast else l
  let body := if body.getLast? == some '\r' then body.dropLast else body
  body.all (· == ' ') && body.length ≤ indent

/-- The lines without the short blank ones at the end; the first line stays. -/
def dropShortBlanks (indent : Nat) : List (List Char) → List (List Char)
  | [] => []
  | first :: rest => first :: (rest.reverse.dropWhile (isShortBlank indent)).reverse

/-- What the header of a block scalar says about its lines. -/
structure BlockHeader where
  explicitIndent : Option Nat
  keepsBlanks : Bool

/-- The header in front of the given characters. -/
def blockHeader : List Char → BlockHeader
  | c :: cs =>
    if c == '+' then { blockHeader cs with keepsBlanks := true }
    else if '1' ≤ c && c ≤ '9' then
      let h := blockHeader cs
      { h with explicitIndent := h.explicitIndent.or (some (c.toNat - 0x31)) }
    else if c == '-' then blockHeader cs
    else ⟨none, false⟩
  | [] => ⟨none, false⟩

/-- The number of characters of a block scalar whose lines start the text, and the indentation that
it sets. -/
def blockLength (header : BlockHeader) (minIndent : Nat) (cs : List Char) : Nat × Nat :=
  let lines := fullLines cs
  let leading := lines.takeWhile isBlankLine
  let others := lines.dropWhile isBlankLine
  let indent := ((others.headD []).takeWhile (· == ' ')).length
  let newMin :=
    if indent < minIndent then minIndent
    else match header.explicitIndent with
      | none => indent
      | some e => e + (if minIndent = 0 then 1 else minIndent)
  let body := if indent < minIndent then [] else others.takeWhile (continues newMin)
  let taken := leading ++ body
  let n := taken.flatten.length
  let after := cs.drop n
  let blanks := (after.takeWhile (· == ' ')).length
  match after.drop blanks with
  | '\t' :: more => (n + blanks + 1 + (more.takeWhile isSeparator).length, newMin)
  | _ =>
    if header.keepsBlanks then (n, newMin) else ((dropShortBlanks indent taken).flatten.length, newMin)

namespace Reader

/-- Takes a plain scalar. -/
def plain (r : Reader) : Reader :=
  r.mark .plain (plainStop (0 < r.flowDepth) r.minIndent r.rest 0 0)

/-- Takes a quoted scalar. -/
def quoted (r : Reader) : Reader :=
  let kind := if r.rest.head? == some '\'' then Kind.singleQuoted else .doubleQuoted
  r.take kind (quotedLength r.minIndent r.rest)

/-- Takes the header and the lines of a block scalar. -/
def block (r : Reader) : Reader :=
  let header := blockHeader (r.rest.drop 1)
  let r := r.take .blockHeader (r.rest.takeWhile fun c => !isSeparator c && c != '#').length
  let r := (r.spaces true).lineRest.newline
  let (n, minIndent) := blockLength header r.minIndent r.rest
  { r.mark .plain n with minIndent := minIndent }

/-! ### Places -/

/-- The number of characters in front of a comment and the blank before it. -/
def commentAt : List Char → Nat
  | [] => 0
  | c :: cs => if (c == ' ' || c == '\t') && cs.head? == some '#' then 0 else commentAt cs + 1

/-- The length of a directive: up to a comment or the white space at the end of the line. -/
def directiveLength (line : List Char) : Nat :=
  ((line.take (commentAt line)).reverse.dropWhile (fun c => c == ' ' || c == '\t')).length

/-- Between documents. -/
def inStream (r : Reader) : Reader × Place :=
  let r := if r.rest.head? == some byteOrderMark then r.take .byteOrderMark 1 else r
  if r.rest.head? == some '%' then
    (((r.take .directive (directiveLength r.line)).spaces true).lineRest.newline, .stream)
  else if r.atLineEnd then ((r.spaces true).lineRest.newline, .stream)
  else (r.mark .contentStart 0, .lineStart)

/-- Whether the text behind its first code unit starts blank. -/
def secondUnitBlank : List Char → Bool
  | [] => true
  | c :: cs => Text.width c == 1 && startsBlank cs

/-- At the start of a line of a document. -/
def atLineStart (r : Reader) : Reader × Place :=
  if startsMarker r.rest then
    let place := if r.rest.head? == some '-' then Place.content else .stream
    let kind := if r.rest.head? == some '-' then Kind.documentStart else .documentEnd
    ({ r.take kind 3 with lineIndent := 0, minIndent := 0 }, place)
  else
    let indent := (r.rest.takeWhile (· == ' ')).length
    let r := { r.spaces false with lineIndent := indent }
    let r := if indent < r.minIndent && !secondUnitBlank r.rest then { r with minIndent := indent } else r
    (r, .blockStart)

/-- Behind the indentation of a line: indicators add to it. -/
def atBlockStart (r : Reader) : Reader × Place :=
  match r.rest with
  | c :: cs =>
    if (c == '-' || c == '?' || c == ':') && startsBlank cs then
      let kind := if c == '-' then Kind.sequenceItem else if c == '?' then .explicitKey else .mapValue
      let next := (r.take kind 1).spaces true
      ({ next with
          minIndent := r.lineIndent + 1
          lineIndent := r.lineIndent + (r.rest.length - next.rest.length) }, .blockStart)
    else (r, .content)
  | [] => (r, .content)

/-- The kind of a bracket. -/
def bracketKind (c : Char) : Kind :=
  if c == '\x7b' then .openMap
  else if c == '[' then .openSequence
  else if c == '\x7d' then .closeMap
  else .closeSequence

/-- In block content. -/
def inContent (r : Reader) : Reader × Place :=
  let r := (r.spaces true).properties
  match r.line with
  | [] => (r.newline, .lineStart)
  | c :: _ =>
    if c == '#' then (r.lineRest.newline, .lineStart)
    else if c == '\x7b' || c == '[' then
      ({ r.take (bracketKind c) 1 with afterFlowKey := false, flowDepth := 1 }, .flow)
    else if c == '\x7d' || c == ']' then (r.take (bracketKind c) 1, .content)
    else if c == '*' then (r.take .alias (r.rest.takeWhile isNameChar).length, .content)
    else if c == '"' || c == '\'' then (r.quoted, .content)
    else if c == '|' || c == '>' then (r.block, .lineStart)
    else (r.plain, .content)

/-- Takes line ends and white space inside a flow collection, and the indentation of the last line. -/
def flowBlanks (r : Reader) (indent : Option Nat) : Reader × Option Nat :=
  let afterBreak := r.newline
  let broken := afterBreak.rest.length < r.rest.length
  let blanks := (afterBreak.rest.takeWhile (· == ' ')).length
  let indent := if broken then some blanks else indent
  let next := if broken then { afterBreak.spaces false with lineIndent := blanks } else afterBreak
  let next := next.spaces true
  if next.rest.length < r.rest.length then next.flowBlanks indent else (next, indent)
termination_by r.rest.length

/-- Takes commas with the white space behind them. -/
def commas (r : Reader) : Reader :=
  match r.rest with
  | ',' :: _ =>
    let next := { (r.take .comma 1).spaces true with afterFlowKey := false }
    if next.rest.length < r.rest.length then next.commas else next
  | _ => r
termination_by r.rest.length

/-- Inside a flow collection whose current line is indented enough. -/
def inFlowLine (r : Reader) : Reader × Place :=
  let r := r.commas.properties
  match r.line with
  | [] => (r, .flow)
  | c :: _ =>
    if c == '#' then (r.lineRest, .flow)
    else if c == '\x7b' || c == '[' then
      ({ r.take (bracketKind c) 1 with afterFlowKey := false, flowDepth := r.flowDepth + 1 }, .flow)
    else if c == '\x7d' || c == ']' then
      let r := { r.take (bracketKind c) 1 with afterFlowKey := true, flowDepth := r.flowDepth - 1 }
      (r, if 0 < r.flowDepth then .flow else .content)
    else if c == '*' then (r.take .alias (r.rest.takeWhile isNameChar).length, .flow)
    else if c == '"' || c == '\'' then ({ r.quoted with afterFlowKey := true }, .flow)
    else
      let next := r.rest.drop 1
      if c == ':' && (r.afterFlowKey || startsBlank next || next.head? == some ',') then
        ({ (r.take .mapValue 1).spaces true with afterFlowKey := false }, .flow)
      else ({ r with afterFlowKey := false }.plain, .flow)

/-- Inside a flow collection.  A line that is not indented enough ends all open collections; only a
closing bracket of the outermost one may stand one column further left. -/
def inFlow (r : Reader) : Reader × Place :=
  let (r, indent) := r.flowBlanks none
  let line := r.line
  let cut :=
    match indent with
    | none => false
    | some i =>
      ((i < r.minIndent && line.head? != some '#') || (i = 0 && startsMarker line)) &&
        !(i + 1 = r.minIndent && r.flowDepth = 1 &&
          (line.head? == some ']' || line.head? == some '\x7d'))
  if cut then ({ r with flowDepth := 0 }.mark .flowCut 0, .lineStart) else r.inFlowLine

/-- One step of the reader. -/
def step (r : Reader) : Place → Reader × Place
  | .stream => r.inStream
  | .lineStart => r.atLineStart
  | .blockStart => r.atBlockStart
  | .content => r.inContent
  | .flow => r.inFlow

/-- Reads to the end of the text. -/
def run (r : Reader) (place : Place) : Reader :=
  if r.rest.isEmpty then r
  else
    let (next, following) := r.step place
    if next.rest.length < r.rest.length ∨ (next.rest.length = r.rest.length ∧ following.rank < place.rank) then
      next.run following
    else next
termination_by 4 * r.rest.length + place.rank
decreasing_by
  have := following.rank_le
  omega

end Reader

/-- The pieces of a text, in order. -/
def piecesOf (text : List Char) : List Piece :=
  ((Reader.start text).run .stream).pieces.reverse

end Yaml

end EntitySchema
