import EntitySchema.Yaml.Layout.Basic

/-!
# Grouping lexemes

The parts that are still open stand on a stack, the innermost first.  A lexeme is offered to the
innermost open part, which takes it, opens another part on top of itself, or closes; when it closes,
it becomes part of the one below and the lexeme is offered again.  Every closing makes the stack
shorter, so a lexeme is offered finitely often.
-/

namespace EntitySchema

namespace Yaml

/-- A part that is still open.  The entries of a collection are kept in reverse order; of a block
collection the last entry stands apart, since there always is one. -/
inductive Frame where
  | document (offset : Nat) (start : List Lexeme) (value : Option Part) (tail : Option (List Lexeme))
  | documentEnd (offset : Nat) (text : List Char) (tail : Option (List Lexeme))
  | flat (kind : Kind) (offset indent : Nat) (text : List Char) (tail : Option (List Lexeme))
  | block (offset indent : Nat) (header : List Lexeme) (text : List Char)
  | blockMap (offset indent : Nat) (before : List (Entry Part)) (last : Entry Part)
  | blockSequence (offset indent : Nat) (before : List (Entry Part)) (last : Entry Part)
  | flow (offset indent : Nat) (opening : Lexeme) (entries : List (Entry Part)) (tail : List Lexeme)
  deriving Inhabited

/-- The indentation of an open part. -/
def Frame.indent : Frame → Nat
  | .flat _ _ i .. | .block _ i .. | .blockMap _ i .. | .blockSequence _ i .. | .flow _ i .. => i
  | .document .. | .documentEnd .. => 0

/-! ### Lexemes in front of a key -/

/-- Whether all lexemes are blank. -/
def allBlank (ls : List Lexeme) : Bool :=
  ls.all (·.kind.isBlank)

/-- Whether the properties of a key cannot stand in front of this lexeme. -/
def bounds (kind : Kind) : Bool :=
  match kind with
  | .documentStart | .explicitKey | .mapValue | .sequenceItem | .newline => true
  | _ => false

/-- Splits lexemes into those that stay and those that belong to the key of a new map: what follows
the last indicator or line end and the white space behind it. -/
def splitKeyProperties (ls : List Lexeme) : List Lexeme × List Lexeme :=
  let own := (ls.reverse.takeWhile fun l => !bounds l.kind).reverse
  let blanks := own.takeWhile (·.kind == .space)
  let n := ls.length - own.length + blanks.length
  (ls.take n, ls.drop n)

/-- Takes the properties of a key off an open part. -/
def Frame.takeKeyProperties : Frame → Frame × List Lexeme
  | .document o start v t =>
    let (kept, taken) := splitKeyProperties start
    (.document o kept v t, taken)
  | .blockMap o i before last =>
    match last.separator with
    | some sep =>
      let (kept, taken) := splitKeyProperties sep
      (.blockMap o i before { last with separator := some kept }, taken)
    | none =>
      let (kept, taken) := splitKeyProperties last.start
      (.blockMap o i before { last with start := kept }, taken)
  | .blockSequence o i before last =>
    let (kept, taken) := splitKeyProperties last.start
    (.blockSequence o i before { last with start := kept }, taken)
  | f => (f, [])

/-! ### Closing a part -/

/-- An item of a flow sequence that was taken for a key is the value of its entry. -/
def asSequenceItem (e : Entry Part) : Entry Part :=
  match e.separator with
  | none => e
  | some sep =>
    if e.value.isSome || includesKind e.start .explicitKey || includesKind sep .mapValue then e
    else
      let e := { e with value := e.key.or e.value, key := none, separator := none }
      match e.value with
      | some v =>
        if v.isFlat then { e with value := some (v.addTail sep) }
        else { e with start := e.start ++ sep }
      | none => { e with start := e.start ++ sep }

/-- The entries of a flow collection once it is closed. -/
def flowEntries (opening : Lexeme) (entries : List (Entry Part)) : List (Entry Part) :=
  if opening.kind == .openSequence then entries.map asSequenceItem else entries

/-- The part that an open part becomes, for parts that are nodes. -/
def Frame.toPart? (f : Frame) (below : Frame) : Option Part :=
  match f with
  | .flat k o i t tail => some (.flat k o i t tail)
  | .block o _ h t => some (.block o below.indent h t)
  | .blockMap o i before last => some (.blockMap o i (last :: before).reverse)
  | .blockSequence o i before last => some (.blockSequence o i (last :: before).reverse)
  | .flow o i opening es tail =>
    let i := match below with
      | .document .. => 0
      | _ => i
    some (.flow o i opening (flowEntries opening es.reverse) tail)
  | _ => none

/-- Separates the lexemes in front of an entry that never came from a block collection: they belong
to the part that holds it. -/
def detachLast (p : Part) : Part × Option (List Lexeme) :=
  let detach (indent : Nat) (entries : List (Entry Part)) : Option (List Lexeme) :=
    match entries.getLast? with
    | some e =>
      if e.separator.isNone && e.value.isNone && !e.start.isEmpty && allBlank e.start &&
          (indent == 0 || e.start.all fun l => l.kind != .comment || l.indent < indent) then
        some e.start
      else none
    | none => none
  match p with
  | .blockMap o i es =>
    match detach i es with
    | some start => (.blockMap o i es.dropLast, some start)
    | none => (p, none)
  | .blockSequence o i es =>
    match detach i es with
    | some start => (.blockSequence o i es.dropLast, some start)
    | none => (p, none)
  | p => (p, none)

/-- Puts a part into the open part below.  The second result tells whether a key line begins. -/
def Frame.attach (f : Frame) (p : Part) (onKeyLine : Bool) : Frame × Bool :=
  match f with
  | .document o start _ tail =>
    let (p, rest) := detachLast p
    (.document o start (some p) (rest.or tail), onKeyLine)
  | .blockMap o i before last =>
    if last.value.isSome then
      (.blockMap o i (last :: before) { key := some p, separator := some [] }, true)
    else if last.separator.isSome then
      let (p, rest) := detachLast p
      let last := { last with value := some p }
      match rest with
      | some start => (.blockMap o i (last :: before) { start }, onKeyLine)
      | none => (.blockMap o i before last, onKeyLine)
    else
      (.blockMap o i before { last with key := some p, separator := some [] }, !last.hasExplicitKey)
  | .blockSequence o i before last =>
    let (p, rest) := detachLast p
    let (before, last) :=
      if last.value.isSome then (last :: before, { value := some p })
      else (before, { last with value := some p })
    match rest with
    | some start => (.blockSequence o i (last :: before) { start }, onKeyLine)
    | none => (.blockSequence o i before last, onKeyLine)
  | .flow o i opening entries tail =>
    match entries with
    | [] => (.flow o i opening [{ key := some p, separator := some [] }] tail, onKeyLine)
    | e :: es =>
      if e.value.isSome then
        (.flow o i opening ({ key := some p, separator := some [] } :: e :: es) tail, onKeyLine)
      else if e.separator.isSome then (.flow o i opening ({ e with value := some p } :: es) tail, onKeyLine)
      else (.flow o i opening ({ e with key := some p, separator := some [] } :: es) tail, onKeyLine)
  | f => (f, onKeyLine)

/-- The open parts, what is complete, and where the next lexeme stands. -/
structure Grouping where
  /-- The open parts, the innermost first. -/
  stack : List Frame
  /-- What is complete, in reverse order. -/
  done : List TopLevel
  /-- Whether a key of a block map stands on the current line. -/
  onKeyLine : Bool
  atLineStart : Bool
  indent : Nat
  offset : Nat

namespace Grouping

/-- The grouping before the first lexeme. -/
def start : Grouping := ⟨[], [], false, true, 0, 0⟩

/-- Closes the innermost open part. -/
def close (g : Grouping) : Grouping :=
  match g.stack with
  | [] => g
  | [.document o start v t] => { g with stack := [], done := .document o start v t :: g.done }
  | [.documentEnd o t tail] => { g with stack := [], done := .documentEnd o t tail :: g.done }
  | [_] => { g with stack := [] }
  | f :: below :: rest =>
    match f.toPart? below with
    | some p =>
      let (below, onKeyLine) := below.attach p g.onKeyLine
      { g with stack := below :: rest, onKeyLine }
    | none => { g with stack := below :: rest }

/-- Closing makes the stack shorter. -/
theorem length_close (g : Grouping) : g.close.stack.length = g.stack.length - 1 := by
  unfold close
  split
  · next h => simp [h]
  · next h => simp [h]
  · next h => simp [h]
  · next h => simp [h]
  · next h =>
    rw [h]
    split <;> simp

/-- Closes all open parts. -/
def closeAll (g : Grouping) : Grouping :=
  g.stack.foldl (fun g _ => g.close) g

end Grouping

/-! ### Offering a lexeme to an open part -/

/-- What an open part does with a lexeme. -/
inductive Reply where
  /-- The part changes to these parts, the innermost first. -/
  | becomes (frames : List Frame)
  /-- The part below and the part change together. -/
  | becomesWith (below : Frame) (frames : List Frame)
  /-- The part changes and then closes. -/
  | finish (frame : Frame)
  /-- A part that may not stand here is put into the open part. -/
  | misplace (p : Part)
  /-- The part closes and the lexeme is offered to the one below. -/
  | close
  /-- The part changes, closes, and the lexeme is offered to the one below. -/
  | closeAs (frame : Frame)
  /-- All open flow collections close. -/
  | closeFlow
  /-- The lexeme may not stand here. -/
  | reject

/-- Starts a value with the lexeme, in the open part `f`.  The second result is `f` without the
lexemes that went to the key of a new map. -/
def startValue (f : Frame) (l : Lexeme) : Option (Frame × Frame) :=
  match l.kind with
  | .alias | .plain | .singleQuoted | .doubleQuoted => some (.flat l.kind l.offset l.indent l.text none, f)
  | .blockHeader => some (.block l.offset l.indent [l] [], f)
  | .openMap | .openSequence => some (.flow l.offset l.indent l [] [], f)
  | .sequenceItem => some (.blockSequence l.offset l.indent [] { start := [l] }, f)
  | .explicitKey =>
    let (f, start) := f.takeKeyProperties
    some (.blockMap l.offset l.indent [] { start := start ++ [l], hasExplicitKey := true }, f)
  | .mapValue =>
    let (f, start) := f.takeKeyProperties
    some (.blockMap l.offset l.indent [] { start, separator := some [l] }, f)
  | _ => none

/-- Whether a lexeme of this kind starts a key line when it starts a value. -/
def startsKeyLine (kind : Kind) : Bool :=
  kind == .explicitKey || kind == .mapValue

/-- Whether a lexeme ends what is on its line. -/
def endsLinePart (kind : Kind) : Bool :=
  match kind with
  | .comma | .documentStart | .documentEnd | .closeSequence | .closeMap | .mapValue => true
  | _ => false

/-- A part whose node is complete takes what is left of its line. -/
def lineEnd (l : Lexeme) (withTail : Frame) : Reply :=
  if endsLinePart l.kind then .close
  else if l.kind == .newline then .finish withTail
  else .becomes [withTail]

/-- Adds a lexeme to a tail. -/
def pushTail (tail : Option (List Lexeme)) (l : Lexeme) : Option (List Lexeme) :=
  some (tail.getD [] ++ [l])

/-- A document offered a lexeme. -/
def offerDocument (offset : Nat) (start : List Lexeme) (value : Option Part)
    (tail : Option (List Lexeme)) (l : Lexeme) : Reply × Bool :=
  let doc := Frame.document offset start value tail
  if value.isSome then (lineEnd l (.document offset start value (pushTail tail l)), false)
  else
    match l.kind with
    | .documentStart =>
      if allBlank start then (.becomes [.document offset (start ++ [l]) value tail], false)
      else (.close, false)
    | .anchor | .tag | .space | .comment | .newline =>
      (.becomes [.document offset (start ++ [l]) value tail], false)
    | kind =>
      match startValue doc l with
      | some (f, doc) => (.becomes [f, doc], startsKeyLine kind)
      | none => (.reject, false)

/-- A flat scalar offered a lexeme; a colon makes it the first key of a block map. -/
def offerFlat (kind : Kind) (offset indent : Nat) (text : List Char) (tail : Option (List Lexeme))
    (below : Option Frame) (l : Lexeme) : Reply × Bool :=
  match l.kind, below with
  | .mapValue, some below =>
    let (below, start) := below.takeKeyProperties
    let key := Part.flat kind offset indent text none
    (.becomesWith below
      [.blockMap offset indent [] { start, key := some key, separator := some (tail.getD [] ++ [l]) }], true)
  | _, _ => (lineEnd l (.flat kind offset indent text (pushTail tail l)), false)

/-- A block scalar offered a lexeme. -/
def offerBlock (offset indent : Nat) (header : List Lexeme) (text : List Char) (l : Lexeme) : Reply :=
  match l.kind with
  | .space | .comment | .newline => .becomes [.block offset indent (header ++ [l]) text]
  | .plain => .finish (.block offset indent header l.text)
  | _ => .close

/-- A line end or a comment in a block collection whose last entry has the value `v`: it follows a
comment on the line of the value, or it is kept for the entry to come. -/
def afterValue (v : Part) (l : Lexeme) : Part × Bool :=
  match v.tail? with
  | some tail =>
    if (tail.getLast?.map (·.kind)) == some .comment then (v.addTail [l], true) else (v, false)
  | none => (v, false)

/-- Whether a comment is indented further than its collection and nothing but white space stands
between it and the value before. -/
def isIndentedComment (start : List Lexeme) (indent : Nat) (l : Lexeme) : Bool :=
  l.kind == .comment && indent < l.indent &&
    start.all (fun s => s.kind == .newline || s.kind == .space)

/-- The entry before the last one with the lexemes of an indented comment behind its value. -/
def withComment (before : List (Entry Part)) (last : Entry Part) (indent : Nat) (l : Lexeme) :
    Option (List (Entry Part) × Entry Part) :=
  if isIndentedComment last.start indent l then
    match before with
    | prev :: older =>
      match prev.value with
      | some v =>
        if v.tail?.isSome then
          some (older, { prev with value := some (v.addTail (last.start ++ [l])) })
        else none
      | none => none
    | [] => none
  else none

/-- Splits a separator at its second line end when only blanks of small indentation follow: these
lexemes belong to the next entry. -/
def splitSeparator (indent : Nat) (sep : List Lexeme) : List Lexeme × List Lexeme :=
  let breaks := (sep.zipIdx.foldl (fun (acc : List Nat) (p : Lexeme × Nat) =>
    match p.1.kind with
    | .newline => acc ++ [p.2]
    | .space => acc
    | .comment => if indent < p.1.indent then [] else acc
    | _ => []) [])
  match breaks with
  | _ :: second :: _ => (sep.take second, sep.drop second)
  | _ => (sep, [])

/-- A colon in a block map whose last entry has an explicit key. -/
def explicitValue (o i : Nat) (before : List (Entry Part)) (last : Entry Part) (start : List Lexeme)
    (l : Lexeme) : List Frame :=
  let newMap (e : Entry Part) : Frame := .blockMap l.offset l.indent [] e
  match last.separator with
  | none =>
    if includesKind last.start .newline then
      [.blockMap o i before { last with key := none, separator := some [l] }]
    else
      let (kept, taken) := splitKeyProperties last.start
      [newMap { start := taken, separator := some [l] }, .blockMap o i before { last with start := kept }]
  | some sep =>
    if last.value.isSome then [.blockMap o i (last :: before) { separator := some [l] }]
    else if includesKind sep .mapValue then
      [newMap { start, separator := some [l] }, .blockMap o i before last]
    else if (last.key.map Part.isFlat).getD false && !includesKind sep .newline then
      let (kept, taken) := splitKeyProperties last.start
      [newMap { start := taken, key := last.key, separator := some (sep ++ [l]) },
        .blockMap o i before { last with start := kept, key := none, separator := none }]
    else [.blockMap o i before { last with separator := some (sep ++ start ++ [l]) }]

/-- A colon in a block map whose last entry has an implicit key or none. -/
def implicitValue (o i : Nat) (before : List (Entry Part)) (last : Entry Part) (atNextItem : Bool)
    (start : List Lexeme) (l : Lexeme) : List Frame :=
  match last.separator with
  | none => [.blockMap o i before { last with key := none, separator := some [l] }]
  | some sep =>
    if last.value.isSome || atNextItem then
      [.blockMap o i (last :: before) { start, separator := some [l] }]
    else if includesKind sep .mapValue then
      [.blockMap l.offset l.indent [] { separator := some [l] }, .blockMap o i before last]
    else [.blockMap o i before { last with separator := some (sep ++ [l]) }]

/-- A block map offered a lexeme that is indented enough and not blank. -/
def offerMapItem (o i : Nat) (before : List (Entry Part)) (last : Entry Part) (onKeyLine : Bool)
    (l : Lexeme) : Reply × Bool :=
  let atMapIndent := !onKeyLine && l.indent == i
  let atNextItem := atMapIndent && (last.separator.isSome || last.hasExplicitKey) && l.kind != .sequenceItem
  let (last, start) :=
    match atNextItem && last.value.isNone, last.separator with
    | true, some sep =>
      let (kept, taken) := splitSeparator i sep
      ({ last with separator := some kept }, taken)
    | _, _ => (last, [])
  let here := Frame.blockMap o i before last
  match l.kind with
  | .anchor | .tag =>
    if atNextItem || last.value.isSome then
      (.becomes [.blockMap o i (last :: before) { start := start ++ [l] }], true)
    else match last.separator with
      | some sep => (.becomes [.blockMap o i before { last with separator := some (sep ++ [l]) }], onKeyLine)
      | none => (.becomes [.blockMap o i before { last with start := last.start ++ [l] }], onKeyLine)
  | .explicitKey =>
    if last.separator.isNone && !last.hasExplicitKey then
      (.becomes [.blockMap o i before { last with start := last.start ++ [l], hasExplicitKey := true }], true)
    else if atNextItem || last.value.isSome then
      (.becomes [.blockMap o i (last :: before) { start := start ++ [l], hasExplicitKey := true }], true)
    else
      (.becomes [.blockMap l.offset l.indent [] { start := [l], hasExplicitKey := true }, here], true)
  | .mapValue =>
    (.becomes
      (if last.hasExplicitKey then explicitValue o i before last start l
       else implicitValue o i before last atNextItem start l), true)
  | .alias | .plain | .singleQuoted | .doubleQuoted =>
    let scalar := Part.flat l.kind l.offset l.indent l.text none
    if atNextItem || last.value.isSome then
      (.becomes [.blockMap o i (last :: before) { start, key := some scalar, separator := some [] }], true)
    else if last.separator.isSome then
      (.becomes [.flat l.kind l.offset l.indent l.text none, here], onKeyLine)
    else
      (.becomes [.blockMap o i before { last with key := some scalar, separator := some [] }], true)
  | kind =>
    match startValue here l with
    | some (f, here) =>
      let keyLine := onKeyLine || startsKeyLine kind
      if kind == .sequenceItem then
        if !last.hasExplicitKey && last.separator.isSome &&
            !includesKind (last.separator.getD []) .newline then
          (.misplace (.misplaced l.offset l.indent l.text), onKeyLine)
        else (.becomes [f, here], keyLine)
      else if atMapIndent then (.becomes [f, .blockMap o i (last :: before) { start }], keyLine)
      else (.becomes [f, here], keyLine)
    | none => (.closeAs here, onKeyLine)

/-- A block map offered a lexeme. -/
def offerBlockMap (o i : Nat) (before : List (Entry Part)) (last : Entry Part) (onKeyLine : Bool)
    (l : Lexeme) : Reply × Bool :=
  match l.kind with
  | .newline =>
    match last.value, last.separator with
    | some v, _ =>
      let (v, taken) := afterValue v l
      if taken then (.becomes [.blockMap o i before { last with value := some v }], false)
      else (.becomes [.blockMap o i (last :: before) { start := [l] }], false)
    | none, some sep => (.becomes [.blockMap o i before { last with separator := some (sep ++ [l]) }], false)
    | none, none => (.becomes [.blockMap o i before { last with start := last.start ++ [l] }], false)
  | .space | .comment =>
    match last.value, last.separator with
    | some _, _ => (.becomes [.blockMap o i (last :: before) { start := [l] }], onKeyLine)
    | none, some sep =>
      (.becomes [.blockMap o i before { last with separator := some (sep ++ [l]) }], onKeyLine)
    | none, none =>
      match withComment before last i l with
      | some (before, last) => (.becomes [.blockMap o i before last], onKeyLine)
      | none => (.becomes [.blockMap o i before { last with start := last.start ++ [l] }], onKeyLine)
  | _ =>
    if i ≤ l.indent then offerMapItem o i before last onKeyLine l else (.close, onKeyLine)

/-- A block sequence offered a lexeme that starts a value or does not belong to it. -/
def offerSequenceValue (o i : Nat) (before : List (Entry Part)) (last : Entry Part) (onKeyLine : Bool)
    (l : Lexeme) : Reply × Bool :=
  if i < l.indent then
    match startValue (.blockSequence o i before last) l with
    | some (f, here) => (.becomes [f, here], onKeyLine || startsKeyLine l.kind)
    | none => (.close, onKeyLine)
  else (.close, onKeyLine)

/-- A block sequence offered a lexeme. -/
def offerBlockSequence (o i : Nat) (before : List (Entry Part)) (last : Entry Part) (onKeyLine : Bool)
    (l : Lexeme) : Reply × Bool :=
  let pushed := Frame.blockSequence o i before { last with start := last.start ++ [l] }
  match l.kind with
  | .newline =>
    match last.value with
    | some v =>
      let (v, taken) := afterValue v l
      if taken then (.becomes [.blockSequence o i before { last with value := some v }], onKeyLine)
      else (.becomes [.blockSequence o i (last :: before) { start := [l] }], onKeyLine)
    | none => (.becomes [pushed], onKeyLine)
  | .space | .comment =>
    match last.value with
    | some _ => (.becomes [.blockSequence o i (last :: before) { start := [l] }], onKeyLine)
    | none =>
      match withComment before last i l with
      | some (before, last) => (.becomes [.blockSequence o i before last], onKeyLine)
      | none => (.becomes [pushed], onKeyLine)
  | .anchor | .tag =>
    if last.value.isSome || l.indent ≤ i then offerSequenceValue o i before last onKeyLine l
    else (.becomes [pushed], onKeyLine)
  | .sequenceItem =>
    if l.indent != i then offerSequenceValue o i before last onKeyLine l
    else if last.value.isSome || includesKind last.start .sequenceItem then
      (.becomes [.blockSequence o i (last :: before) { start := [l] }], onKeyLine)
    else (.becomes [pushed], onKeyLine)
  | _ => offerSequenceValue o i before last onKeyLine l

/-- A flow collection that is not closed yet offered a lexeme. -/
def offerOpenFlow (o i : Nat) (opening : Lexeme) (entries : List (Entry Part)) (onKeyLine : Bool)
    (l : Lexeme) : Reply × Bool :=
  let here (es : List (Entry Part)) : Reply × Bool := (.becomes [.flow o i opening es []], onKeyLine)
  match l.kind with
  | .comma | .explicitKey =>
    match entries with
    | e :: es =>
      if e.separator.isSome then here ({ start := [l] } :: entries)
      else here ({ e with start := e.start ++ [l] } :: es)
    | [] => here [{ start := [l] }]
  | .mapValue =>
    match entries with
    | e :: es =>
      if e.value.isSome then here ({ separator := some [l] } :: entries)
      else match e.separator with
        | some sep => here ({ e with separator := some (sep ++ [l]) } :: es)
        | none => here ({ e with key := none, separator := some [l] } :: es)
    | [] => here [{ separator := some [l] }]
  | .space | .comment | .newline | .anchor | .tag =>
    match entries with
    | e :: es =>
      if e.value.isSome then here ({ start := [l] } :: entries)
      else match e.separator with
        | some sep => here ({ e with separator := some (sep ++ [l]) } :: es)
        | none => here ({ e with start := e.start ++ [l] } :: es)
    | [] => here [{ start := [l] }]
  | .alias | .plain | .singleQuoted | .doubleQuoted =>
    let scalar := Part.flat l.kind l.offset l.indent l.text none
    match entries with
    | e :: es =>
      if e.value.isSome then here ({ key := some scalar, separator := some [] } :: entries)
      else if e.separator.isSome then
        (.becomes [.flat l.kind l.offset l.indent l.text none, .flow o i opening entries []], onKeyLine)
      else here ({ e with key := some scalar, separator := some [] } :: es)
    | [] => here [{ key := some scalar, separator := some [] }]
  | .closeMap | .closeSequence => (.becomes [.flow o i opening entries [l]], onKeyLine)
  | kind =>
    match startValue (.flow o i opening entries []) l with
    | some (f, here) => (.becomes [f, here], onKeyLine || startsKeyLine kind)
    | none => (.close, onKeyLine)

/-- A flow collection whose closing bracket has been read offered a lexeme. -/
def offerClosedFlow (o i : Nat) (opening : Lexeme) (entries : List (Entry Part)) (tail : List Lexeme)
    (below : Option Frame) (onKeyLine : Bool) (l : Lexeme) : Reply × Bool :=
  let closed := Frame.flow o i opening entries (tail ++ [l])
  let closesToMap : Bool :=
    match below with
    | some (.blockMap _ mapIndent _ last) =>
      (l.kind == .mapValue && mapIndent == i) || (l.kind == .newline && last.separator.isNone)
    | _ => false
  let inFlow : Bool := match below with
    | some (.flow ..) => true
    | _ => false
  if closesToMap then (.close, onKeyLine)
  else if l.kind == .mapValue && !inFlow then
    match below with
    | some below =>
      let (below, start) := below.takeKeyProperties
      let key := Part.flow o i opening (flowEntries opening entries.reverse) (tail.take 1)
      (.becomesWith below
        [.blockMap o i []
          { start, key := some key, separator := some (tail.drop 1 ++ [l]) }], true)
    | none => (.close, onKeyLine)
  else (lineEnd l closed, if l.kind == .newline then false else onKeyLine)

/-- What the innermost open part does with a lexeme, and whether a key line goes on. -/
def Frame.offer (f : Frame) (below : Option Frame) (onKeyLine : Bool) (l : Lexeme) : Reply × Bool :=
  match f with
  | .document o start v tail =>
    let (reply, keyLine) := offerDocument o start v tail l
    (reply, if v.isSome && l.kind == .newline then false else onKeyLine || keyLine)
  | .documentEnd o t tail =>
    if l.kind == .contentStart then (.becomes [f], onKeyLine)
    else
      let f := Frame.documentEnd o t (pushTail tail l)
      (if l.kind == .newline then .finish f else .becomes [f], onKeyLine)
  | .flat k o i t tail =>
    let (reply, keyLine) := offerFlat k o i t tail below l
    (reply, if l.kind == .newline then false else onKeyLine || keyLine)
  | .block o i h t => (offerBlock o i h t l, onKeyLine)
  | .blockMap o i before last => offerBlockMap o i before last onKeyLine l
  | .blockSequence o i before last => offerBlockSequence o i before last onKeyLine l
  | .flow o i opening es tail =>
    if l.kind == .flowCut then (.closeFlow, onKeyLine)
    else if tail.isEmpty then offerOpenFlow o i opening es onKeyLine l
    else offerClosedFlow o i opening es tail below onKeyLine l

namespace Grouping

/-- A lexeme when no part is open. -/
def offerTop (g : Grouping) (l : Lexeme) : Grouping :=
  match l.kind with
  | .directive => { g with done := .directive l :: g.done }
  | .byteOrderMark | .space | .comment | .newline => g
  | .contentStart => { g with stack := [.document l.offset [] none none] }
  | .documentStart => { g with stack := [.document l.offset [l] none none] }
  | .documentEnd => { g with stack := [.documentEnd l.offset l.text none] }
  | _ => { g with done := .stray l :: g.done }

/-- Closes the innermost part, and the flow collections below it. -/
def closeFlows (g : Grouping) : Nat → Grouping
  | 0 => g
  | n + 1 =>
    let g := g.close
    match g.stack with
    | .flow .. :: _ => g.closeFlows n
    | _ => g

/-- Offers a lexeme to the innermost open part until one takes it. -/
def offer (g : Grouping) (l : Lexeme) : Grouping :=
  match h : g.stack with
  | [] => g.offerTop l
  | f :: rest =>
    let (reply, onKeyLine) := f.offer rest.head? g.onKeyLine l
    let g' := { g with onKeyLine }
    match reply with
    | .becomes frames => { g' with stack := frames ++ rest }
    | .becomesWith below frames => { g' with stack := frames ++ below :: rest.drop 1 }
    | .finish f => { g' with stack := f :: rest }.close
    | .misplace p =>
      let (f, onKeyLine) := f.attach p onKeyLine
      { g' with stack := f :: rest, onKeyLine }
    | .close => g'.close.offer l
    | .closeAs f => { g' with stack := f :: rest }.close.offer l
    | .closeFlow => g'.closeFlows g.stack.length
    | .reject => { g' with done := .strayInDocument l :: g'.done }
termination_by g.stack.length
decreasing_by
  all_goals
    rw [length_close]
    simp [h]

/-- Adds a piece of the text. -/
def add (g : Grouping) (p : Piece) : Grouping :=
  let l : Lexeme := ⟨p.kind, p.text, g.offset, g.indent⟩
  let next := g.offset + l.length
  match p.kind with
  | .unknown => { g with done := .unknown l :: g.done, offset := next }
  | .plain =>
    let inBlock := match g.stack with
      | .block .. :: _ => true
      | _ => false
    let g := { g with atLineStart := false }.offer l
    -- The lines of a block scalar take their last line end with them.
    if inBlock then { g with atLineStart := true, indent := 0, offset := next }
    else { g with offset := next }
  | _ =>
    let inDocumentEnd := match g.stack with
      | .documentEnd .. :: _ => true
      | _ => false
    let g :=
      if p.kind == .documentEnd && !inDocumentEnd then
        { g.closeAll with stack := [.documentEnd l.offset l.text none] }
      else g.offer l
    match p.kind with
    | .newline => { g with atLineStart := true, indent := 0, offset := next }
    | .space =>
      let isIndent := g.atLineStart && p.text.head? == some ' '
      { g with offset := next, indent := if isIndent then g.indent + l.length else g.indent }
    | .explicitKey | .mapValue | .sequenceItem =>
      let g := if g.atLineStart then { g with indent := g.indent + l.length } else g
      { g with offset := next }
    | .contentStart | .flowCut => g
    | _ => { g with atLineStart := false, offset := next }

end Grouping

/-- What stands at the outermost level of a text with the given pieces. -/
def layoutOf (pieces : List Piece) : List TopLevel :=
  (pieces.foldl Grouping.add Grouping.start).closeAll.done.reverse

end Yaml

end EntitySchema
