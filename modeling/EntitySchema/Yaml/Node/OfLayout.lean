import EntitySchema.Yaml.BlockText
import EntitySchema.Yaml.Folding
import EntitySchema.Yaml.Layout.Basic
import EntitySchema.Yaml.Node.Basic
import EntitySchema.Yaml.Node.Properties
import EntitySchema.Yaml.Tag

/-!
# The nodes of a layout

Every part of a layout becomes a node; whatever is wrong with a part is reported in the order of the
text, and the node is there nevertheless.  The keys of a map are compared with all earlier keys of the
same map when their entry is added.
-/

namespace EntitySchema

namespace Yaml

/-! ### Facts about parts -/

/-- The problem of a part: on its text if it is a scalar, else on its first unit. -/
def Part.problem (fault : Fault) (p : Part) : Problem :=
  match p with
  | .flat _ o _ t _ | .block o _ _ t | .misplaced o _ t => ⟨fault, o, o + Text.units t, false⟩
  | p => Problem.at fault p.offset

/-- The problem of the extent of a node. -/
def Node.problem (fault : Fault) (n : Node) : Problem :=
  ⟨fault, n.extent.start, n.extent.stop, false⟩

/-- The indentation of a part, where it has one of its own. -/
def Part.indent? : Part → Option Nat
  | .flat _ _ i .. | .block _ i .. | .blockMap _ i .. | .blockSequence _ i .. | .flow _ i .. => some i
  | .misplaced .. => none

/-- The text of a part starts with a colon. -/
def Part.startsWithColon : Part → Bool
  | .flat _ _ _ t _ | .block _ _ _ t | .misplaced _ _ t => t.head? == some ':'
  | _ => false

mutual

/-- Whether a part spans more than one line. -/
def Part.isMultiline : Part → Bool
  | .flat _ _ _ text tail => text.contains '\n' || includesKind (tail.getD []) .newline
  | .flow _ _ _ entries _ => entriesMultiline entries
  | _ => true

/-- Whether one of the entries of a flow collection spans more than one line. -/
def entriesMultiline : List (Entry Part) → Bool
  | [] => false
  | ⟨start, key, separator, value, _⟩ :: rest =>
    includesKind start .newline || includesKind (separator.getD []) .newline ||
      (match key with
        | some p => p.isMultiline
        | none => false) ||
      (match value with
        | some p => p.isMultiline
        | none => false) ||
      entriesMultiline rest

end

/-- Where lexemes stand in front of the part `next`, or of the lexeme `fallback`. -/
def propertyContext (indicator : Kind) (flowName : Option String) (next : Option Part)
    (fallback : Option Lexeme) (offset parentIndent : Nat) (atLineStart : Bool) : PropertyContext :=
  let base : PropertyContext := { indicator, flowName, offset, parentIndent, atLineStart }
  match next with
  | some p =>
    { base with
        nextKind := some .unknown
        nextOffset := p.offset
        nextIsEmpty := match p with
          | .flat .plain _ _ [] _ => true
          | _ => false
        nextIsFlow := match p with
          | .flow .. => true
          | _ => false
        nextIsBlockCollection := p.isBlockCollection }
  | none =>
    match fallback with
    | some l => { base with nextKind := some l.kind, nextOffset := l.offset }
    | none => base

/-! ### Scalars -/

/-- The problem of an anchor without a name. -/
def anchorProblems (props : Properties) : List Problem :=
  match props.anchor with
  | some a => if a.text.length ≤ 1 then [Problem.of .emptyAnchor a] else []
  | none => []

/-- The value of a scalar with the given text: by its tag, by its spelling if it is plain, or the
text itself. -/
def scalarValue (handles : TagHandles) (props : Properties) (isPlain : Bool) (cs : List Char) :
    Scalar × List Problem :=
  let untagged := if isPlain then Scalar.ofPlain cs else .text (String.ofList cs)
  match props.tag with
  | none => (untagged, [])
  | some t =>
    let (name, faults) := tagName handles t.text
    let problems := faults.map fun f => Problem.of f t
    match name with
    | some name =>
      let (v, faults) := taggedScalar name cs
      (v, problems ++ faults.map fun f => (Problem.of f t).warning)
    | none => (untagged, problems)

/-- The null that stands for a node that is not there. -/
def emptyNode (handles : TagHandles) (props : Properties) (position : Nat) : Node × List Problem :=
  let (v, problems) := scalarValue handles props true []
  (.scalar v false ⟨position, position, if props.hasComment then props.stop else position⟩,
    problems ++ anchorProblems props)

/-- The node of an alias or a flat scalar. -/
def flatNode (handles : TagHandles) (props : Properties) (kind : Kind) (offset : Nat)
    (text : List Char) (tail : Option (List Lexeme)) : Node × List Problem :=
  let stop := offset + Text.units text
  let (last, tailProblems) := readTail stop true (tail.getD [])
  match kind with
  | .alias =>
    let empty := if text.length ≤ 1 then [Problem.at .emptyAlias offset] else []
    let colon :=
      if text.getLast? == some ':' then [(Problem.at .ambiguousAlias (stop - 1)).warning] else []
    let props :=
      if props.anchor.isSome || props.tag.isSome then [⟨.aliasWithProperties, offset, stop, false⟩] else []
    (.alias ⟨offset, stop, last⟩, empty ++ colon ++ tailProblems ++ props)
  | kind =>
    let (value, textProblems) :=
      match kind with
      | .singleQuoted => singleQuotedText offset text
      | .doubleQuoted => doubleQuotedText offset text
      | _ => plainText offset text
    let (v, valueProblems) := scalarValue handles props (kind == .plain) value
    (.scalar v (kind != .plain) ⟨offset, stop, last⟩,
      textProblems ++ tailProblems ++ valueProblems ++ anchorProblems props)

/-- The node of a block scalar. -/
def blockNode (handles : TagHandles) (props : Properties) (atRoot : Bool) (offset indent : Nat)
    (header : List Lexeme) (text : List Char) : Node × List Problem :=
  let (value, stop, textProblems) := blockText offset indent header text atRoot
  let (v, valueProblems) := scalarValue handles props false value
  (.scalar v false ⟨offset, stop, stop⟩, textProblems ++ valueProblems ++ anchorProblems props)

/-- What is wrong with the tag of a collection. -/
def collectionTagProblems (handles : TagHandles) (props : Properties) (isMap : Bool) :
    List Problem × List Problem :=
  match props.tag with
  | none => ([], [])
  | some t =>
    let (name, faults) := tagName handles t.text
    let unresolved :=
      match name with
      | some name => if isCollectionTag name isMap then [] else [(Problem.of (.unresolvedTag name) t).warning]
      | none => []
    (faults.map fun f => Problem.of f t, unresolved)

/-- The problem of a block sequence that starts on the line of its anchor or tag. -/
def sequencePropertyProblems (props : Properties) : List Problem :=
  let lastProperty :=
    match props.anchor, props.tag with
    | some a, some t => some (if t.offset < a.offset then a else t)
    | some a, none => some a
    | none, t => t
  match lastProperty with
  | none => []
  | some p =>
    match props.newlineAfter with
    | some nl => if nl.offset < p.offset then [Problem.of .missingNewlineAfterProperties p] else []
    | none => [Problem.of .missingNewlineAfterProperties p]

/-! ### Collections -/

/-- What has been built of a block map. -/
structure MapBuild where
  entries : List (Node × Option Node)
  /-- The offset behind the last entry. -/
  offset : Nat
  commentEnd : Option Nat
  problems : List Problem

/-- What has been built of a flow collection. -/
structure FlowBuild where
  entries : List (Node × Option Node)
  items : List Node
  offset : Nat
  problems : List Problem

/-- What has been built of a block sequence. -/
structure SequenceBuild where
  items : List Node
  offset : Nat
  commentEnd : Option Nat
  problems : List Problem

/-- The problem of a key that an earlier entry already has. -/
def duplicateProblem (entries : List (Node × Option Node)) (key : Node) (offset : Nat) : List Problem :=
  if entries.any (fun e => e.1.sameKey key) then [Problem.at .duplicateKey offset] else []

/-- What is wrong with the place of a key in a block map, in front of the key itself. -/
def keyPlaceProblems (indent offset : Nat) (props : Properties) (key : Option Part) : List Problem :=
  match props.found with
  | some l => if l.indent != indent then [Problem.at .columnOfEntry offset] else []
  | none =>
    match key with
    | some (.blockSequence ..) => [Problem.at .sequenceAsKey offset]
    | some p =>
      if p.indent?.isSome && p.indent? != some indent then [Problem.at .columnOfEntry offset] else []
    | none => []

/-- The problem of an implicit key over several lines. -/
def multilineProblems (props : Properties) (start : List Lexeme) (key : Option Part) : List Problem :=
  if props.found.isSome then []
  else if props.newlineAfter.isSome || (key.map Part.isMultiline).getD false then
    match key with
    | some p => [p.problem .multilineKey]
    | none => (start.getLast?.map (Problem.of .multilineKey)).toList
  else []

/-- What is wrong between a key of a block map and its value. -/
def valuePlaceProblems (keyProps valueProps : Properties) (keyNode : Node) (value : Option Part) :
    List Problem :=
  match valueProps.found with
  | none => if keyProps.found.isNone then [keyNode.problem .keyWithoutValue] else []
  | some colon =>
    if keyProps.found.isSome then []
    else
      let nested :=
        match value with
        | some (.blockMap ..) =>
          if valueProps.hasNewline then [] else [Problem.at .nestedCompactMap valueProps.stop]
        | _ => []
      nested ++ if keyProps.start + 1024 < colon.offset then [keyNode.problem .longKey] else []

/-- Whether an entry of a block map is no entry but white space and comments. -/
def isBlankEntry (props : Properties) (separator : Option (List Lexeme)) : Bool :=
  props.found.isNone && props.anchor.isNone && props.tag.isNone && separator.isNone

/-- The name of a flow collection in the texts of problems. -/
def flowName (isMap : Bool) : String :=
  if isMap then "flow map" else "flow sequence"

/-- What is wrong with the closing bracket of a flow collection, and what follows it. -/
def closeFlow (isMap atRoot : Bool) (offset : Nat) (tail : List Lexeme) : Nat × Nat × List Problem :=
  let (stop, rest, problems) :=
    match tail with
    | [] => (offset, [], [Problem.at (.unclosedFlow isMap atRoot) offset])
    | l :: ls =>
      if l.text == (closingBracket isMap).toList then (l.stop, ls, [])
      else (offset, if l.length == 1 then ls else l :: ls, [Problem.at (.unclosedFlow isMap atRoot) offset])
  let (last, tailProblems) := readTail stop true rest
  (stop, last, problems ++ tailProblems)

/-- What is wrong with an implicit pair of a flow sequence. -/
def flowPairProblems (isMap : Bool) (props valueProps : Properties) (separator : List Lexeme) :
    List Problem :=
  match valueProps.found with
  | none => []
  | some colon =>
    if isMap || props.found.isSome then []
    else
      let before := separator.takeWhile fun l => l.offset != colon.offset
      let broken :=
        match before.find? (·.kind == .newline) with
        | some nl => [Problem.of .multilineFlowKey nl]
        | none => []
      broken ++ if props.start + 1024 < colon.offset then [Problem.of .longFlowKey colon] else []

/-- The problem of a value in a flow collection that no colon separates from its key. -/
def missingColonProblems (isMap : Bool) (valueProps : Properties) (value : Option Part) : List Problem :=
  match valueProps.found, value with
  | none, some p =>
    if p.startsWithColon then [p.problem (.missingSpaceAfterColon (flowName isMap))]
    else [Problem.at (.missingCommaOrColon (flowName isMap)) valueProps.start]
  | _, _ => []

/-- The problem of a block collection inside a flow collection. -/
def blockInFlowProblems (p : Option Part) (n : Node) : List Problem :=
  if (p.map Part.isBlockCollection).getD false then [n.problem .blockInFlow] else []

/-- What is wrong with the comma in front of an item. -/
def commaProblems (isMap isFirst : Bool) (props : Properties) : List Problem :=
  match isFirst, props.comma with
  | true, some l => [Problem.of (.unexpectedComma (flowName isMap)) l]
  | false, none => [Problem.at (.missingComma (flowName isMap)) props.start]
  | _, _ => []

/-- What is wrong with an item of a flow collection that has nothing but commas, white space and
comments. -/
def emptyItemProblems (isMap isFirst isLast : Bool) (props : Properties) : List Problem :=
  match isFirst, props.comma with
  | true, some l => [Problem.of (.unexpectedComma (flowName isMap)) l]
  | _, _ =>
    if isLast then [] else [Problem.at (.unexpectedEmptyItem (flowName isMap)) props.start]

/-- Adds a pair to a flow collection: to the entries of a map, or as a map of its own to the items of
a sequence. -/
def FlowBuild.addPair (b : FlowBuild) (isMap : Bool) (keyStart : Nat) (key : Node) (value : Option Node)
    (offset : Nat) (problems : List Problem) : FlowBuild :=
  if isMap then
    { b with
        entries := b.entries ++ [(key, value)]
        offset
        problems := b.problems ++ problems ++ duplicateProblem b.entries key keyStart }
  else
    let last := (value.getD key).extent
    { b with
        items := b.items ++ [.map [(key, value)] ⟨key.extent.start, last.stop, last.last⟩]
        offset
        problems := b.problems ++ problems }

mutual

/-- The node of a part with the given properties. -/
def compose (handles : TagHandles) (atRoot : Bool) (props : Properties) : Part → Node × List Problem
  | .flat kind offset _ text tail => flatNode handles props kind offset text tail
  | .block offset indent header text => blockNode handles props atRoot offset indent header text
  | .misplaced offset _ text =>
    let (n, problems) := emptyNode handles props offset
    (n, ⟨.misplacedSequence, offset, offset + Text.units text, false⟩ :: problems ++ anchorProblems props)
  | .blockMap offset indent entries =>
    let (tagProblems, unresolved) := collectionTagProblems handles props true
    let b := composeMap handles indent entries ⟨[], offset, none, []⟩
    (.map b.entries ⟨offset, b.offset, b.commentEnd.getD b.offset⟩,
      tagProblems ++ unresolved ++ b.problems ++ anchorProblems props)
  | .blockSequence offset indent entries =>
    let (tagProblems, unresolved) := collectionTagProblems handles props false
    let b := composeSequence handles indent entries ⟨[], offset, none, []⟩
    (.sequence b.items ⟨offset, b.offset, b.commentEnd.getD b.offset⟩,
      tagProblems ++ sequencePropertyProblems props ++ unresolved ++ b.problems ++ anchorProblems props)
  | .flow offset indent opening entries tail =>
    let isMap := opening.kind == .openMap
    let (tagProblems, unresolved) := collectionTagProblems handles props isMap
    let b := composeFlow handles isMap indent true entries ⟨[], [], offset + opening.length, []⟩
    let (stop, last, closeProblems) := closeFlow isMap atRoot b.offset tail
    let extent : Extent := ⟨offset, stop, last⟩
    (if isMap then .map b.entries extent else .sequence b.items extent,
      tagProblems ++ unresolved ++ b.problems ++ closeProblems ++ anchorProblems props)

/-- The node of a part, or a null at the given position. -/
def composeOr (handles : TagHandles) (props : Properties) (position : Nat) :
    Option Part → Node × List Problem
  | some p => compose handles false props p
  | none => emptyNode handles props position

/-- Adds the entries of a block map. -/
def composeMap (handles : TagHandles) (indent : Nat) : List (Entry Part) → MapBuild → MapBuild
  | [], b => b
  | ⟨start, key, separator, value, _⟩ :: rest, b =>
    let (keyProps, keyPropProblems) := readProperties
      (propertyContext .explicitKey none key (separator.bind List.head?) b.offset indent true) start
    let place := keyPlaceProblems indent b.offset keyProps key
    if isBlankEntry keyProps separator then
      composeMap handles indent rest
        { b with commentEnd := some keyProps.stop, problems := b.problems ++ keyPropProblems ++ place }
    else
      let multiline := multilineProblems keyProps start key
      let (keyNode, keyProblems) := composeOr handles keyProps (emptyPosition keyProps.stop start) key
      let duplicate := duplicateProblem b.entries keyNode keyProps.stop
      let separator := separator.getD []
      let keyIsOpen := match key with
        | none => true
        | some (.block ..) => true
        | some _ => false
      let (valueProps, valuePropProblems) := readProperties
        (propertyContext .mapValue none value none keyNode.extent.last indent keyIsOpen) separator
      let valuePlace := valuePlaceProblems keyProps valueProps keyNode value
      let (valueNode, valueProblems) :=
        composeOr handles valueProps (emptyPosition valueProps.stop separator) value
      let problems := b.problems ++ keyPropProblems ++ place ++ multiline ++ keyProblems ++ duplicate ++
        valuePropProblems ++ valuePlace
      composeMap handles indent rest
        (if valueProps.found.isSome then
          { b with
              entries := b.entries ++ [(keyNode, some valueNode)]
              offset := valueNode.extent.last
              problems := problems ++ valueProblems }
        else
          { b with
              entries := b.entries ++ [(keyNode, none)]
              offset := valueProps.stop
              problems })

/-- Adds the items of a block sequence. -/
def composeSequence (handles : TagHandles) (indent : Nat) :
    List (Entry Part) → SequenceBuild → SequenceBuild
  | [], b => b
  | ⟨start, _, _, value, _⟩ :: rest, b =>
    let (props, propProblems) := readProperties
      (propertyContext .sequenceItem none value none b.offset indent true) start
    let isBlank := props.found.isNone && props.anchor.isNone && props.tag.isNone && value.isNone
    if isBlank then
      composeSequence handles indent rest
        { b with commentEnd := some props.stop, problems := b.problems ++ propProblems }
    else
      let place :=
        if props.found.isSome then []
        else match value with
          | some (.blockSequence ..) => [Problem.at .columnOfItem props.stop]
          | _ => [Problem.at .itemWithoutIndicator b.offset]
      let (node, problems) := composeOr handles props (emptyPosition props.stop start) value
      composeSequence handles indent rest
        { b with
            items := b.items ++ [node]
            offset := node.extent.last
            problems := b.problems ++ propProblems ++ place ++ problems }

/-- Adds the entries of a flow collection. -/
def composeFlow (handles : TagHandles) (isMap : Bool) (indent : Nat) (isFirst : Bool) :
    List (Entry Part) → FlowBuild → FlowBuild
  | [], b => b
  | ⟨start, key, separator, value, _⟩ :: rest, b =>
    let (props, propProblems) := readProperties
      (propertyContext .explicitKey (some (flowName isMap)) key (separator.bind List.head?) b.offset indent
        false) start
    let isBlank := props.found.isNone && props.anchor.isNone && props.tag.isNone &&
      separator.isNone && value.isNone
    if isBlank then
      composeFlow handles isMap indent false rest
        { b with
            offset := props.stop
            problems := b.problems ++ propProblems ++ emptyItemProblems isMap isFirst rest.isEmpty props }
    else
      let multiline :=
        match isMap || props.found.isSome, key with
        | false, some p => if p.isMultiline then [p.problem .multilineFlowKey] else []
        | _, _ => []
      let before := b.problems ++ propProblems ++ multiline ++ commaProblems isMap isFirst props
      if !isMap && separator.isNone && props.found.isNone then
        let (node, problems) := composeOr handles props props.stop value
        composeFlow handles isMap indent false rest
          { b with
              items := b.items ++ [node]
              offset := node.extent.last
              problems := before ++ problems ++ blockInFlowProblems value node }
      else
        let (keyNode, keyProblems) := composeOr handles props (emptyPosition props.stop start) key
        let lexemes := separator.getD []
        let (valueProps, valuePropProblems) := readProperties
          (propertyContext .mapValue (some (flowName isMap)) value none keyNode.extent.last indent false)
          lexemes
        let (valueNode, valueProblems) :=
          composeOr handles valueProps (emptyPosition valueProps.stop lexemes) value
        let hasValue := value.isSome || valueProps.found.isSome
        let problems := keyProblems ++ blockInFlowProblems key keyNode ++ valuePropProblems ++
          flowPairProblems isMap props valueProps lexemes ++ missingColonProblems isMap valueProps value
        let b := { b with problems := before }
        composeFlow handles isMap indent false rest
          (if hasValue then
            b.addPair isMap props.stop keyNode (some valueNode) valueNode.extent.last
              (problems ++ valueProblems ++ blockInFlowProblems value valueNode)
          else b.addPair isMap props.stop keyNode none valueProps.stop problems)

end

end Yaml

end EntitySchema
