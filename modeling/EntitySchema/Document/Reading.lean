import EntitySchema.Document.Basic
import EntitySchema.Yaml.Document

/-!
# Reading model documents

A text is read as YAML; its problems become issues, and its nodes become the nodes of a model
document.  Aliases and keys that are no scalars are not supported: an alias becomes a null, an entry
with such a key is left out.  A document whose content is no mapping is not read.
-/

namespace EntitySchema

/-- What is needed of a text to turn its nodes into nodes of a model document. -/
structure TextContext where
  text : List Char
  lineStarts : List Nat
  lines : List (List Char)

/-- The context of a text. -/
def TextContext.of (text : List Char) : TextContext :=
  ⟨text, Text.lineStarts text, Text.splitLines text⟩

/-- The span of a range of offsets. -/
def TextContext.spanOf (c : TextContext) (start stop : Nat) : Span :=
  spanAt c.lineStarts start stop

/-- The line of a documentation comment without its marker and one blank behind it. -/
def docLine? (line : List Char) : Option (List Char) :=
  match Text.trim line with
  | '#' :: '#' :: '#' :: ' ' :: rest => some rest
  | '#' :: '#' :: '#' :: rest => some rest
  | _ => none

/-- The documentation comments right above the line of an offset. -/
def TextContext.documentation (c : TextContext) (offset : Nat) : List String :=
  let line := (Text.lineColumn c.lineStarts offset).1
  let above := (c.lines.take line).reverse
  ((above.map docLine?).takeWhile Option.isSome).reverse.filterMap fun l => l.map String.ofList

/-- The issue of a YAML problem. -/
def yamlIssue (c : TextContext) (p : Yaml.Problem) : Issue :=
  { message := p.fault.message
    code := if p.isWarning then .yamlWarning else .yamlSyntax
    category := .document
    span := some (c.spanOf p.start p.stop)
    level := if p.isWarning then .warn else .error }

/-- The issue of an alias. -/
def aliasIssue (span : Span) : Issue :=
  { message := "YAML aliases are not supported in model files."
    code := .unsupportedAlias, category := .document, span := some span }

/-- The issue of a key that is no scalar. -/
def keyIssue (span : Span) : Issue :=
  { message := "Only scalar keys are supported in model files."
    code := .unsupportedKey, category := .document, span := some span }

/-- The issue of a document that is no mapping. -/
def topLevelIssue (span : Option Span) : Issue :=
  { message := "The top level object in the model file must be a Map."
    code := .invalidTopLevel, category := .document, span }

/-- The extent of a YAML node. -/
def rangeOf (e : Yaml.Extent) : Range := ⟨e.start, e.stop⟩

/-- A null. -/
def nullNode (range : Range) (span : Span) : DocNode :=
  .scalar .null (some range.start) range span

/-- A scalar.  The value stands in the text as it is unless escapes or line ends have changed it. -/
def scalarNode (c : TextContext) (value : Scalar) (isQuoted : Bool) (range : Range) (span : Span) :
    DocNode :=
  let start := if isQuoted then range.start + 1 else range.start
  let verbatim :=
    match value with
    | .text s => s.toList.isPrefixOf (Text.dropUnits start c.text)
    | _ => true
  .scalar value (if verbatim then some start else none) range span

mutual

/-- The node of a YAML node. -/
def docNode (c : TextContext) : Yaml.Node → DocNode × List Issue
  | .scalar value isQuoted e =>
    let range := rangeOf e
    (scalarNode c value isQuoted range (c.spanOf range.start range.stop), [])
  | .alias e =>
    let range := rangeOf e
    let span := c.spanOf range.start range.stop
    (nullNode range span, [aliasIssue span])
  | .map entries e =>
    let range := rangeOf e
    let (es, issues) := docEntries c entries
    (.mapping ⟨es, range, c.spanOf range.start range.stop⟩, issues)
  | .sequence items e =>
    let range := rangeOf e
    let (xs, issues) := docItems c items
    (.sequence xs range (c.spanOf range.start range.stop), issues)

/-- The entries of a mapping. -/
def docEntries (c : TextContext) : List (Yaml.Node × Option Yaml.Node) → List MappingEntry × List Issue
  | [] => ([], [])
  | (key, value) :: rest =>
    let (more, issues) := docEntries c rest
    let range := rangeOf key.extent
    let span := c.spanOf range.start range.stop
    match key with
    | .scalar v _ _ =>
      let (node, valueIssues) :=
        match value with
        | some n => docNode c n
        | none => (nullNode ⟨range.stop, range.stop⟩ (c.spanOf range.stop range.stop), [])
      (⟨v.toText, range, span, node, c.documentation range.start⟩ :: more, valueIssues ++ issues)
    | _ => (more, keyIssue span :: issues)

/-- The items of a sequence. -/
def docItems (c : TextContext) : List Yaml.Node → List SequenceItem × List Issue
  | [] => ([], [])
  | n :: rest =>
    let (node, issues) := docNode c n
    let (more, moreIssues) := docItems c rest
    (⟨node, c.documentation node.range.start⟩ :: more, issues ++ moreIssues)

end

/-- Reads a model document.  The warnings come first, then the errors, then what is not supported. -/
def readDocument (input : DocumentInput) : Option ParsedDocument × List Issue :=
  let text := input.yaml.toList
  let c := TextContext.of text
  let document := Yaml.read text
  let problems := (document.warnings ++ document.errors).map (yamlIssue c)
  match document.content with
  | some (.map entries e) =>
    let range := rangeOf e
    let (es, issues) := docEntries c entries
    (some ⟨input, ⟨es, range, c.spanOf range.start range.stop⟩, c.lineStarts⟩, problems ++ issues)
  | other =>
    let span := other.map fun n => c.spanOf n.extent.start n.extent.stop
    (none, problems ++ if document.errors.isEmpty then [topLevelIssue span] else [])

end EntitySchema
