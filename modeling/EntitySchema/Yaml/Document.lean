import EntitySchema.Yaml.Lexeme.OfText
import EntitySchema.Yaml.Layout.OfLexemes
import EntitySchema.Yaml.Node.OfLayout
import EntitySchema.Text.Blank

/-!
# Reading a document

A text should hold one document.  Of several documents the first one counts and the second one is a
problem.  What stands between documents belongs to the document before it, or to the next one if there
is none.
-/

namespace EntitySchema

namespace Yaml

/-- A document: its content if it has any, its extent, and its problems in the order in which they are
found. -/
structure Document where
  content : Option Node
  start : Nat
  stop : Nat
  problems : List Problem

/-- The problems that make the text invalid. -/
def Document.errors (d : Document) : List Problem :=
  d.problems.filter (!·.isWarning)

/-- The problems that do not. -/
def Document.warnings (d : Document) : List Problem :=
  d.problems.filter (·.isWarning)

/-- Splits a text at runs of blanks and tabs. -/
def directiveParts (cs : List Char) : List (List Char) :=
  let rec words : List Char → List (List Char)
    | [] => [[]]
    | c :: cs =>
      match words cs with
      | [] => [[c]]
      | w :: ws => if isInline c then [] :: w :: ws else (c :: w) :: ws
  (words (Text.trim cs)).filter (!·.isEmpty)

/-- Whether a text is a version number. -/
def isVersion (cs : List Char) : Bool :=
  match cs.dropWhile Number.isDigit with
  | '.' :: minor => cs.head?.any Number.isDigit && Scalar.allOf Number.isDigit minor
  | _ => false

/-- The handles after a directive, and what is wrong with the directive. -/
def readDirective (handles : TagHandles) (l : Lexeme) : TagHandles × List Problem :=
  let report (fault : Fault) (shift : Nat) : Problem := ⟨fault, l.offset + shift, l.stop, false⟩
  match directiveParts l.text with
  | [] => (handles, [])
  | name :: parts =>
    if name == "%TAG".toList then
      let wrong := if parts.length == 2 then [] else [report .tagDirectiveParts 0]
      match parts with
      | handle :: meaning :: _ =>
        let handles := handles.filter (·.1 != String.ofList handle)
        ((String.ofList handle, String.ofList meaning) :: handles, wrong)
      | _ => (handles, wrong)
    else if name == "%YAML".toList then
      match parts with
      | [version] =>
        if version == "1.1".toList || version == "1.2".toList then (handles, [])
        else
          let p := report (.unsupportedVersion version) 6
          (handles, [if isVersion version then p.warning else p])
      | _ => (handles, [report .versionDirectiveParts 0])
    else (handles, [(report (.unknownDirective name) 0).warning])

/-- The document of a layout. -/
def composeDocument (handles : TagHandles) (offset : Nat) (start : List Lexeme) (value : Option Part)
    (tail : Option (List Lexeme)) : Document :=
  let (props, propProblems) := readProperties
    (propertyContext .documentStart none value (tail.bind List.head?) offset 0 true) start
  let place :=
    match value with
    | some p =>
      if props.found.isSome && p.isBlockCollection && !props.hasNewline then
        [Problem.at .collectionAfterDocumentStart props.stop]
      else []
    | none => []
  let (content, problems) :=
    match value with
    | some p => compose handles true props p
    | none => emptyNode handles props (emptyPosition props.stop start)
  let (_, tailProblems) := readTail content.extent.last false (tail.getD [])
  ⟨some content, offset, content.extent.last, propProblems ++ place ++ problems ++ tailProblems⟩

/-- The documents read so far, the last one first, and what is kept for the next one. -/
structure Stream where
  documents : List Document := []
  pending : List Problem := []
  handles : TagHandles := defaultHandles
  afterDirective : Bool := false

namespace Stream

/-- Adds problems to the last document, or keeps them for the next one if there is none or a directive
came last. -/
def report (s : Stream) (ps : List Problem) : Stream :=
  match s.afterDirective, s.documents with
  | false, d :: ds => { s with documents := { d with problems := d.problems ++ ps } :: ds }
  | _, _ => { s with pending := s.pending ++ ps }

/-- Adds the pending problems to the last document. -/
def flush (s : Stream) : Stream :=
  match s.documents with
  | d :: ds => { s with documents := { d with problems := d.problems ++ s.pending } :: ds, pending := [] }
  | [] => s

/-- Adds what stands at the outermost level. -/
def add (s : Stream) : TopLevel → Stream
  | .directive l =>
    let (handles, problems) := readDirective s.handles l
    { s with handles, pending := s.pending ++ problems, afterDirective := true }
  | .document offset start value tail =>
    let d := composeDocument s.handles offset start value tail
    let missing :=
      if s.afterDirective && !includesKind start .documentStart then
        [Problem.at .missingDocumentStart offset]
      else []
    { documents := { d with problems := s.pending ++ d.problems ++ missing } :: s.documents }
  | .documentEnd offset text tail =>
    match s.documents with
    | [] =>
      let problem := ⟨.documentEndWithoutDocument, offset, offset + Text.units text, false⟩
      { s with pending := s.pending ++ [problem] }
    | _ :: _ =>
      let (_, problems) := readTail (offset + Text.units text) true (tail.getD [])
      { s with pending := s.pending ++ problems }.flush
  | .stray l => s.report [Problem.of (.strayLexeme l.kind l.text) l]
  | .strayInDocument l => s.report [Problem.of (.strayInDocument l.kind l.text) l]
  | .unknown l => s.report [Problem.of (.noLexeme l.text) l]

end Stream

/-- The document of a text. -/
def read (text : List Char) : Document :=
  let s := (layoutOf (piecesOf text)).foldl Stream.add {}
  match s.flush.documents.reverse with
  | d :: second :: _ =>
    { d with problems := d.problems ++ [⟨.multipleDocuments, second.start, second.stop, false⟩] }
  | [d] => d
  | [] =>
    let missing := if s.afterDirective then [Problem.at .missingDocumentStartAtEnd (Text.units text)] else []
    ⟨none, 0, Text.units text, s.pending ++ missing⟩

end Yaml

end EntitySchema
