import EntitySchema.Diagnostic.Issue
import EntitySchema.Text.Lines
import EntitySchema.Yaml.Scalar

/-!
# Model documents

A model document is a tree of mappings, sequences and scalars with the spans of its text.  Entries of
mappings and items of sequences have the documentation that stands right above them.
-/

namespace EntitySchema

/-- The value of a scalar node. -/
abbrev Scalar := Yaml.Scalar

/-- A part of a document by its offsets. -/
structure Range where
  start : Nat
  stop : Nat
  deriving DecidableEq, Repr, Inhabited

/-- An entry of a mapping. -/
structure DocEntry (α : Type) where
  key : String
  keyRange : Range
  keySpan : Span
  value : α
  documentation : List String
  deriving Repr

/-- An item of a sequence. -/
structure DocItem (α : Type) where
  value : α
  documentation : List String
  deriving Repr

/-- A mapping with its extent. -/
structure DocMapping (α : Type) where
  entries : List (DocEntry α)
  range : Range
  span : Span
  deriving Repr

/-- A node of a model document. -/
inductive DocNode where
  /-- A scalar.  The content offset is where its value stands in the text as it is, if it does. -/
  | scalar (value : Scalar) (contentOffset : Option Nat) (range : Range) (span : Span)
  | mapping (m : DocMapping DocNode)
  | sequence (items : List (DocItem DocNode)) (range : Range) (span : Span)
  deriving Repr

abbrev Mapping := DocMapping DocNode
abbrev MappingEntry := DocEntry DocNode
abbrev SequenceItem := DocItem DocNode

namespace DocNode

/-- The extent of a node. -/
def range : DocNode → Range
  | .scalar _ _ r _ => r
  | .mapping m => m.range
  | .sequence _ r _ => r

/-- The span of a node. -/
def span : DocNode → Span
  | .scalar _ _ _ s => s
  | .mapping m => m.span
  | .sequence _ _ s => s

/-- The text of a scalar node whose value is a text. -/
def text? : DocNode → Option String
  | .scalar (.text s) .. => some s
  | _ => none

/-- Whether a node is a null. -/
def isNull : DocNode → Bool
  | .scalar .null .. => true
  | _ => false

end DocNode

/-- The first entry of a mapping with the given key. -/
def DocMapping.find? {α : Type} (m : DocMapping α) (key : String) : Option (DocEntry α) :=
  m.entries.find? (·.key == key)

/-- The text of a model document and the identity under which it is compiled. -/
structure DocumentInput where
  yaml : String
  sourceFileName : String
  fileName : String
  subDirectoryParts : List String
  moduleAlias : Option String
  deriving Repr, DecidableEq

/-- A model document that has been read. -/
structure ParsedDocument where
  input : DocumentInput
  root : Mapping
  lineStarts : List Nat

/-- The span of a range of offsets; it ends no earlier than it starts. -/
def spanAt (lineStarts : List Nat) (start stop : Nat) : Span :=
  let (fromLine, fromColumn) := Text.lineColumn lineStarts start
  let (toLine, toColumn) := Text.lineColumn lineStarts (max start stop)
  Span.between fromLine fromColumn toLine toColumn

/-- The span of a range of offsets in a document. -/
def ParsedDocument.spanOf (d : ParsedDocument) (start stop : Nat) : Span :=
  spanAt d.lineStarts start stop

end EntitySchema
