import EntitySchema.Text.Units

/-!
# Lexemes of a document

A YAML text is cut into lexemes.  Two kinds carry no text: the mark that a document's content begins,
and the mark that an open flow collection ends because the text is no longer indented under it.  A
lexeme that has been placed also knows its offset and the indentation of its line.
-/

namespace EntitySchema

namespace Yaml

/-- What a lexeme is. -/
inductive Kind where
  | byteOrderMark | contentStart | flowCut | documentStart | documentEnd | directive
  | newline | space | comment
  | sequenceItem | explicitKey | mapValue
  | openMap | closeMap | openSequence | closeSequence | comma
  | anchor | tag | alias | plain | singleQuoted | doubleQuoted | blockHeader
  | unknown
  deriving DecidableEq, Repr, Inhabited

/-- The name of a kind in the texts of problems. -/
def Kind.name : Kind → String
  | .byteOrderMark => "byte-order-mark"
  | .contentStart => "doc-mode"
  | .flowCut => "flow-error-end"
  | .documentStart => "doc-start"
  | .documentEnd => "doc-end"
  | .directive => "directive-line"
  | .newline => "newline"
  | .space => "space"
  | .comment => "comment"
  | .sequenceItem => "seq-item-ind"
  | .explicitKey => "explicit-key-ind"
  | .mapValue => "map-value-ind"
  | .openMap => "flow-map-start"
  | .closeMap => "flow-map-end"
  | .openSequence => "flow-seq-start"
  | .closeSequence => "flow-seq-end"
  | .comma => "comma"
  | .anchor => "anchor"
  | .tag => "tag"
  | .alias => "alias"
  | .plain => "scalar"
  | .singleQuoted => "single-quoted-scalar"
  | .doubleQuoted => "double-quoted-scalar"
  | .blockHeader => "block-scalar-header"
  | .unknown => "unknown"

/-- Whether lexemes of the kind are blank: white space, comments and line ends. -/
def Kind.isBlank : Kind → Bool
  | .space | .comment | .newline => true
  | _ => false

/-- A piece of the text and what it is. -/
structure Piece where
  kind : Kind
  text : List Char
  deriving Repr, Inhabited

/-- A piece with its place in the text. -/
structure Lexeme where
  kind : Kind
  text : List Char
  offset : Nat
  indent : Nat
  deriving Repr, Inhabited, DecidableEq

/-- The number of code units of a lexeme. -/
def Lexeme.length (l : Lexeme) : Nat := Text.units l.text

/-- The number of code units of lexemes that follow each other. -/
def totalLength (ls : List Lexeme) : Nat := Text.units (ls.flatMap (·.text))

/-- The offset behind a lexeme. -/
def Lexeme.stop (l : Lexeme) : Nat := l.offset + l.length

/-- Whether one of the lexemes is of the kind. -/
def includesKind (ls : List Lexeme) (kind : Kind) : Bool :=
  ls.any (·.kind == kind)

/-! ### Character classes -/

/-- The characters that separate: blank, tab and line ends. -/
def isSeparator (c : Char) : Bool :=
  c == ' ' || c == '\n' || c == '\r' || c == '\t'

/-- Whether a text is at its end or starts with a separating character. -/
def startsBlank : List Char → Bool
  | [] => true
  | c :: _ => isSeparator c

/-- The characters that are indicators inside flow collections. -/
def isFlowIndicator (c : Char) : Bool :=
  c == ',' || c == '[' || c == ']' || c == '\x7b' || c == '\x7d'

/-- Whether a text starts with a flow indicator. -/
def startsFlowIndicator : List Char → Bool
  | [] => false
  | c :: _ => isFlowIndicator c

/-- The characters of names of anchors and aliases. -/
def isNameChar (c : Char) : Bool :=
  !(isSeparator c || isFlowIndicator c)

/-- The hexadecimal digits. -/
def isHex (c : Char) : Bool :=
  ('0' ≤ c && c ≤ '9') || ('a' ≤ c && c ≤ 'f') || ('A' ≤ c && c ≤ 'F')

/-- The characters of tags, but for the percent sign. -/
def isTagChar (c : Char) : Bool :=
  ('0' ≤ c && c ≤ '9') || ('a' ≤ c && c ≤ 'z') || ('A' ≤ c && c ≤ 'Z') ||
    "-#;/?:@&=+$_.!~*'()".toList.contains c

/-- The byte order mark. -/
def byteOrderMark : Char := '\uFEFF'

end Yaml

end EntitySchema
