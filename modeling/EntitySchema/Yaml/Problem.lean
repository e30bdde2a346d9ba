import EntitySchema.Yaml.Lexeme.Basic
import EntitySchema.Json.Writer

/-!
# Problems of a document

What can be wrong with the text of a document, and the wording of each problem.
-/

namespace EntitySchema

namespace Yaml

/-- What is wrong. -/
inductive Fault where
  | strayLexeme (kind : Kind) (text : List Char)
  | strayInDocument (kind : Kind) (text : List Char)
  | noLexeme (text : List Char)
  | unexpectedKind (kind : Kind)
  | unexpectedAtEnd (kind : Kind)
  | unexpectedIndicator (text : List Char) (collection : String)
  | unexpectedComma (collection : String)
  | unexpectedEmptyItem (collection : String)
  | missingSpaceAroundProperty
  | missingSpaceBeforeComment
  | multipleAnchors
  | multipleTags
  | ambiguousAnchor
  | propertyBeforeIndicator (text : List Char)
  | tabIndentation
  | emptyAnchor
  | emptyAlias
  | ambiguousAlias
  | aliasWithProperties
  | misplacedSequence
  | sequenceAsKey
  | columnOfEntry
  | columnOfItem
  | itemWithoutIndicator
  | multilineKey
  | multilineFlowKey
  | duplicateKey
  | nestedCompactMap
  | longKey
  | longFlowKey
  | keyWithoutValue
  | blockInFlow
  | missingComma (collection : String)
  | missingSpaceAfterColon (collection : String)
  | missingCommaOrColon (collection : String)
  | unclosedFlow (isMap : Bool) (atRoot : Bool)
  | missingNewlineAfterProperties
  | collectionAfterDocumentStart
  | multipleDocuments
  | missingDocumentStart
  | missingDocumentStartAtEnd
  | documentEndWithoutDocument
  | mapComment
  | badScalarStart (what : String)
  | unclosedSingleQuote
  | unclosedDoubleQuote
  | badEscape (text : List Char)
  | blockHeader (text : List Char)
  | blockLeadingBlanks
  | blockNotIndented
  | blockLessIndented (explicit : Bool)
  | blockHeaderKind (kind : Kind)
  | notATag (text : List Char)
  | verbatimTag (text : List Char)
  | unclosedVerbatimTag
  | tagWithoutSuffix (text : List Char)
  | malformedTag
  | unresolvedHandle (text : List Char)
  | unresolvedTag (name : String)
  | tagDirectiveParts
  | versionDirectiveParts
  | unsupportedVersion (text : List Char)
  | unknownDirective (text : List Char)
  deriving DecidableEq, Repr

/-- The text with its first letter in upper case, for the names of flow collections. -/
def capitalised (isMap : Bool) : String :=
  if isMap then "Flow map" else "Flow sequence"

/-- The closing bracket of a flow collection. -/
def closingBracket (isMap : Bool) : String :=
  if isMap then "\x7d" else "]"

/-- A message with the offending text as a string literal, if there is one. -/
def withSource (message : String) (text : List Char) : String :=
  if text.isEmpty then message else message ++ ": " ++ Json.quote (String.ofList text)

/-- The wording of a problem. -/
def Fault.message : Fault → String
  | .strayLexeme kind text => withSource ("Unexpected " ++ kind.name ++ " token in YAML stream") text
  | .strayInDocument kind text => withSource ("Unexpected " ++ kind.name ++ " token in YAML document") text
  | .noLexeme text => withSource ("Not a YAML token: " ++ String.ofList text) text
  | .unexpectedKind kind => "Unexpected " ++ kind.name ++ " token"
  | .unexpectedAtEnd kind => "Unexpected " ++ kind.name ++ " at node end"
  | .unexpectedIndicator text collection => "Unexpected " ++ String.ofList text ++ " in " ++ collection
  | .unexpectedComma collection => "Unexpected , in " ++ collection
  | .unexpectedEmptyItem collection => "Unexpected empty item in " ++ collection
  | .missingSpaceAroundProperty =>
    "Tags and anchors must be separated from the next token by white space"
  | .missingSpaceBeforeComment =>
    "Comments must be separated from other tokens by white space characters"
  | .multipleAnchors => "A node can have at most one anchor"
  | .multipleTags => "A node can have at most one tag"
  | .ambiguousAnchor => "Anchor ending in : is ambiguous"
  | .propertyBeforeIndicator text =>
    "Anchors and tags must be after the " ++ String.ofList text ++ " indicator"
  | .tabIndentation => "Tabs are not allowed as indentation"
  | .emptyAnchor => "Anchor cannot be an empty string"
  | .emptyAlias => "Alias cannot be an empty string"
  | .ambiguousAlias => "Alias ending in : is ambiguous"
  | .aliasWithProperties => "An alias node must not specify any properties"
  | .misplacedSequence => "Unexpected block-seq-ind on same line with key"
  | .sequenceAsKey => "A block sequence may not be used as an implicit map key"
  | .columnOfEntry => "All mapping items must start at the same column"
  | .columnOfItem => "All collection items must start at the same column"
  | .itemWithoutIndicator => "Sequence item without - indicator"
  | .multilineKey => "Implicit keys need to be on a single line"
  | .multilineFlowKey => "Implicit keys of flow sequence pairs need to be on a single line"
  | .duplicateKey => "Map keys must be unique"
  | .nestedCompactMap => "Nested mappings are not allowed in compact mappings"
  | .longKey =>
    "The : indicator must be at most 1024 chars after the start of an implicit block mapping key"
  | .longFlowKey =>
    "The : indicator must be at most 1024 chars after the start of an implicit flow sequence key"
  | .keyWithoutValue => "Implicit map keys need to be followed by map values"
  | .blockInFlow => "Block collections are not allowed within flow collections"
  | .missingComma collection => "Missing , between " ++ collection ++ " items"
  | .missingSpaceAfterColon collection => "Missing space after : in " ++ collection
  | .missingCommaOrColon collection => "Missing , or : between " ++ collection ++ " items"
  | .unclosedFlow isMap atRoot =>
    if atRoot then capitalised isMap ++ " must end with a " ++ closingBracket isMap
    else capitalised isMap ++ " in block collection must be sufficiently indented and end with a " ++
      closingBracket isMap
  | .missingNewlineAfterProperties => "Missing newline after block sequence props"
  | .collectionAfterDocumentStart =>
    "Block collection cannot start on same line with directives-end marker"
  | .multipleDocuments =>
    "Source contains multiple documents; please use YAML.parseAllDocuments()"
  | .missingDocumentStart => "Missing directives-end/doc-start indicator line"
  | .missingDocumentStartAtEnd => "Missing directives-end indicator line"
  | .documentEndWithoutDocument => "Unexpected doc-end without preceding document"
  | .mapComment => "Map comment with trailing content"
  | .badScalarStart what => "Plain value cannot start with " ++ what
  | .unclosedSingleQuote => "Missing closing 'quote"
  | .unclosedDoubleQuote => "Missing closing \"quote"
  | .badEscape text => "Invalid escape sequence " ++ String.ofList text
  | .blockHeader text => "Block scalar header includes extra characters: " ++ String.ofList text
  | .blockLeadingBlanks =>
    "Block scalars with more-indented leading empty lines must use an explicit indentation indicator"
  | .blockNotIndented => "Block scalar values in collections must be indented"
  | .blockLessIndented explicit =>
    "Block scalar lines must not be less indented than their " ++
      (if explicit then "explicit indentation indicator" else "first line")
  | .blockHeaderKind kind => "Unexpected token in block scalar header: " ++ kind.name
  | .notATag text => "Not a valid tag: " ++ String.ofList text
  | .verbatimTag text => "Verbatim tags aren't resolved, so " ++ String.ofList text ++ " is invalid."
  | .unclosedVerbatimTag => "Verbatim tags must end with a >"
  | .tagWithoutSuffix text => "The " ++ String.ofList text ++ " tag has no suffix"
  | .malformedTag => "URIError: URI malformed"
  | .unresolvedHandle text => "Could not resolve tag: " ++ String.ofList text
  | .unresolvedTag name => "Unresolved tag: " ++ name
  | .tagDirectiveParts => "%TAG directive should contain exactly two parts"
  | .versionDirectiveParts => "%YAML directive should contain exactly one part"
  | .unsupportedVersion text => "Unsupported YAML version " ++ String.ofList text
  | .unknownDirective text => "Unknown directive " ++ String.ofList text

/-- A problem and the part of the text that it is about.  A warning does not make the text invalid. -/
structure Problem where
  fault : Fault
  start : Nat
  stop : Nat
  isWarning : Bool := false
  deriving DecidableEq, Repr

/-- A problem at one place. -/
def Problem.at (fault : Fault) (offset : Nat) : Problem := ⟨fault, offset, offset + 1, false⟩

/-- A problem of a lexeme. -/
def Problem.of (fault : Fault) (l : Lexeme) : Problem := ⟨fault, l.offset, l.stop, false⟩

/-- The same problem as a warning. -/
def Problem.warning (p : Problem) : Problem := { p with isWarning := true }

end Yaml

end EntitySchema
