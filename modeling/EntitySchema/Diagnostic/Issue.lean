import EntitySchema.Diagnostic.Basic
import EntitySchema.Text.Blank

/-!
# Issues of a model document

Every issue that the compiler reports has a code, and the code decides its category.  An issue becomes
a diagnostic once the document it belongs to is known.
-/

namespace EntitySchema

/-- The part of the compiler that an issue is about. -/
inductive Category where
  | document | entity | field | typeResolution | relation | index | module
  deriving DecidableEq, Repr

/-- The name of a category. -/
def Category.name : Category → String
  | .document => "schema.document"
  | .entity => "schema.entity"
  | .field => "schema.field"
  | .typeResolution => "schema.type-resolution"
  | .relation => "schema.relation"
  | .index => "schema.index"
  | .module => "schema.module"

/-- What kind of issue it is. -/
inductive Code where
  | yamlSyntax | yamlWarning | invalidTopLevel | unsupportedAlias | unsupportedKey
  | missingKind | multipleKinds | invalidEntityName | invalidProperty | misspelledProperty
  | invalidTableName | invalidEnumValues | invalidEnumDefault
  | invalidFieldName | invalidFieldType | invalidOption | invalidDefaultValue | invalidIdField
  | unresolvedType | unknownModule | ambiguousType
  | invalidRelation | missingCounterpart | ambiguousRelation
  | invalidIndex
  | duplicateModule | duplicateClass | duplicateTable | duplicateIndex
  deriving DecidableEq, Repr

/-- The name of a code. -/
def Code.name : Code → String
  | .yamlSyntax => "document.yaml-syntax"
  | .yamlWarning => "document.yaml-warning"
  | .invalidTopLevel => "document.invalid-top-level"
  | .unsupportedAlias => "document.unsupported-alias"
  | .unsupportedKey => "document.unsupported-key"
  | .missingKind => "entity.missing-kind"
  | .multipleKinds => "entity.multiple-kinds"
  | .invalidEntityName => "entity.invalid-name"
  | .invalidProperty => "entity.invalid-property"
  | .misspelledProperty => "entity.misspelled-property"
  | .invalidTableName => "entity.invalid-table-name"
  | .invalidEnumValues => "entity.invalid-enum-values"
  | .invalidEnumDefault => "entity.invalid-enum-default"
  | .invalidFieldName => "field.invalid-name"
  | .invalidFieldType => "field.invalid-type"
  | .invalidOption => "field.invalid-annotation"
  | .invalidDefaultValue => "field.invalid-default"
  | .invalidIdField => "field.invalid-id"
  | .unresolvedType => "type.unresolved"
  | .unknownModule => "type.unknown-module"
  | .ambiguousType => "type.ambiguous"
  | .invalidRelation => "relation.invalid"
  | .missingCounterpart => "relation.missing-counterpart"
  | .ambiguousRelation => "relation.ambiguous"
  | .invalidIndex => "index.invalid"
  | .duplicateModule => "module.duplicate-module"
  | .duplicateClass => "module.duplicate-class"
  | .duplicateTable => "module.duplicate-table"
  | .duplicateIndex => "module.duplicate-index"

/-- An issue. -/
structure Issue where
  message : String
  code : Code
  category : Category
  span : Option Span := none
  pointer : Option String := none
  level : Level := .error
  deriving DecidableEq, Repr

/-- The diagnostic of an issue in a document; an empty pointer is left out. -/
def Issue.toDiagnostic (source : String) (i : Issue) : Diagnostic :=
  { level := i.level
    message := i.message
    code := some i.code.name
    category := some i.category.name
    source := some source
    pointer := i.pointer.filter (!·.isEmpty)
    span := i.span }

/-! ### Pointers -/

/-- A segment of a pointer, with `~` written as `~0` and `/` as `~1`. -/
def escapeSegment : List Char → List Char
  | [] => []
  | c :: cs =>
    if c == '~' then '~' :: '0' :: escapeSegment cs
    else if c == '/' then '~' :: '1' :: escapeSegment cs
    else c :: escapeSegment cs

/-- The pointer to a path: every segment stands behind a slash. -/
def pointer (segments : List String) : String :=
  String.ofList (segments.flatMap fun s => '/' :: escapeSegment s.toList)

/-! ### Wording -/

/-- A text in double quotes. -/
def quoted (s : String) : String := "\"" ++ s ++ "\""

/-- The values in quotes, the last one after "or". -/
def quoteList (values : List String) : String :=
  match values.reverse with
  | [] => ""
  | [only] => quoted only
  | last :: before =>
    String.intercalate ", " (before.reverse.map quoted) ++ " or " ++ quoted last

end EntitySchema
