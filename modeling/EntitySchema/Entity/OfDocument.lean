import EntitySchema.Document.Reading
import EntitySchema.Entity.Field
import EntitySchema.Entity.Index

/-!
# The entity of a document

The first key of a document that names a kind decides what it declares: a class, an exception or an
enum.  A document with no kind, several kinds or no valid class name declares nothing; any other issue
leaves out only what it is about.
-/

namespace EntitySchema

namespace Entity

/-- The module of documents that belong to no module. -/
def defaultModuleAlias : String := "protocol"

/-- The kind that a key names. -/
def kindOfKey? (key : String) : Option EntityKind :=
  entityKinds.find? (·.name == key)

/-- The properties of an entity of a kind. -/
def propertyNames : EntityKind → List String
  | .class => ["class", "table", "serverOnly", "managedMigration", "fields", "indexes"]
  | .exception => ["exception", "serverOnly", "fields"]
  | .enum => ["enum", "serialized", "values", "default", "serverOnly"]

/-- An issue about an entity. -/
def issueAt (code : Code) (path : List String) (span : Span) (message : String) : Issue :=
  { message, code, category := .entity, span := some span, pointer := some (EntitySchema.pointer path) }

/-! ### The kind -/

/-- The issue of a document without a kind. -/
def missingKind : Issue :=
  { message := "No " ++ quoteList (entityKinds.map EntityKind.name) ++ " type is defined."
    code := .missingKind, category := .entity }

/-- The issue of a further kind. -/
def furtherKind (kinds : List MappingEntry) (e : MappingEntry) : Issue :=
  let names := String.intercalate ", " (kinds.map fun k => quoted k.key)
  let line := e.keySpan.start.line
  issueAt .multipleKinds [e.key] (Span.between line 0 line (Text.units e.key.toList))
    ("Multiple entity types (" ++ names ++
      ") found for a single entity. Only one type per entity allowed.")

/-- The entry that declares the kind of an entity. -/
def kindEntry (root : Mapping) : Except (List Issue) (MappingEntry × EntityKind) :=
  let kinds := root.entries.filter fun e => (kindOfKey? e.key).isSome
  match kinds with
  | [] => .error [missingKind]
  | [e] =>
    match kindOfKey? e.key with
    | some kind => .ok (e, kind)
    | none => .error [missingKind]
  | _ :: further => .error (further.map (furtherKind kinds))

/-! ### Properties -/

/-- The issue of a property that entities of the kind do not have.  A word that is no property at all is
reported only if it is nearly one. -/
def propertyIssue? (kind : EntityKind) (e : MappingEntry) : Option Issue :=
  let allowed := propertyNames kind
  let refusal := "The \"" ++ e.key ++ "\" property is not allowed for " ++ kind.name ++ " type. "
  if allowed.contains e.key then none
  else if entityKinds.any fun k => (propertyNames k).contains e.key then
    some (issueAt .invalidProperty [e.key] e.keySpan
      (refusal ++ "Valid keys are \x7b" ++ String.intercalate ", " allowed ++ "\x7d."))
  else
    (Suggestion.closest e.key allowed).map fun candidate =>
      issueAt .misspelledProperty [e.key] e.keySpan (refusal ++ "Did you mean \"" ++ candidate ++ "\"?")

/-- The truth value of a property, or the one that holds without it. -/
def boolProperty (root : Mapping) (key : String) (otherwise : Bool) : Bool × List Issue :=
  match root.find? key with
  | none => (otherwise, [])
  | some e =>
    match e.value with
    | .scalar (.bool b) .. => (b, [])
    | value =>
      (otherwise,
        [issueAt .invalidProperty [key] value.span ("The \"" ++ key ++ "\" property must be a bool.")])

/-! ### Classes and exceptions -/

/-- The fields of the `fields` property. -/
def fieldDrafts (d : ParsedDocument) (owner : FieldOwner) : List FieldDraft × List Issue :=
  match d.root.find? "fields" with
  | none => ([], [])
  | some e =>
    match e.value with
    | .mapping m => FieldDraft.ofEntries d.lineStarts owner m.entries
    | value =>
      ([], [{ message := "The \"fields\" property must be a map of field names to types."
              code := .invalidFieldType, category := .field
              span := some value.span, pointer := some (EntitySchema.pointer ["fields"]) }])

/-- Whether the `fields` property has an entry with the name. -/
def declaresField (root : Mapping) (name : String) : Bool :=
  match root.find? "fields" with
  | some e =>
    match e.value with
    | .mapping m => (m.find? name).isSome
    | _ => false
  | none => false

/-- The primary key of a class that does not declare one. -/
def serialId (span : Span) : FieldDraft :=
  { name := "id"
    pointer := EntitySchema.pointer ["fields", "id"]
    nameSpan := span
    typeSpan := span
    type := TypeDef.scalar "int" true
    shouldPersist := true
    defaults := { persist := some ⟨"serial", span⟩ }
    origin := .synthesized }

/-- The table of a class. -/
def tableProperty (root : Mapping) : Option (Spanned String) × List Issue :=
  match root.find? "table" with
  | none => (none, [])
  | some e =>
    match e.value.text?.filter Naming.isTableName with
    | some table => (some ⟨table, e.value.span⟩, [])
    | none =>
      (none, [issueAt .invalidTableName ["table"] e.value.span
        "The \"table\" property must be a snake_case_string."])

/-- The indexes of a class; only a class with a table has any. -/
def indexDrafts (d : ParsedDocument) (hasTable : Bool) : List IndexDraft × List Issue :=
  match d.root.find? "indexes" with
  | none => ([], [])
  | some e =>
    if hasTable then IndexDraft.ofNode d.lineStarts e.value
    else
      ([], [{ message := "The \"indexes\" property requires the class to have a \"table\"."
              code := .invalidIndex, category := .index
              span := some e.keySpan, pointer := some (EntitySchema.pointer ["indexes"]) }])

/-- What a class declares. -/
def classBody (d : ParsedDocument) (kind : MappingEntry) : EntityBody × List Issue :=
  let (table, tableIssues) := tableProperty d.root
  let (managedMigration, managedIssues) := boolProperty d.root "managedMigration" true
  let (fields, fieldIssues) := fieldDrafts d (if table.isSome then .tableClass else .plainClass)
  let fields :=
    if table.isSome && !declaresField d.root "id" then serialId kind.keySpan :: fields else fields
  let (indexes, indexIssues) := indexDrafts d table.isSome
  (.class { table, managedMigration, fields, indexes },
    tableIssues ++ managedIssues ++ fieldIssues ++ indexIssues)

/-- What an exception declares. -/
def exceptionBody (d : ParsedDocument) : EntityBody × List Issue :=
  let (fields, issues) := fieldDrafts d .exception
  (.exception fields, issues)

/-! ### Enums -/

/-- The ways to store the values of an enum. -/
def serializations : List EnumSerialization := [.byName, .byIndex]

/-- How the values of an enum are stored. -/
def serializedProperty (root : Mapping) : Option EnumSerialization × List Issue :=
  match root.find? "serialized" with
  | none => (none, [])
  | some e =>
    match e.value.text?.bind fun text => serializations.find? (·.name == text) with
    | some s => (some s, [])
    | none =>
      (none, [issueAt .invalidProperty ["serialized"] e.value.span
        "The \"serialized\" property must be one of \"byName\" or \"byIndex\"."])

/-- The message about values that are no list of texts. -/
def valuesExpected : String :=
  "The \"values\" property must be a non-empty list of strings."

/-- The value of an item, with the values that occurred before. -/
def enumValue (before : List EnumValue) (i : SequenceItem) : Except String EnumValue :=
  match i.value.text? with
  | none => .error valuesExpected
  | some name =>
    if !Naming.isFieldName name then
      .error ("The enum value \"" ++ name ++ "\" must be a valid lowerCamelCase name.")
    else if before.any (·.name == name) then
      .error ("The enum value \"" ++ name ++ "\" is declared more than once.")
    else .ok { name, documentation := i.documentation }

/-- The values of items from position `n` on, behind the values that occurred before. -/
def enumValuesFrom (before : List EnumValue) (n : Nat) : List SequenceItem → List EnumValue × List Issue
  | [] => (before, [])
  | i :: is =>
    match enumValue before i with
    | .ok value => enumValuesFrom (before ++ [value]) (n + 1) is
    | .error message =>
      let (values, issues) := enumValuesFrom before (n + 1) is
      (values, issueAt .invalidEnumValues ["values", toString n] i.value.span message :: issues)

/-- The values of an enum. -/
def enumValues (root : Mapping) (kind : MappingEntry) : List EnumValue × List Issue :=
  let issue (span : Span) (message : String) : List Issue :=
    [issueAt .invalidEnumValues ["values"] span message]
  match root.find? "values" with
  | none => ([], issue kind.keySpan "The \"values\" property is required for an enum.")
  | some e =>
    match e.value with
    | .sequence (i :: is) _ _ => enumValuesFrom [] 0 (i :: is)
    | value => ([], issue value.span valuesExpected)

/-- The default value of an enum. -/
def defaultProperty (root : Mapping) (values : List EnumValue) : Option String × List Issue :=
  match root.find? "default" with
  | none => (none, [])
  | some e =>
    let text := e.value.text?
    match text.filter fun name => values.any (·.name == name) with
    | some name => (some name, [])
    | none =>
      (none, [issueAt .invalidEnumDefault ["default"] e.value.span
        ("The default value \"" ++ text.getD "" ++ "\" must be one of the values of the enum.")])

/-- What an enum declares. -/
def enumBody (d : ParsedDocument) (kind : MappingEntry) : EntityBody × List Issue :=
  let (serialized, serializedIssues) := serializedProperty d.root
  let (values, valueIssues) := enumValues d.root kind
  let (defaultValue, defaultIssues) := defaultProperty d.root values
  (.enum values serialized defaultValue, serializedIssues ++ valueIssues ++ defaultIssues)

/-! ### Entities -/

/-- What an entity of a kind declares. -/
def bodyOf (d : ParsedDocument) (entry : MappingEntry) : EntityKind → EntityBody × List Issue
  | .class => classBody d entry
  | .exception => exceptionBody d
  | .enum => enumBody d entry

/-- How the values are stored, if it is an enum that says so. -/
def serializationOf : EntityBody → Option EnumSerialization
  | .enum _ serialized _ => serialized
  | _ => none

/-- The type that stands for an entity. -/
def selfType (className moduleAlias : String) (kind : EntityKind) (serialized : Option EnumSerialization)
    (nullable : Bool := false) : TypeDef :=
  { name := className
    nullable
    generics := []
    category := .entity
    moduleAlias := some moduleAlias
    entityKind := some kind
    enumSerialization := serialized }

/-- The entity that a document declares under a kind and a valid class name. -/
def ofKind (d : ParsedDocument) (entry : MappingEntry) (kind : EntityKind) (className : String) :
    Entity × List Issue :=
  let input := d.input
  let moduleAlias := input.moduleAlias.getD defaultModuleAlias
  let (serverOnly, serverIssues) := boolProperty d.root "serverOnly" false
  let (body, issues) := bodyOf d entry kind
  ({ header :=
      { fileName := input.fileName
        sourceFileName := input.sourceFileName
        className
        subDirectoryParts := input.subDirectoryParts
        serverOnly
        documentation := entry.documentation
        type := selfType className moduleAlias kind (serializationOf body)
        moduleAlias }
     nameSpan := entry.value.span
     body },
    serverIssues ++ issues)

/-- The entity that a document declares. -/
def ofParsed (d : ParsedDocument) : Option Entity × List Issue :=
  match kindEntry d.root with
  | .error issues => (none, issues)
  | .ok (entry, kind) =>
    let propertyIssues := d.root.entries.filterMap (propertyIssue? kind)
    match entry.value.text?.filter Naming.isClassName with
    | none =>
      (none, propertyIssues ++ [issueAt .invalidEntityName [kind.name] entry.value.span
        ("The \"" ++ kind.name ++ "\" property must be a valid class name (e.g. PascalCaseString).")])
    | some className =>
      let (entity, issues) := ofKind d entry kind className
      (some entity, propertyIssues ++ issues)

/-- Reads a document and the entity that it declares. -/
def ofDocument (input : DocumentInput) : Option Entity × List Diagnostic :=
  let (document, issues) := readDocument input
  let (entity, more) :=
    match document with
    | some d => ofParsed d
    | none => (none, [])
  (entity, (issues ++ more).map (Issue.toDiagnostic input.sourceFileName))

end Entity

end EntitySchema
