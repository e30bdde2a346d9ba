import EntitySchema.DefaultValue
import EntitySchema.Document.Basic
import EntitySchema.Entity.Basic
import EntitySchema.Entity.Naming
import EntitySchema.FieldExpr.Reader
import EntitySchema.TypeExpr.Build

/-!
# The fields of an entity

An entry of the `fields` mapping becomes a field draft.  An entry with a name or a type that cannot be
used is left out; an option that does not fit the field is reported, and the field is kept without it.
-/

namespace EntitySchema

/-- What declares a field. -/
inductive FieldOwner where
  /-- A class with a table. -/
  | tableClass
  /-- A class without a table. -/
  | plainClass
  | exception
  deriving DecidableEq, Repr

/-- Where the clauses of an expression stand: the value of a node, or the whole node if its value does
not stand in the text as it is. -/
structure ClausePlace where
  lineStarts : List Nat
  contentOffset : Option Nat
  nodeSpan : Span

/-- The span of a clause between two offsets of the value. -/
def ClausePlace.spanOf (p : ClausePlace) (start stop : Nat) : Span :=
  match p.contentOffset with
  | some offset => spanAt p.lineStarts (offset + start) (offset + stop)
  | none => p.nodeSpan

namespace FieldDraft

/-- What is needed to report an issue of a field. -/
structure Site where
  owner : FieldOwner
  place : ClausePlace
  pointer : String

/-- The span of a segment. -/
def Site.segmentSpan (s : Site) (segment : Segment) : Span :=
  s.place.spanOf segment.start segment.stop

/-- An issue about a part of the expression of a field. -/
def Site.issue (s : Site) (code : Code) (message : String) (start stop : Nat) : Issue :=
  { message, code, category := .field, span := some (s.place.spanOf start stop), pointer := some s.pointer }

/-- An issue about an option. -/
def Site.optionIssue (s : Site) (segment : Segment) (message : String) : Issue :=
  s.issue .invalidOption message segment.start segment.stop

/-- An issue about a default. -/
def Site.defaultIssue (s : Site) (segment : Segment) (message : String) : Issue :=
  s.issue .invalidDefaultValue message segment.start segment.stop

/-! ### Relations -/

/-- The message about an action that does not exist. -/
def unknownAction (key : RelationKey) (value : String) : String :=
  "The \"" ++ key.word ++ "\" value \"" ++ value ++ "\" is not valid. Valid values are " ++
    quoteList (referentialActions.map ReferentialAction.name) ++ "."

/-- Adds a parameter to a relation. -/
def addParameter (s : Site) (o : RelationOption) (p : RelationParameter) : RelationOption × List Issue :=
  let value := p.value.getD ""
  let span := s.segmentSpan p.segment
  let action (store : Spanned ReferentialAction → RelationOption) : RelationOption × List Issue :=
    match ReferentialAction.ofName? value with
    | some a => (store ⟨a, span⟩, [])
    | none => (o, [s.optionIssue p.segment (unknownAction p.key value)])
  match p.key with
  | .name => ({ o with name := some ⟨value, span⟩ }, [])
  | .parent => ({ o with parent := some ⟨value, span⟩ }, [])
  | .field => ({ o with field := some ⟨value, span⟩ }, [])
  | .onDelete => action fun a => { o with onDelete := some a }
  | .onUpdate => action fun a => { o with onUpdate := some a }
  | .optional => ({ o with optional := some span }, [])

/-- Adds parameters to a relation one by one. -/
def addParameters (s : Site) (o : RelationOption) :
    List RelationParameter → RelationOption × List Issue
  | [] => (o, [])
  | p :: ps =>
    let (o, issues) := addParameter s o p
    let (o, more) := addParameters s o ps
    (o, issues ++ more)

/-! ### Options -/

/-- A declared default and where it stands. -/
structure DeclaredDefault where
  value : String
  segment : Segment

/-- The options of a field that fit it. -/
structure Options where
  scope : FieldScope := .all
  persist : Option (Spanned Bool) := none
  relation : Option RelationOption := none
  bothDefault : Option DeclaredDefault := none
  modelDefault : Option DeclaredDefault := none
  persistDefault : Option DeclaredDefault := none

/-- The message about an option that the owner of a field does not allow. -/
def refusal? (owner : FieldOwner) : OptionBody → Option String
  | .scope _ =>
    if owner == .exception then some "The \"scope\" annotation is not allowed on exception fields."
    else none
  | .default .. => none
  | body =>
    match owner with
    | .exception => some ("The \"" ++ body.word ++ "\" annotation is not allowed on exception fields.")
    | .plainClass =>
      some ("The \"" ++ body.word ++ "\" annotation requires the class to have a \"table\".")
    | .tableClass => none

/-- Adds an option. -/
def addOption (s : Site) (o : Options) (option : FieldOption) : Options × List Issue :=
  match refusal? s.owner option.body with
  | some message => (o, [s.optionIssue option.segment message])
  | none =>
    match option.body with
    | .scope scope => ({ o with scope }, [])
    | .persist persist => ({ o with persist := some ⟨persist, s.segmentSpan option.segment⟩ }, [])
    | .relation parameters =>
      let (relation, issues) := addParameters s { span := s.segmentSpan option.segment } parameters
      ({ o with relation := some relation }, issues)
    | .default .both value => ({ o with bothDefault := some ⟨value, option.segment⟩ }, [])
    | .default .model value => ({ o with modelDefault := some ⟨value, option.segment⟩ }, [])
    | .default .persist value => ({ o with persistDefault := some ⟨value, option.segment⟩ }, [])

/-- Adds options one by one. -/
def addOptions (s : Site) (o : Options) : List FieldOption → Options × List Issue
  | [] => (o, [])
  | option :: rest =>
    let (o, issues) := addOption s o option
    let (o, more) := addOptions s o rest
    (o, issues ++ more)

/-! ### Defaults -/

/-- A default that has been checked, or the issue. -/
def checkedDefault (s : Site) (type : TypeDef) (key : DefaultKey) (d : DeclaredDefault) :
    Option (Spanned String) × List Issue :=
  match DefaultValue.check type d.value key.word with
  | .invalid message => (none, [s.defaultIssue d.segment message])
  | .valid | .deferred => (some ⟨d.value, s.segmentSpan d.segment⟩, [])

/-- Why a field has no default for rows, if so. -/
def persistRefusal? (owner : FieldOwner) (type : TypeDef) (shouldPersist : Bool) : Option String :=
  if owner != .tableClass then
    some "The \"defaultPersist\" annotation requires the class to have a \"table\"."
  else if !shouldPersist then
    some "The \"defaultPersist\" annotation cannot be used on a field that is not persisted."
  else if !type.nullable then
    some ("The \"defaultPersist\" annotation requires a nullable type, found \"" ++ type.describe ++ "\".")
  else none

/-- The default for rows, checked. -/
def checkedPersistDefault (s : Site) (type : TypeDef) (shouldPersist : Bool) (d : DeclaredDefault) :
    Option (Spanned String) × List Issue :=
  match persistRefusal? s.owner type shouldPersist with
  | some message => (none, [s.defaultIssue d.segment message])
  | none => checkedDefault s type .persist d

/-- The outcome for a default that may not be declared. -/
def onDeclared (d : Option DeclaredDefault)
    (f : DeclaredDefault → Option (Spanned String) × List Issue) : Option (Spanned String) × List Issue :=
  match d with
  | some d => f d
  | none => (none, [])

/-- The defaults of a field. -/
def defaultsOf (s : Site) (type : TypeDef) (shouldPersist : Bool) (o : Options) :
    DraftDefaults × List Issue :=
  let isSingle := o.modelDefault.isNone && o.persistDefault.isNone
  let (model, modelIssues) := onDeclared o.modelDefault (checkedDefault s type .model)
  let (persist, persistIssues) := onDeclared o.persistDefault (checkedPersistDefault s type shouldPersist)
  match o.bothDefault with
  | none => (⟨model, persist, false⟩, modelIssues ++ persistIssues)
  | some both =>
    if isSingle then
      let (value, issues) := checkedDefault s type .both both
      (⟨value, if shouldPersist then value else none, shouldPersist⟩, issues)
    else
      let conflict := s.defaultIssue both.segment
        "The \"default\" annotation cannot be combined with \"defaultModel\" or \"defaultPersist\"."
      (⟨model, persist, false⟩, conflict :: modelIssues ++ persistIssues)

/-! ### Fields -/

/-- Whether a type is one that a primary key may have. -/
def isIdType (type : TypeDef) : Bool :=
  type.category == .scalar && (type.name == "int" || type.name == "UuidValue")

/-- The type of a field, with the issues of its expression. -/
def typeOf (s : Site) (name : String) (parsed : FieldExpr) : Option TypeDef × List Issue :=
  let code : Code := if parsed.type.isSome then .invalidOption else .invalidFieldType
  let exprIssues := parsed.issues.map fun i => s.issue code i.message i.start i.stop
  match parsed.type with
  | none => (none, exprIssues)
  | some expr =>
    let (type, problems) := expr.build
    let issues := exprIssues ++ problems.map fun p => s.issue .invalidFieldType p.message p.start p.stop
    match type with
    | none => (none, issues)
    | some type =>
      if s.owner == .tableClass && name == "id" && !isIdType type then
        (none, issues ++ [s.issue .invalidIdField "The \"id\" field must be of type \"int\" or \"UuidValue\"."
          parsed.typeSegment.start parsed.typeSegment.stop])
      else (some type, issues)

/-- The draft of a field with the given expression. -/
def ofExpr (s : Site) (entry : MappingEntry) (parsed : FieldExpr) : Option FieldDraft × List Issue :=
  match typeOf s entry.key parsed with
  | (none, issues) => (none, issues)
  | (some type, issues) =>
    let (options, optionIssues) := addOptions s {} parsed.options
    let shouldPersist := s.owner == .tableClass && (options.persist.map (·.value)).getD true
    let (defaults, defaultIssues) := defaultsOf s type shouldPersist options
    (some
      { name := entry.key
        pointer := s.pointer
        nameSpan := entry.keySpan
        typeSpan := s.segmentSpan parsed.typeSegment
        type
        scope := options.scope
        shouldPersist
        persistSpan := options.persist.map (·.span)
        relationOption := options.relation
        defaults
        documentation := entry.documentation },
      issues ++ optionIssues ++ defaultIssues)

/-- The draft of an entry of the `fields` mapping. -/
def ofEntry (lineStarts : List Nat) (owner : FieldOwner) (entry : MappingEntry) :
    Option FieldDraft × List Issue :=
  let pointer := EntitySchema.pointer ["fields", entry.key]
  if !Naming.isFieldName entry.key then
    (none,
      [{ message := "The field name \"" ++ entry.key ++ "\" must be a valid lowerCamelCase name."
         code := .invalidFieldName, category := .field
         span := some entry.keySpan, pointer := some pointer }])
  else
    match entry.value with
    | .scalar (.text text) contentOffset _ nodeSpan =>
      ofExpr ⟨owner, ⟨lineStarts, contentOffset, nodeSpan⟩, pointer⟩ entry (FieldExpr.read text)
    | value =>
      (none,
        [{ message := "The field \"" ++ entry.key ++ "\" must be declared with a type string."
           code := .invalidFieldType, category := .field
           span := some value.span, pointer := some pointer }])

/-- The drafts of the entries of the `fields` mapping. -/
def ofEntries (lineStarts : List Nat) (owner : FieldOwner) :
    List MappingEntry → List FieldDraft × List Issue
  | [] => ([], [])
  | e :: es =>
    let (draft, issues) := ofEntry lineStarts owner e
    let (drafts, more) := ofEntries lineStarts owner es
    (draft.toList ++ drafts, issues ++ more)

end FieldDraft

end EntitySchema
