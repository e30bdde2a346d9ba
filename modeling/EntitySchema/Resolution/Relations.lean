import EntitySchema.FieldExpr.Basic
import EntitySchema.Resolution.Workspace
import EntitySchema.Text.Units

/-!
# Resolving relations

A field with a relation option is linked to a key.  An object field has its key in its own class, or,
in a one-to-one relation, in the other one; a list field has its key in the class of its elements; a
field with a parent table is a key itself.  Keys that no field declares are added.

Resolving one field gives the issues and the changes; either the relation is linked completely, or
nothing is changed.
-/

namespace EntitySchema

mutual

/-- Whether a type contains a name that could not be resolved. -/
def TypeDef.containsUnresolved (t : TypeDef) : Bool :=
  match t with
  | ⟨_, _, generics, category, _, _, _, _⟩ => category == .unresolved || TypeDef.anyUnresolved generics

/-- Whether one of the types contains a name that could not be resolved. -/
def TypeDef.anyUnresolved : List TypeDef → Bool
  | [] => false
  | t :: ts => TypeDef.containsUnresolved t || TypeDef.anyUnresolved ts

end

/-- Whether a type stands for an entity. -/
def TypeDef.pointsTo (t : TypeDef) (e : Entity) : Bool :=
  t.category == .entity && t.name == e.className && t.moduleAlias == some e.moduleAlias

/-- Where a parameter of a relation stands, if it is given. -/
def RelationOption.parameterSpan? (o : RelationOption) : RelationKey → Option Span
  | .name => o.name.map (·.span)
  | .parent => o.parent.map (·.span)
  | .field => o.field.map (·.span)
  | .onDelete => o.onDelete.map (·.span)
  | .onUpdate => o.onUpdate.map (·.span)
  | .optional => o.optional

/-- What happens when the row that is referred to is deleted. -/
def RelationOption.deleteAction (o : RelationOption) : ReferentialAction :=
  (o.onDelete.map (·.value)).getD .noAction

/-- What happens when the key that is referred to is changed. -/
def RelationOption.updateAction (o : RelationOption) : ReferentialAction :=
  (o.onUpdate.map (·.value)).getD .noAction

/-- The key of an object field: the field that it names, or its own name followed by `Id`. -/
def FieldDraft.objectKey (f : FieldDraft) : String :=
  f.keyFieldName?.getD (f.name ++ "Id")

namespace RelationResolution

/-- A class with its table. -/
structure TableClass where
  position : Nat
  entity : Entity
  table : String

/-- A field with a relation option, and what it is resolved against. -/
structure Site where
  index : EntityIndex
  workspace : Workspace
  owner : TableClass
  field : FieldDraft
  option : RelationOption

/-- What resolving a relation gives. -/
structure Outcome where
  issues : List Issue := []
  changes : List Change := []

/-- The outcome of a relation that cannot be linked. -/
def Outcome.failed (issues : List Issue) : Outcome := ⟨issues, []⟩

/-- The outcome with further issues in front. -/
def Outcome.after (issues : List Issue) (o : Outcome) : Outcome := { o with issues := issues ++ o.issues }

namespace Site

/-- An issue about a relation. -/
def issueOf (s : Site) (code : Code) (span : Span) (message : String) : Issue :=
  { message, code, category := .relation, span := some span, pointer := some s.field.pointer }

/-- An issue about a part of a relation. -/
def issueAt (s : Site) (span : Span) (message : String) : Issue :=
  s.issueOf .invalidRelation span message

/-- An issue about the whole option. -/
def issue (s : Site) (message : String) : Issue :=
  s.issueAt s.option.span message

/-- The issues of parameters that the relation does not take. -/
def refuse (s : Site) (keys : List RelationKey) (message : RelationKey → String) : List Issue :=
  keys.filterMap fun key => (s.option.parameterSpan? key).map fun span => s.issueAt span (message key)

/-- The message about a parameter that belongs to the other side of the relation. -/
def keySideOnly (key : RelationKey) : String :=
  "The \"" ++ key.word ++ "\" parameter can only be set on the side of the relation holding the foreign key."

/-! ### The other side -/

/-- The class with a table that a type stands for. -/
def tableClass (s : Site) (t : TypeDef) : Except Issue TableClass :=
  match s.index.findClass? t with
  | some ⟨position, entity⟩ =>
    match entity.table? with
    | some table => .ok ⟨position, entity, table⟩
    | none => .error (missing t)
  | none => .error (missing t)
where
  /-- The issue of a type that stands for no such class. -/
  missing (t : TypeDef) : Issue :=
    s.issueAt s.field.typeSpan
      ("The relation target \"" ++ t.name ++ "\" must be a class with a \"table\".")

/-- Whether a field of a class is the field that is being resolved. -/
def isSelf (s : Site) (target : TableClass) (candidate : FieldDraft) : Bool :=
  target.position == s.owner.position && candidate.name == s.field.name

/-- The fields on the other side of a named relation. -/
def counterparts (s : Site) (target : TableClass) (name : String) : List FieldDraft :=
  (s.workspace.fieldsAt target.position).filter fun f =>
    f.relationName? == some name && !s.isSelf target f

/-- The field on the other side of a named relation. -/
def counterpart (s : Site) (target : TableClass) (name : Spanned String) : Except Issue FieldDraft :=
  match s.counterparts target name.value with
  | [f] => .ok f
  | [] =>
    .error (s.issueOf .missingCounterpart name.span
      ("No counterpart for the named relation \"" ++ name.value ++ "\" was found on \"" ++
        target.entity.className ++ "\"."))
  | fs =>
    .error (s.issueOf .ambiguousRelation name.span
      ("The named relation \"" ++ name.value ++ "\" has " ++ toString fs.length ++ " counterparts on \"" ++
        target.entity.className ++ "\". A named relation pairs exactly two fields."))

/-- The issue of a counterpart that does not refer to the class of the field. -/
def unrelated (s : Site) (target : TableClass) (name : Spanned String) (f : FieldDraft) : Issue :=
  s.issueAt name.span
    ("The field \"" ++ target.entity.className ++ "." ++ f.name ++ "\" of the named relation \"" ++
      name.value ++ "\" does not reference \"" ++ s.owner.entity.className ++ "\".")

/-! ### Object fields -/

/-- Which side of an object relation holds the key. -/
inductive KeySide where
  | own
  | other (counterpart : FieldDraft)

/-- The issue of a one-to-one relation in which both sides or neither side holds the key; of the two
fields the one whose name comes first reports it. -/
def undecided (s : Site) (target : TableClass) (name : Spanned String) (f : FieldDraft) : List Issue :=
  if Text.le (s.owner.entity.className ++ "." ++ s.field.name) (target.entity.className ++ "." ++ f.name) then
    [s.issueAt name.span
      ("Exactly one side of the one-to-one relation \"" ++ name.value ++ "\" must declare \"field\".")]
  else []

/-- The side that holds the key. -/
def keySide (s : Site) (target : TableClass) : Except (List Issue) KeySide :=
  match s.option.name with
  | none => .ok .own
  | some name =>
    match s.counterpart target name with
    | .error issue => .error [issue]
    | .ok f =>
      if f.type.pointsTo s.owner.entity then
        match s.option.field, f.keyFieldName? with
        | some _, none => .ok .own
        | none, some _ => .ok (.other f)
        | _, _ => .error (s.undecided target name f)
      else if f.type.listElement?.any (·.pointsTo s.owner.entity) then .ok .own
      else .error [s.unrelated target name f]

/-- The relation of an object field to its target, with one of the two keys. -/
def objectRelation (s : Site) (target : TableClass) (own other : Option String) : ObjectRelation :=
  { name := s.option.name.map (·.value)
    targetClass := target.entity.className
    targetModuleAlias := target.entity.moduleAlias
    targetTable := target.table
    foreignKeyField := own
    targetForeignKeyField := other }

/-- The relation of the key of an object field. -/
def keyRelation (s : Site) (target : TableClass) : ForeignKeyRelation :=
  { parentTable := target.table
    referencedField := "id"
    onDelete := s.option.deleteAction
    onUpdate := s.option.updateAction
    relationField := some s.field.name
    relationFieldOwner := some s.owner.entity.className }

/-- The issue of a key that would have to be null when its row is deleted. -/
def nullRequired (s : Site) (key : String) : Issue :=
  s.issueAt ((s.option.parameterSpan? .onDelete).getD s.option.span)
    ("The \"onDelete\" value \"SetNull\" requires the field \"" ++ key ++ "\" to be nullable.")

/-- Links the declared field that an object field names as its key. -/
def linkKey (s : Site) (target : TableClass) (key : Spanned String) : Except Issue Change :=
  let idType := s.workspace.idType target.position
  match s.workspace.find? s.owner.position key.value with
  | none =>
    .error (s.issueAt key.span
      ("The field \"" ++ key.value ++ "\" referenced by \"field\" was not found on \"" ++
        s.owner.entity.className ++ "\"."))
  | some existing =>
    if existing.relationOption.isSome || existing.relation.isSome then
      .error (s.issueAt key.span
        ("The field \"" ++ key.value ++
          "\" cannot hold the foreign key because it already declares a relation."))
    else if !existing.type.sameBase idType then
      .error (s.issueAt key.span
        ("The field \"" ++ key.value ++ "\" must be of type \"" ++ idType.describe ++ "\" to reference \"" ++
          target.entity.className ++ "\"."))
    else if s.option.deleteAction == .setNull && !existing.type.nullable then .error (s.nullRequired key.value)
    else .ok (.relate s.owner.position key.value (.foreignKey (s.keyRelation target)))

/-- The name of a key that is added for an object field. -/
def addedKeyName (s : Site) : String :=
  s.field.name ++ "Id"

/-- The key that is added for an object field. -/
def addedKey (s : Site) (target : TableClass) : FieldDraft :=
  { name := s.addedKeyName
    pointer := pointer ["fields", s.addedKeyName]
    nameSpan := s.field.nameSpan
    typeSpan := s.field.typeSpan
    type := (s.workspace.idType target.position).withNullable
      (s.option.optional.isSome || s.option.deleteAction == .setNull)
    scope := s.field.scope
    shouldPersist := true
    relation := some (.foreignKey (s.keyRelation target))
    origin := .synthesized }

/-- Adds a key for an object field behind it. -/
def addKey (s : Site) (target : TableClass) : Except Issue Change :=
  let key := s.addedKeyName
  match s.workspace.find? s.owner.position key with
  | some _ =>
    .error (s.issue
      ("The field \"" ++ key ++ "\" already exists on \"" ++ s.owner.entity.className ++
        "\". Reference it with \"field=" ++ key ++ "\"."))
  | none => .ok (.insertAfter s.owner.position s.field.name (s.addedKey target))

/-- Links an object field whose own class holds the key. -/
def resolveOwnKey (s : Site) (target : TableClass) : Outcome :=
  let key : String × Except Issue Change :=
    match s.option.field with
    | some key => (key.value, s.linkKey target key)
    | none => (s.addedKeyName, s.addKey target)
  match key.2 with
  | .error issue => .failed [issue]
  | .ok change =>
    { changes :=
        [change,
          .relate s.owner.position s.field.name
            (.object (s.objectRelation target (some key.1) none))] }

/-- Links an object field whose key is a field of the other class. -/
def resolveOtherKey (s : Site) (target : TableClass) (counterpart : FieldDraft) : Outcome :=
  { issues := s.refuse [.onDelete, .onUpdate, .optional] keySideOnly
    changes :=
      [.relate s.owner.position s.field.name
        (.object (s.objectRelation target none (some counterpart.objectKey)))] }

/-- Links an object field. -/
def resolveObject (s : Site) (target : TableClass) : Outcome :=
  match s.keySide target with
  | .error issues => .failed issues
  | .ok .own => s.resolveOwnKey target
  | .ok (.other counterpart) => s.resolveOtherKey target counterpart

/-! ### List fields -/

/-- A name that starts with a small letter. -/
def lowerFirst (name : String) : String :=
  match name.toList with
  | c :: cs => String.ofList (c.toLower :: cs)
  | [] => name

/-- A name that starts with a capital letter. -/
def upperFirst (name : String) : String :=
  match name.toList with
  | c :: cs => String.ofList (c.toUpper :: cs)
  | [] => name

/-- The name of the hidden key of a list field. -/
def hiddenKeyName (s : Site) : String :=
  let className := s.owner.entity.className
  "_" ++ lowerFirst className ++ upperFirst s.field.name ++ className ++ "Id"

/-- The relation of a list field with the given key. -/
def listRelation (s : Site) (target : TableClass) (key : String) (isImplicit : Bool) : ListRelation :=
  { name := s.option.name.map (·.value)
    targetClass := target.entity.className
    targetModuleAlias := target.entity.moduleAlias
    targetTable := target.table
    foreignKeyField := key
    implicitForeignKey := isImplicit }

/-- The key on the other side of a named list field. -/
def counterpartKey (s : Site) (target : TableClass) (name : Spanned String) : Except Issue String :=
  match s.counterpart target name with
  | .error issue => .error issue
  | .ok f =>
    if f.type.pointsTo s.owner.entity then .ok f.objectKey
    else if (f.relationOption.bind (·.parent)).any (·.value == s.owner.table) then .ok f.name
    else .error (s.unrelated target name f)

/-- The relation of the hidden key of a list field. -/
def hiddenKeyRelation (s : Site) : ForeignKeyRelation :=
  { parentTable := s.owner.table
    referencedField := "id"
    onDelete := .noAction
    onUpdate := .noAction
    relationField := some s.field.name
    relationFieldOwner := some s.owner.entity.className }

/-- The hidden key of a list field. -/
def hiddenKey (s : Site) : FieldDraft :=
  { name := s.hiddenKeyName
    pointer := pointer ["fields", s.hiddenKeyName]
    nameSpan := s.field.nameSpan
    typeSpan := s.field.typeSpan
    type := (s.workspace.idType s.owner.position).withNullable true
    scope := .none
    shouldPersist := true
    hidden := true
    relation := some (.foreignKey s.hiddenKeyRelation)
    origin := .synthesized }

/-- Adds a hidden key for a list field to the class of its elements. -/
def addHiddenKey (s : Site) (target : TableClass) : Except Issue Change :=
  let key := s.hiddenKeyName
  match s.workspace.find? target.position key with
  | some _ =>
    .error (s.issue ("The field \"" ++ key ++ "\" already exists on \"" ++ target.entity.className ++ "\"."))
  | none => .ok (.append target.position s.hiddenKey)

/-- The issues of the parameters that a list field does not take. -/
def listRefusals (s : Site) : List Issue :=
  s.refuse [.onDelete, .onUpdate] keySideOnly ++
    s.refuse [.field, .optional] fun key =>
      "The \"" ++ key.word ++ "\" parameter cannot be used on a list relation."

/-- Links a list field. -/
def resolveList (s : Site) (target : TableClass) : Outcome :=
  let link (key : String) (isImplicit : Bool) : Change :=
    .relate s.owner.position s.field.name (.list (s.listRelation target key isImplicit))
  let outcome : Outcome :=
    match s.option.name with
    | some name =>
      match s.counterpartKey target name with
      | .error issue => .failed [issue]
      | .ok key => { changes := [link key false] }
    | none =>
      match s.addHiddenKey target with
      | .error issue => .failed [issue]
      | .ok change => { changes := [change, link s.hiddenKeyName true] }
  outcome.after s.listRefusals

/-! ### Keys -/

/-- The relation of a field that is the key of a row of a parent table. -/
def parentRelation (s : Site) (parent : String) : ForeignKeyRelation :=
  { name := s.option.name.map (·.value)
    parentTable := parent
    referencedField := "id"
    onDelete := s.option.deleteAction
    onUpdate := s.option.updateAction }

/-- Links a field to the primary key of its parent table. -/
def linkParent (s : Site) (parent : Spanned String) : Except Issue Change :=
  match s.index.findTable? parent.value with
  | none => .error (s.issueAt parent.span ("The parent table \"" ++ parent.value ++ "\" was not found."))
  | some l =>
    let idType := s.workspace.idType l.position
    if !s.field.type.sameBase idType then
      .error (s.issueAt s.field.typeSpan
        ("The field \"" ++ s.field.name ++ "\" must be of type \"" ++ idType.describe ++
          "\" to reference the table \"" ++ parent.value ++ "\"."))
    else if s.option.deleteAction == .setNull && !s.field.type.nullable then
      .error (s.nullRequired s.field.name)
    else .ok (.relate s.owner.position s.field.name (.foreignKey (s.parentRelation parent.value)))

/-- Links a field that has a parent table. -/
def resolveParent (s : Site) (parent : Spanned String) : Outcome :=
  if s.field.type.category != .scalar then
    .failed [s.issueAt s.field.typeSpan
      ("The \"parent\" parameter requires a field holding the parent's id, found \"" ++
        s.field.type.describe ++ "\".")]
  else
    let refusals := s.refuse [.field, .optional] fun key =>
      "The \"" ++ key.word ++ "\" parameter cannot be combined with \"parent\"."
    match s.linkParent parent with
    | .error issue => .failed (refusals ++ [issue])
    | .ok change => { issues := refusals, changes := [change] }

/-! ### Fields -/

/-- The issue of a field that holds an object or a list and is not nullable. -/
def nullableIssues (s : Site) : List Issue :=
  if s.field.type.nullable then []
  else
    [s.issueAt s.field.typeSpan ("The relation field \"" ++ s.field.name ++ "\" must be nullable.")]

/-- Links a field to the class with a table that a type stands for. -/
def resolveTarget (s : Site) (t : TypeDef) (link : TableClass → Outcome) : Outcome :=
  match s.tableClass t with
  | .error issue => .failed [issue]
  | .ok target => (link target).after s.nullableIssues

/-- Links a field.  A type that could not be resolved has been reported before. -/
def resolve (s : Site) : Outcome :=
  let t := s.field.type
  match s.option.parent with
  | some parent => s.resolveParent parent
  | none =>
    if t.containsUnresolved then {}
    else if t.category == .entity then s.resolveTarget t s.resolveObject
    else
      match t.listElement?.filter (·.category == .entity) with
      | some element => s.resolveTarget element s.resolveList
      | none =>
        .failed [s.issue
          ("The \"relation\" annotation requires a field referencing a class with a \"table\", " ++
            "a list of such classes or a \"parent\" table.")]

end Site

/-! ### Entities -/

/-- Resolves the relations of fields of a class, one after the other. -/
def resolveFields (index : EntityIndex) (owner : TableClass) (w : Workspace) :
    List FieldDraft → Workspace × List Issue
  | [] => (w, [])
  | declared :: rest =>
    match declared.relationOption with
    | none => resolveFields index owner w rest
    | some option =>
      let field := (w.find? owner.position declared.name).getD declared
      let outcome := Site.resolve ⟨index, w, owner, field, option⟩
      let (w, issues) := resolveFields index owner (w.applyAll outcome.changes) rest
      (w, outcome.issues ++ issues)

/-- Resolves the relations of entities from a position on, one after the other. -/
def resolveFrom (index : EntityIndex) (w : Workspace) (position : Nat) :
    List Entity → Workspace × List Diagnostic
  | [] => (w, [])
  | e :: es =>
    match e.table? with
    | none => resolveFrom index w (position + 1) es
    | some table =>
      let (w, issues) := resolveFields index ⟨position, e, table⟩ w e.fields
      let (w, more) := resolveFrom index w (position + 1) es
      (w, issues.map e.diagnostic ++ more)

/-- The entities with their relations resolved. -/
def resolve (index : EntityIndex) : List Entity × List Diagnostic :=
  let (w, diagnostics) := resolveFrom index (.ofEntities index.entities) 0 index.entities
  (w.build index.entities, diagnostics)

end RelationResolution

end EntitySchema
