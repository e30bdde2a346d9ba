import EntitySchema.Diagnostic.Issue
import EntitySchema.Model

/-!
# Entities

An entity is what one document declares, together with the places in the document that later passes
refer to.  Its fields and indexes are drafts: their types and relations are filled in once all
documents are known.
-/

namespace EntitySchema

/-- A value with the part of the document where it stands. -/
structure Spanned (α : Type) where
  value : α
  span : Span
  deriving DecidableEq, Repr, Inhabited

/-- The relation that a field declares. -/
structure RelationOption where
  span : Span
  name : Option (Spanned String) := none
  parent : Option (Spanned String) := none
  field : Option (Spanned String) := none
  onDelete : Option (Spanned ReferentialAction) := none
  onUpdate : Option (Spanned ReferentialAction) := none
  optional : Option Span := none
  deriving DecidableEq, Repr, Inhabited

/-- The defaults that a field declares. -/
structure DraftDefaults where
  model : Option (Spanned String) := none
  persist : Option (Spanned String) := none
  /-- Whether one option declares both. -/
  isShared : Bool := false
  deriving DecidableEq, Repr, Inhabited

/-- A field of an entity. -/
structure FieldDraft where
  name : String
  pointer : String
  nameSpan : Span
  typeSpan : Span
  type : TypeDef
  scope : FieldScope := .all
  shouldPersist : Bool
  persistSpan : Option Span := none
  relationOption : Option RelationOption := none
  relation : Option RelationDef := none
  defaults : DraftDefaults := {}
  documentation : List String := []
  origin : FieldOrigin := .declared
  /-- Whether the field is left out of the serialized form of the class. -/
  hidden : Bool := false
  deriving Repr, Inhabited

/-- The name under which a field takes part in a named relation. -/
def FieldDraft.relationName? (f : FieldDraft) : Option String :=
  f.relationOption.bind fun o => o.name.map (·.value)

/-- The field that a relation option names as the key. -/
def FieldDraft.keyFieldName? (f : FieldDraft) : Option String :=
  f.relationOption.bind fun o => o.field.map (·.value)

/-- A parameter of an index. -/
structure IndexParameter where
  key : String
  value : Number
  span : Span
  deriving DecidableEq, Repr, Inhabited

/-- The parameters of an index. -/
structure IndexParameters where
  entries : List IndexParameter
  span : Span
  deriving DecidableEq, Repr, Inhabited

/-- An index of a class. -/
structure IndexDraft where
  name : String
  pointer : String
  nameSpan : Span
  fields : List (Spanned String)
  fieldsSpan : Span
  type : Option (Spanned String) := none
  unique : Bool := false
  distanceFunction : Option (Spanned String) := none
  parameters : Option IndexParameters := none
  deriving DecidableEq, Repr, Inhabited

/-- What a class declares. -/
structure ClassDraft where
  table : Option (Spanned String)
  managedMigration : Bool
  fields : List FieldDraft
  indexes : List IndexDraft
  /-- The indexes that have been checked. -/
  resolvedIndexes : Option (List IndexDef) := none
  deriving Repr, Inhabited

/-- What an entity declares. -/
inductive EntityBody where
  | class (c : ClassDraft)
  | exception (fields : List FieldDraft)
  | enum (values : List EnumValue) (serialized : Option EnumSerialization)
      (defaultValue : Option String)
  deriving Repr, Inhabited

/-- An entity. -/
structure Entity where
  header : ModelHeader
  nameSpan : Span
  body : EntityBody
  deriving Repr, Inhabited

namespace Entity

/-- The kind of an entity. -/
def kind (e : Entity) : EntityKind :=
  match e.body with
  | .class _ => .class
  | .exception _ => .exception
  | .enum .. => .enum

/-- The fields of an entity; an enum has none. -/
def fields (e : Entity) : List FieldDraft :=
  match e.body with
  | .class c => c.fields
  | .exception fields => fields
  | .enum .. => []

/-- The entity with other fields. -/
def withFields (e : Entity) (fields : List FieldDraft) : Entity :=
  match e.body with
  | .class c => { e with body := .class { c with fields } }
  | .exception _ => { e with body := .exception fields }
  | .enum .. => e

/-- What an entity declares if it is a class. -/
def class? (e : Entity) : Option ClassDraft :=
  match e.body with
  | .class c => some c
  | _ => none

/-- The table of an entity, if it is a class with one. -/
def table? (e : Entity) : Option String :=
  e.class?.bind fun c => c.table.map (·.value)

/-- The name of an entity. -/
def className (e : Entity) : String := e.header.className

/-- The module of an entity. -/
def moduleAlias (e : Entity) : String := e.header.moduleAlias

/-- The diagnostic of an issue in the document of an entity. -/
def diagnostic (e : Entity) (i : Issue) : Diagnostic :=
  i.toDiagnostic e.header.sourceFileName

/-! Other fields leave the rest of an entity alone. -/

@[simp] theorem header_withFields (e : Entity) (fs : List FieldDraft) :
    (e.withFields fs).header = e.header := by
  unfold withFields
  split <;> rfl

@[simp] theorem className_withFields (e : Entity) (fs : List FieldDraft) :
    (e.withFields fs).className = e.className := by
  simp [className]

@[simp] theorem moduleAlias_withFields (e : Entity) (fs : List FieldDraft) :
    (e.withFields fs).moduleAlias = e.moduleAlias := by
  simp [moduleAlias]

@[simp] theorem kind_withFields (e : Entity) (fs : List FieldDraft) : (e.withFields fs).kind = e.kind := by
  obtain ⟨header, nameSpan, body⟩ := e
  cases body <;> rfl

@[simp] theorem table?_withFields (e : Entity) (fs : List FieldDraft) :
    (e.withFields fs).table? = e.table? := by
  obtain ⟨header, nameSpan, body⟩ := e
  cases body <;> rfl

/-- The other fields are the fields then; an enum has none. -/
theorem fields_withFields {e : Entity} {fs : List FieldDraft} (h : fs.length = e.fields.length) :
    (e.withFields fs).fields = fs := by
  obtain ⟨header, nameSpan, body⟩ := e
  cases body with
  | «class» c => rfl
  | exception fields => rfl
  | enum values serialized defaultValue => exact (List.length_eq_zero_iff.mp h).symm

/-- Whatever the fields are then, they are among the other ones. -/
theorem mem_fields_withFields {e : Entity} {fs : List FieldDraft} {f : FieldDraft}
    (h : f ∈ (e.withFields fs).fields) : f ∈ fs := by
  obtain ⟨header, nameSpan, body⟩ := e
  cases body with
  | «class» c => exact h
  | exception fields => exact h
  | enum values serialized defaultValue => cases h

/-- The other fields of a class with a table are its fields then. -/
theorem fields_withFields_of_table? {e : Entity} {fs : List FieldDraft} (h : e.table?.isSome) :
    (e.withFields fs).fields = fs := by
  obtain ⟨header, nameSpan, body⟩ := e
  cases body with
  | «class» c => rfl
  | exception | enum => cases h

/-- Only a class has a table. -/
theorem kind_of_table? {e : Entity} {table : String} (h : e.table? = some table) : e.kind = .class := by
  obtain ⟨header, nameSpan, body⟩ := e
  cases body with
  | «class» c => rfl
  | exception | enum => cases h

end Entity

end EntitySchema
