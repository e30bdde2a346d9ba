import EntitySchema.Entity.Lookup

/-!
# The fields of entities while relations are resolved

The fields of every entity are kept apart from the entities, by the position of the entity.  A relation
changes them in three ways: a field gets a relation, and a key is put behind a field or at the end.
Fields are addressed by name; of fields with one name the first is meant.
-/

namespace EntitySchema

/-- The fields of the entities, by position. -/
structure Workspace where
  fields : List (List FieldDraft)
  deriving Repr

/-- A change of the fields of an entity. -/
inductive Change where
  /-- A field gets a relation. -/
  | relate (position : Nat) (name : String) (relation : RelationDef)
  /-- A key is put behind a field. -/
  | insertAfter (position : Nat) (anchor : String) (key : FieldDraft)
  /-- A key is put behind all fields. -/
  | append (position : Nat) (key : FieldDraft)
  deriving Repr

/-- Changes the first field with a name. -/
def FieldDraft.updateFirst (name : String) (f : FieldDraft → FieldDraft) :
    List FieldDraft → List FieldDraft
  | [] => []
  | d :: ds => if d.name == name then f d :: ds else d :: updateFirst name f ds

/-- Puts a field behind the first field with a name, or at the end. -/
def FieldDraft.insertAfter (anchor : String) (key : FieldDraft) : List FieldDraft → List FieldDraft
  | [] => [key]
  | d :: ds => if d.name == anchor then d :: key :: ds else d :: insertAfter anchor key ds

/-- The field with a relation.  A field that holds an object or a list is not stored itself. -/
def FieldDraft.relate (relation : RelationDef) (f : FieldDraft) : FieldDraft :=
  { f with relation := some relation, shouldPersist := f.shouldPersist && relation.foreignKey?.isSome }

namespace Workspace

/-- The fields of entities. -/
def ofEntities (entities : List Entity) : Workspace :=
  ⟨entities.map Entity.fields⟩

/-- The fields of the entity at a position. -/
def fieldsAt (w : Workspace) (position : Nat) : List FieldDraft :=
  w.fields.getD position []

/-- The field with a name. -/
def find? (w : Workspace) (position : Nat) (name : String) : Option FieldDraft :=
  (w.fieldsAt position).find? (·.name == name)

/-- The type of the primary key of an entity, not nullable. -/
def idType (w : Workspace) (position : Nat) : TypeDef :=
  match w.find? position "id" with
  | some id => id.type.withNullable false
  | none => TypeDef.scalar "int" false

/-- Makes a change. -/
def apply (w : Workspace) : Change → Workspace
  | .relate position name relation =>
    ⟨w.fields.modify position (FieldDraft.updateFirst name (FieldDraft.relate relation))⟩
  | .insertAfter position anchor key => ⟨w.fields.modify position (FieldDraft.insertAfter anchor key)⟩
  | .append position key => ⟨w.fields.modify position (· ++ [key])⟩

/-- Makes changes one after the other. -/
def applyAll (w : Workspace) (changes : List Change) : Workspace :=
  changes.foldl apply w

/-- The entities with their fields as they are now. -/
def build (w : Workspace) (entities : List Entity) : List Entity :=
  List.zipWith Entity.withFields entities w.fields

end Workspace

end EntitySchema
