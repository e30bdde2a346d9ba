import EntitySchema.Entity.Basic

/-!
# Looking up entities

Entities are found by module and class name, and classes by their table.  The entities are gone through
once, and the first declaration of a name keeps it.  An entity is identified by its position in the list,
because two entities may have the same name.
-/

namespace EntitySchema

/-- The entities of a compilation and the names of its modules. -/
structure EntityIndex where
  entities : List Entity
  aliases : List String

/-- An entity with its position. -/
structure Located where
  position : Nat
  entity : Entity

/-- The key of a class in a module. -/
def entityKey (moduleAlias className : String) : String :=
  moduleAlias ++ ":" ++ className

/-- The key of an entity. -/
def Entity.key (e : Entity) : String :=
  entityKey e.moduleAlias e.className

@[simp] theorem Entity.key_withFields (e : Entity) (fs : List FieldDraft) :
    (e.withFields fs).key = e.key := by
  simp [Entity.key]

/-! ### The maps -/

/-- The entities under their names of one kind, in the order in which the names were declared. -/
abbrev NameMap := List (String × Located)

/-- The entity under a name. -/
def NameMap.get? (map : NameMap) (name : String) : Option Located :=
  (map.find? (·.1 == name)).map (·.2)

/-- Declares a name, unless it is taken. -/
def NameMap.insertIfNew (map : NameMap) (name : String) (l : Located) : NameMap :=
  if (map.get? name).isSome then map else map ++ [(name, l)]

/-- The entities under their keys, and the classes under their tables. -/
structure EntityMaps where
  byKey : NameMap := []
  byTable : NameMap := []

/-- Declares an entity under its key and, if it is a class with a table, under its table.  The empty text
names no table. -/
def EntityMaps.declare (maps : EntityMaps) (l : Located) : EntityMaps :=
  let byKey := maps.byKey.insertIfNew l.entity.key l
  match l.entity.table? with
  | some table => if table.isEmpty then { maps with byKey } else ⟨byKey, maps.byTable.insertIfNew table l⟩
  | none => { maps with byKey }

/-- Declares the entities from position `n` on. -/
def EntityMaps.declareFrom (maps : EntityMaps) (n : Nat) : List Entity → EntityMaps
  | [] => maps
  | e :: es => (maps.declare ⟨n, e⟩).declareFrom (n + 1) es

namespace EntityIndex

/-- The maps of all entities. -/
def maps (index : EntityIndex) : EntityMaps :=
  EntityMaps.declareFrom {} 0 index.entities

/-- Whether a module takes part. -/
def hasModule (index : EntityIndex) (moduleAlias : String) : Bool :=
  index.aliases.contains moduleAlias

/-- The entity with a name in a module. -/
def find? (index : EntityIndex) (moduleAlias className : String) : Option Located :=
  index.maps.byKey.get? (entityKey moduleAlias className)

/-- The entities with a name in the modules other than one, in the order of the modules. -/
def elsewhere (index : EntityIndex) (className exceptAlias : String) : List Located :=
  (index.aliases.filter (· != exceptAlias)).filterMap fun a => index.find? a className

/-- The class that a type stands for. -/
def findClass? (index : EntityIndex) (t : TypeDef) : Option Located :=
  if t.category == .entity then
    (t.moduleAlias.bind fun a => index.find? a t.name).filter fun l => l.entity.kind == .class
  else none

/-- The class with a table. -/
def findTable? (index : EntityIndex) (table : String) : Option Located :=
  index.maps.byTable.get? table

end EntityIndex

end EntitySchema
