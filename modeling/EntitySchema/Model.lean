import EntitySchema.TypeDef

/-!
# Model definitions

What the compiler makes of model documents: classes with fields and indexes, exceptions and enums,
grouped into modules.  Every definition carries the identity of its document.
-/

namespace EntitySchema

/-- Where a field is visible. -/
inductive FieldScope where
  | all | serverOnly | none
  deriving DecidableEq, Repr, Inhabited

/-- The name of a scope. -/
def FieldScope.name : FieldScope → String
  | .all => "all"
  | .serverOnly => "serverOnly"
  | .none => "none"

/-- The scopes. -/
def fieldScopes : List FieldScope := [.all, .serverOnly, .none]

/-- What happens to a row when the row that it refers to changes. -/
inductive ReferentialAction where
  | cascade | restrict | noAction | setNull | setDefault
  deriving DecidableEq, Repr, Inhabited

/-- The name of an action. -/
def ReferentialAction.name : ReferentialAction → String
  | .cascade => "Cascade"
  | .restrict => "Restrict"
  | .noAction => "NoAction"
  | .setNull => "SetNull"
  | .setDefault => "SetDefault"

/-- The actions. -/
def referentialActions : List ReferentialAction :=
  [.cascade, .restrict, .noAction, .setNull, .setDefault]

/-- The action with a name. -/
def ReferentialAction.ofName? (name : String) : Option ReferentialAction :=
  referentialActions.find? (·.name == name)

/-- The kinds of indexes. -/
inductive IndexType where
  | btree | hash | gist | spgist | gin | brin | hnsw | ivfflat
  deriving DecidableEq, Repr, Inhabited

/-- The name of an index kind. -/
def IndexType.name : IndexType → String
  | .btree => "btree"
  | .hash => "hash"
  | .gist => "gist"
  | .spgist => "spgist"
  | .gin => "gin"
  | .brin => "brin"
  | .hnsw => "hnsw"
  | .ivfflat => "ivfflat"

/-- The index kinds. -/
def indexTypes : List IndexType := [.btree, .hash, .gist, .spgist, .gin, .brin, .hnsw, .ivfflat]

/-- The index kind with a name. -/
def IndexType.ofName? (name : String) : Option IndexType :=
  indexTypes.find? (·.name == name)

/-- Whether an index kind is for vectors. -/
def IndexType.isVector : IndexType → Bool
  | .hnsw | .ivfflat => true
  | _ => false

/-- How the distance of two vectors is measured. -/
inductive DistanceFunction where
  | l2 | innerProduct | cosine | l1 | hamming | jaccard
  deriving DecidableEq, Repr, Inhabited

/-- The name of a distance function. -/
def DistanceFunction.name : DistanceFunction → String
  | .l2 => "l2"
  | .innerProduct => "innerProduct"
  | .cosine => "cosine"
  | .l1 => "l1"
  | .hamming => "hamming"
  | .jaccard => "jaccard"

/-- The distance functions. -/
def distanceFunctions : List DistanceFunction :=
  [.l2, .innerProduct, .cosine, .l1, .hamming, .jaccard]

/-- The distance function with a name. -/
def DistanceFunction.ofName? (name : String) : Option DistanceFunction :=
  distanceFunctions.find? (·.name == name)

/-- When a default applies: when an instance is made, or when a row is inserted. -/
inductive DefaultOrigin where
  | model | persist
  deriving DecidableEq, Repr, Inhabited

/-- The name of the origin of a default. -/
def DefaultOrigin.name : DefaultOrigin → String
  | .model => "model"
  | .persist => "persist"

/-- A default of a field. -/
structure DefaultDef where
  origin : DefaultOrigin
  value : String
  deriving DecidableEq, Repr, Inhabited

/-- The relation of a field that holds an object of another class.  One of the two foreign keys is
known: a field of the own class, or a field of the other one. -/
structure ObjectRelation where
  name : Option String := none
  targetClass : String
  targetModuleAlias : String
  targetTable : String
  foreignKeyField : Option String := none
  targetForeignKeyField : Option String := none
  deriving DecidableEq, Repr, Inhabited

/-- The relation of a field that holds a list of objects; the key is a field of their class. -/
structure ListRelation where
  name : Option String := none
  targetClass : String
  targetModuleAlias : String
  targetTable : String
  foreignKeyField : String
  /-- Whether the key was added by the compiler and is hidden. -/
  implicitForeignKey : Bool
  deriving DecidableEq, Repr, Inhabited

/-- The relation of a field that holds the key of a row of another table. -/
structure ForeignKeyRelation where
  name : Option String := none
  parentTable : String
  referencedField : String
  onDelete : ReferentialAction
  onUpdate : ReferentialAction
  /-- The object or list field that the key belongs to. -/
  relationField : Option String := none
  relationFieldOwner : Option String := none
  deriving DecidableEq, Repr, Inhabited

/-- The relation of a field. -/
inductive RelationDef where
  | object (r : ObjectRelation)
  | list (r : ListRelation)
  | foreignKey (r : ForeignKeyRelation)
  deriving DecidableEq, Repr, Inhabited

/-- The foreign key relation, if the relation is one. -/
def RelationDef.foreignKey? : RelationDef → Option ForeignKeyRelation
  | .foreignKey r => some r
  | _ => none

/-- Whether a field stands in the document or was added by the compiler. -/
inductive FieldOrigin where
  | declared | synthesized
  deriving DecidableEq, Repr, Inhabited

/-- The name of the origin of a field. -/
def FieldOrigin.name : FieldOrigin → String
  | .declared => "declared"
  | .synthesized => "synthesized"

/-- A field of a class or exception. -/
structure FieldDef where
  name : String
  type : TypeDef
  scope : FieldScope
  shouldPersist : Bool
  relation : Option RelationDef := none
  defaults : List DefaultDef := []
  documentation : List String := []
  origin : FieldOrigin := .declared
  deriving Repr, Inhabited

/-- An index of a class. -/
structure IndexDef where
  name : String
  fields : List String
  type : IndexType
  unique : Bool
  distanceFunction : Option DistanceFunction := none
  parameters : Option (List (String × Number)) := none
  deriving DecidableEq, Repr, Inhabited

/-- A value of an enum. -/
structure EnumValue where
  name : String
  documentation : List String := []
  deriving DecidableEq, Repr, Inhabited

/-- What all definitions have: the identity of the document, the class name and its type. -/
structure ModelHeader where
  fileName : String
  sourceFileName : String
  className : String
  subDirectoryParts : List String
  serverOnly : Bool
  documentation : List String
  type : TypeDef
  moduleAlias : String
  deriving Repr, Inhabited

/-- What a definition declares. -/
inductive ModelBody where
  | class (table : Option String) (managedMigration : Bool) (fields : List FieldDef)
      (indexes : List IndexDef)
  | exception (fields : List FieldDef)
  | enum (values : List EnumValue) (serialized : Option EnumSerialization)
      (defaultValue : Option String)
  deriving Repr, Inhabited

/-- A definition. -/
structure ModelDef where
  header : ModelHeader
  body : ModelBody
  deriving Repr, Inhabited

/-- What kind of entity a definition declares. -/
def ModelDef.kind (m : ModelDef) : EntityKind :=
  match m.body with
  | .class .. => .class
  | .exception .. => .exception
  | .enum .. => .enum

/-- The fields of a definition; an enum has none. -/
def ModelDef.fields (m : ModelDef) : List FieldDef :=
  match m.body with
  | .class _ _ fields _ => fields
  | .exception fields => fields
  | .enum .. => []

/-- The definitions of a module. -/
structure ProtocolDef where
  moduleName : String
  moduleAlias : String
  models : List ModelDef
  deriving Repr, Inhabited

end EntitySchema
