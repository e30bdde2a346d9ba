import EntitySchema.Model

/-!
# Tables

The database tables of the classes of a module: columns, foreign keys and indexes.
-/

namespace EntitySchema

/-- A column. -/
structure Column where
  name : String
  columnType : String
  isNullable : Bool
  /-- The default, as an expression of the database. -/
  columnDefault : Option String := none
  deriving DecidableEq, Repr, Inhabited

/-- A foreign key. -/
structure ForeignKey where
  constraintName : String
  columns : List String
  referenceTable : String
  referenceColumns : List String
  onDelete : ReferentialAction
  onUpdate : ReferentialAction
  deriving DecidableEq, Repr, Inhabited

/-- An index of a table. -/
structure TableIndex where
  indexName : String
  elements : List String
  type : IndexType
  isUnique : Bool
  isPrimary : Bool
  distanceFunction : Option DistanceFunction := none
  parameters : Option (List (String × Number)) := none
  deriving DecidableEq, Repr, Inhabited

/-- A table. -/
structure Table where
  name : String
  moduleName : String
  managed : Bool
  columns : List Column
  foreignKeys : List ForeignKey
  indexes : List TableIndex
  deriving DecidableEq, Repr, Inhabited

end EntitySchema
