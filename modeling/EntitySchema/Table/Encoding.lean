import EntitySchema.Model.Encoding
import EntitySchema.Table.Basic

/-!
# Tables as JSON
-/

namespace EntitySchema

/-- A column as JSON. -/
def Column.toJson (c : Column) : Json :=
  .obj ([("name", .str c.name), ("columnType", .str c.columnType), ("isNullable", .bool c.isNullable)] ++
    Json.optional "columnDefault" .str c.columnDefault)

/-- A foreign key as JSON. -/
def ForeignKey.toJson (k : ForeignKey) : Json :=
  .obj [("constraintName", .str k.constraintName), ("columns", .strings k.columns),
    ("referenceTable", .str k.referenceTable), ("referenceColumns", .strings k.referenceColumns),
    ("onDelete", .str k.onDelete.name), ("onUpdate", .str k.onUpdate.name)]

/-- An index of a table as JSON. -/
def TableIndex.toJson (i : TableIndex) : Json :=
  .obj ([("indexName", .str i.indexName), ("elements", .strings i.elements),
    ("type", .str i.type.name), ("isUnique", .bool i.isUnique), ("isPrimary", .bool i.isPrimary)] ++
    Json.optional "distanceFunction" (fun d => .str d.name) i.distanceFunction ++
    Json.optional "parameters" parametersJson i.parameters)

/-- A table as JSON. -/
def Table.toJson (t : Table) : Json :=
  .obj [("name", .str t.name), ("module", .str t.moduleName), ("managed", .bool t.managed),
    ("columns", .arr (t.columns.map Column.toJson)),
    ("foreignKeys", .arr (t.foreignKeys.map ForeignKey.toJson)),
    ("indexes", .arr (t.indexes.map TableIndex.toJson))]

end EntitySchema
