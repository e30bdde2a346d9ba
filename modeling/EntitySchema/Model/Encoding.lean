import EntitySchema.Json.Basic
import EntitySchema.Model

/-!
# Definitions as JSON

Entries that a definition does not have are left out, and so is an empty documentation.
-/

namespace EntitySchema

/-- A number; one that is not finite is marked by its text. -/
def Number.toJson (x : Number) : Json :=
  if x.isFinite then .num x else .obj [("$number", .str x.text)]

mutual

/-- A type as JSON. -/
def TypeDef.toJson (t : TypeDef) : Json :=
  match t with
  | ⟨name, nullable, generics, category, moduleAlias, entityKind, dimension, enumSerialization⟩ =>
    .obj ([("name", .str name), ("nullable", .bool nullable), ("generics", .arr (TypeDef.listToJson generics)),
      ("category", .str category.name)] ++
      Json.optional "moduleAlias" .str moduleAlias ++
      Json.optional "entityKind" (fun k => .str k.name) entityKind ++
      Json.optional "dimension" Number.toJson dimension ++
      Json.optional "enumSerialization" (fun s => .str s.name) enumSerialization)

/-- Types as JSON. -/
def TypeDef.listToJson : List TypeDef → List Json
  | [] => []
  | t :: ts => TypeDef.toJson t :: TypeDef.listToJson ts

end

/-- The entry of a documentation that is not empty. -/
def documentationEntry (lines : List String) : List (String × Json) :=
  if lines.isEmpty then [] else [("documentation", .strings lines)]

/-- Index parameters as JSON. -/
def parametersJson (parameters : List (String × Number)) : Json :=
  Json.ofEntries (parameters.map fun p => (p.1, p.2.toJson))

/-- A default as JSON. -/
def DefaultDef.toJson (d : DefaultDef) : Json :=
  .obj [("origin", .str d.origin.name), ("value", .str d.value)]

/-- A relation as JSON. -/
def RelationDef.toJson : RelationDef → Json
  | .object r =>
    .obj ([("kind", .str "object"), ("targetClass", .str r.targetClass),
      ("targetModuleAlias", .str r.targetModuleAlias), ("targetTable", .str r.targetTable)] ++
      Json.optional "name" .str r.name ++
      Json.optional "foreignKeyField" .str r.foreignKeyField ++
      Json.optional "targetForeignKeyField" .str r.targetForeignKeyField)
  | .list r =>
    .obj ([("kind", .str "list"), ("targetClass", .str r.targetClass),
      ("targetModuleAlias", .str r.targetModuleAlias), ("targetTable", .str r.targetTable),
      ("foreignKeyField", .str r.foreignKeyField), ("implicitForeignKey", .bool r.implicitForeignKey)] ++
      Json.optional "name" .str r.name)
  | .foreignKey r =>
    .obj ([("kind", .str "foreignKey"), ("parentTable", .str r.parentTable),
      ("referencedField", .str r.referencedField), ("onDelete", .str r.onDelete.name),
      ("onUpdate", .str r.onUpdate.name)] ++
      Json.optional "name" .str r.name ++
      Json.optional "relationField" .str r.relationField ++
      Json.optional "relationFieldOwner" .str r.relationFieldOwner)

/-- A field as JSON. -/
def FieldDef.toJson (f : FieldDef) : Json :=
  .obj ([("name", .str f.name), ("type", f.type.toJson), ("scope", .str f.scope.name),
    ("shouldPersist", .bool f.shouldPersist), ("defaults", .arr (f.defaults.map DefaultDef.toJson)),
    ("origin", .str f.origin.name)] ++
    Json.optional "relation" RelationDef.toJson f.relation ++
    documentationEntry f.documentation)

/-- An index as JSON. -/
def IndexDef.toJson (i : IndexDef) : Json :=
  .obj ([("name", .str i.name), ("fields", .strings i.fields), ("type", .str i.type.name),
    ("unique", .bool i.unique)] ++
    Json.optional "distanceFunction" (fun d => .str d.name) i.distanceFunction ++
    Json.optional "parameters" parametersJson i.parameters)

/-- A value of an enum as JSON. -/
def EnumValue.toJson (v : EnumValue) : Json :=
  .obj (("name", .str v.name) :: documentationEntry v.documentation)

/-- The entries of what a definition declares. -/
def ModelBody.toEntries : ModelBody → List (String × Json)
  | .class table managed fields indexes =>
    [("kind", .str EntityKind.class.name), ("managedMigration", .bool managed),
      ("fields", .arr (fields.map FieldDef.toJson)), ("indexes", .arr (indexes.map IndexDef.toJson))] ++
      Json.optional "table" .str table
  | .exception fields =>
    [("kind", .str EntityKind.exception.name), ("fields", .arr (fields.map FieldDef.toJson))]
  | .enum values serialized defaultValue =>
    [("kind", .str EntityKind.enum.name), ("values", .arr (values.map EnumValue.toJson))] ++
      Json.optional "serialized" (fun s => .str s.name) serialized ++
      Json.optional "defaultValue" .str defaultValue

/-- A definition as JSON. -/
def ModelDef.toJson (m : ModelDef) : Json :=
  let h := m.header
  .obj ([("fileName", .str h.fileName), ("sourceFileName", .str h.sourceFileName),
    ("className", .str h.className), ("subDirectoryParts", .strings h.subDirectoryParts),
    ("serverOnly", .bool h.serverOnly), ("type", h.type.toJson), ("moduleAlias", .str h.moduleAlias)] ++
    documentationEntry h.documentation ++ m.body.toEntries)

/-- The definitions of a module as JSON. -/
def ProtocolDef.toJson (p : ProtocolDef) : Json :=
  .obj [("moduleName", .str p.moduleName), ("moduleAlias", .str p.moduleAlias),
    ("models", .arr (p.models.map ModelDef.toJson))]

end EntitySchema
