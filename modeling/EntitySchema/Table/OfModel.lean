import EntitySchema.DefaultValue
import EntitySchema.Table.Basic

/-!
# The tables of a module

Every class with a table has one column for each field that is persisted, one foreign key for each of
them that has a foreign key relation, the index of the primary key, and its own indexes.
-/

namespace EntitySchema

/-! ### Columns -/

/-- The column type of a scalar type. -/
def scalarColumnType (name : String) : String :=
  match name with
  | "int" => "bigint"
  | "double" => "double precision"
  | "bool" => "boolean"
  | "String" => "text"
  | "BigInt" => "text"
  | "Uri" => "text"
  | "DateTime" => "timestamp without time zone"
  | "Duration" => "bigint"
  | "ByteData" => "bytea"
  | "UuidValue" => "uuid"
  | _ => "json"

/-- The column type of a vector type, without its dimension. -/
def vectorColumnType (name : String) : String :=
  match name with
  | "HalfVector" => "halfvec"
  | "SparseVector" => "sparsevec"
  | "Bit" => "bit"
  | _ => "vector"

/-- The column type of a type; what has no column type of its own is stored as JSON. -/
def TypeDef.columnType (t : TypeDef) : String :=
  match t.category with
  | .scalar => scalarColumnType t.name
  | .vector => vectorColumnType t.name ++ "(" ++ (t.dimension.getD Number.zero).text ++ ")"
  | .entity =>
    if t.entityKind != some .enum then "json"
    else if t.enumSerialization == some .byName then "text"
    else "bigint"
  | .container | .unresolved => "json"

/-! ### Defaults -/

/-- The characters with every single quote written twice. -/
def doubleQuotes : List Char → List Char
  | [] => []
  | c :: cs => if c == '\'' then '\'' :: '\'' :: doubleQuotes cs else c :: doubleQuotes cs

/-- A literal of the database with a cast. -/
def sqlLiteral (value cast : String) : String :=
  String.ofList ('\'' :: doubleQuotes value.toList ++ ['\'']) ++ "::" ++ cast

/-- The text between quotes, or the text itself. -/
def unquoted (value : String) : String :=
  (DefaultValue.unquote? value).getD value

/-- An enum as the tables need it: where it is declared, and the names of its values. -/
structure EnumValues where
  className : String
  moduleAlias : String
  values : List String
  deriving DecidableEq, Repr

/-- The enums among the definitions of modules. -/
def enumsOf (modules : List ProtocolDef) : List EnumValues :=
  modules.flatMap fun p => p.models.filterMap fun m =>
    match m.body with
    | .enum values _ _ => some ⟨m.header.className, m.header.moduleAlias, values.map (·.name)⟩
    | _ => none

/-- The enum that a type stands for. -/
def findEnum (enums : List EnumValues) (t : TypeDef) : Option EnumValues :=
  enums.find? fun e => e.className == t.name && some e.moduleAlias == t.moduleAlias

/-- The default of a column whose type is an entity. -/
def entityDefault (enums : List EnumValues) (t : TypeDef) (value : String) : Option String :=
  if t.enumSerialization == some .byName then some (sqlLiteral value "text")
  else
    (findEnum enums t).bind fun e =>
      (e.values.findIdx? (· == value)).map fun i => toString i

/-- The default of a column whose type has the name, and is no entity. -/
def builtinDefault (table typeName value : String) : Option String :=
  match typeName with
  | "int" => some (if value == "serial" then "nextval('" ++ table ++ "_id_seq'::regclass)" else value)
  | "DateTime" =>
    some (if value == "now" then "CURRENT_TIMESTAMP"
      else sqlLiteral value "timestamp without time zone")
  | "UuidValue" =>
    some (if value == "random" then "gen_random_uuid()"
      else if value == "random_v7" then "gen_random_uuid_v7()"
      else sqlLiteral (unquoted value) "uuid")
  | "String" | "BigInt" => some (sqlLiteral (unquoted value) "text")
  | "Duration" => (DefaultValue.durationMilliseconds? value).map Number.text
  | _ => some value

/-- The default that applies when a row is inserted. -/
def FieldDef.persistDefault? (f : FieldDef) : Option String :=
  (f.defaults.find? (·.origin == .persist)).map (·.value)

/-- The default of the column of a field. -/
def columnDefault (enums : List EnumValues) (table : String) (f : FieldDef) : Option String :=
  f.persistDefault?.bind fun value =>
    if f.type.category == .entity then entityDefault enums f.type value
    else builtinDefault table f.type.name value

/-! ### Tables -/

/-- The column of a field; the primary key is never null. -/
def columnOf (enums : List EnumValues) (table : String) (f : FieldDef) : Column :=
  { name := f.name
    columnType := f.type.columnType
    isNullable := f.name != "id" && f.type.nullable
    columnDefault := columnDefault enums table f }

/-- The foreign keys of fields, numbered from `n` on. -/
def foreignKeysFrom (table : String) (n : Nat) : List FieldDef → List ForeignKey
  | [] => []
  | f :: fs =>
    match f.relation.bind RelationDef.foreignKey? with
    | none => foreignKeysFrom table n fs
    | some r =>
      { constraintName := table ++ "_fk_" ++ toString n
        columns := [f.name]
        referenceTable := r.parentTable
        referenceColumns := [r.referencedField]
        onDelete := r.onDelete
        onUpdate := r.onUpdate } :: foreignKeysFrom table (n + 1) fs

/-- The index of the primary key. -/
def primaryIndex (table : String) : TableIndex :=
  { indexName := table ++ "_pkey", elements := ["id"], type := .btree, isUnique := true, isPrimary := true }

/-- The index of a table for an index of its class. -/
def tableIndexOf (i : IndexDef) : TableIndex :=
  { indexName := i.name
    elements := i.fields
    type := i.type
    isUnique := i.unique
    isPrimary := false
    distanceFunction := i.distanceFunction
    parameters := i.parameters }

/-- The table of a class. -/
def tableOf (enums : List EnumValues) (moduleName table : String) (managed : Bool)
    (fields : List FieldDef) (indexes : List IndexDef) : Table :=
  let persisted := fields.filter (·.shouldPersist)
  { name := table
    moduleName
    managed
    columns := persisted.map (columnOf enums table)
    foreignKeys := foreignKeysFrom table 0 persisted
    indexes := primaryIndex table :: indexes.map tableIndexOf }

/-- The table of a definition, if it is a class with a table. -/
def ModelDef.table? (enums : List EnumValues) (moduleName : String) (m : ModelDef) : Option Table :=
  match m.body with
  | .class (some table) managed fields indexes => some (tableOf enums moduleName table managed fields indexes)
  | _ => none

/-- The tables of a module; enums are looked up in the other modules too. -/
def ProtocolDef.tables (p : ProtocolDef) (others : List ProtocolDef) : List Table :=
  p.models.filterMap (ModelDef.table? (enumsOf (p :: others)) p.moduleName)

end EntitySchema
