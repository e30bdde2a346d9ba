import EntitySchema.Dispatch.Failure
import EntitySchema.Dispatch.TypeToken
import EntitySchema.Dispatch.Value
import EntitySchema.Table.Basic

/-!
# Serializers

The serializer of a module encodes and decodes the instances of its classes.  It answers `none` for
types and values that are not its own; a failure means that the type is its own, but the data is not.
-/

namespace EntitySchema

/-- Encoded data with the name of its class. -/
structure Envelope where
  className : String
  data : Value
  deriving Repr, Inhabited

/-- The serializer of a module. -/
structure Serializer where
  moduleName : String
  tables : List Table
  deserialize : Value → RequestedType → Except Failure (Option Value)
  deserializeByClassName : Envelope → Except Failure (Option Value)
  classNameForObject : Value → Option String
  encode : Value → Except Failure (Option Value)
  tableForType : RequestedType → Option Table

/-! ### Serializers from models -/

/-- A class of a module: its name there, its identity, its table, and how instances are coded. -/
structure ModelEntry where
  className : String
  classId : String
  table : Option String := none
  fromJson : Value → Except Failure Value
  toJson : Value → Except Failure Value

namespace ModelEntry

/-- The entry with a name; of entries with one name the last. -/
def named? (models : List ModelEntry) (name : String) : Option ModelEntry :=
  models.reverse.find? (·.className == name)

/-- The entry that a token names. -/
def ofToken? (models : List ModelEntry) (t : TypeToken) : Option ModelEntry :=
  if t.generics.isEmpty then named? models t.name else none

/-- The entry that is asked for; of entries with one class the first. -/
def ofType? (models : List ModelEntry) : RequestedType → Option ModelEntry
  | .class id => models.find? (·.classId == id)
  | .text s => (TypeToken.read? s).bind (ofToken? models)

/-- The first entry of which a value is an instance. -/
def owner? (classes : ClassHierarchy) (models : List ModelEntry) (v : Value) : Option ModelEntry :=
  models.find? fun e => v.isInstance classes e.classId

/-- Decodes an instance; data that is missing is null if the token allows it. -/
def decode (e : ModelEntry) (t : TypeToken) (data : Value) : Except Failure Value :=
  if t.nullable && data.isMissing then .ok .null else e.fromJson data

/-- Decodes a list of instances. -/
def decodeList (moduleName : String) (e : ModelEntry) (t element : TypeToken) (data : Value) :
    Except Failure Value :=
  if t.nullable && data.isMissing then .ok .null
  else
    match data with
    | .list items => (items.mapM (e.decode element)).map .list
    | _ =>
      .error (.ofShape ("Expected a list of \"" ++ e.className ++ "\" in module \"" ++ moduleName ++ "\"."))

/-- Decodes an entry of a map of instances. -/
def decodeField (e : ModelEntry) (element : TypeToken) (field : String × Value) :
    Except Failure (Value × Value) :=
  (e.decode element field.2).map fun v => (.string field.1, v)

/-- Decodes a map from strings to instances. -/
def decodeMap (moduleName : String) (e : ModelEntry) (t element : TypeToken) (data : Value) :
    Except Failure Value :=
  if t.nullable && data.isMissing then .ok .null
  else
    match data.fields? with
    | some fields => (fields.mapM (e.decodeField element)).map Value.mapOf
    | none =>
      .error (.ofShape ("Expected a map of \"" ++ e.className ++ "\" in module \"" ++ moduleName ++ "\"."))

/-- Decodes data as the type of a token, if the token is one of a class of the module, a list of its
instances, or a map from strings to them. -/
def decodeToken (moduleName : String) (models : List ModelEntry) (t : TypeToken) (data : Value) :
    Except Failure (Option Value) :=
  match ofToken? models t with
  | some e => (e.decode t data).map some
  | none =>
    match t.name, t.generics with
    | "List", [element] =>
      match ofToken? models element with
      | some e => (e.decodeList moduleName t element data).map some
      | none => .ok none
    | "Map", [key, element] =>
      if key.name == "String" then
        match ofToken? models element with
        | some e => (e.decodeMap moduleName t element data).map some
        | none => .ok none
      else .ok none
    | _, _ => .ok none

end ModelEntry

/-- The serializer of a module with the given classes. -/
def Serializer.ofModels (classes : ClassHierarchy) (moduleName : String) (models : List ModelEntry)
    (tables : List Table) : Serializer :=
  { moduleName
    tables
    deserialize := fun data type =>
      match type with
      | .class _ =>
        match ModelEntry.ofType? models type with
        | some e => (e.fromJson data).map some
        | none => .ok none
      | .text s =>
        match TypeToken.read? s with
        | some t => ModelEntry.decodeToken moduleName models t data
        | none => .ok none
    deserializeByClassName := fun record =>
      match ModelEntry.named? models record.className with
      | some e => (e.fromJson record.data).map some
      | none => .ok none
    classNameForObject := fun v => (ModelEntry.owner? classes models v).map (·.className)
    encode := fun v =>
      match ModelEntry.owner? classes models v with
      | some e => (e.toJson v).map some
      | none => .ok none
    tableForType := fun type =>
      ((ModelEntry.ofType? models type).bind (·.table)).bind fun name =>
        tables.find? (·.name == name) }

end EntitySchema
