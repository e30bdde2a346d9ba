import EntitySchema.Number.Text

/-!
# Types of fields

A type has a name, may be nullable, and may have type arguments or a dimension.  Built-in types are
scalars, vectors and containers; every other name stands for an entity once it is resolved.
-/

namespace EntitySchema

/-- What kind of type it is. -/
inductive TypeCategory where
  | scalar | vector | container | entity | unresolved
  deriving DecidableEq, Repr, Inhabited

/-- The name of a category. -/
def TypeCategory.name : TypeCategory → String
  | .scalar => "scalar"
  | .vector => "vector"
  | .container => "container"
  | .entity => "entity"
  | .unresolved => "unresolved"

/-- What kind of entity a document declares. -/
inductive EntityKind where
  | «class» | exception | enum
  deriving DecidableEq, Repr, Inhabited

/-- The name of an entity kind. -/
def EntityKind.name : EntityKind → String
  | .class => "class"
  | .exception => "exception"
  | .enum => "enum"

/-- The entity kinds. -/
def entityKinds : List EntityKind := [.class, .exception, .enum]

/-- How the values of an enum are stored. -/
inductive EnumSerialization where
  | byName | byIndex
  deriving DecidableEq, Repr, Inhabited

/-- The name of a way to store values. -/
def EnumSerialization.name : EnumSerialization → String
  | .byName => "byName"
  | .byIndex => "byIndex"

/-- A type. -/
structure TypeDef where
  name : String
  nullable : Bool
  generics : List TypeDef
  category : TypeCategory
  /-- The module that declares the entity. -/
  moduleAlias : Option String := none
  entityKind : Option EntityKind := none
  dimension : Option Number := none
  /-- How the values of an enum are stored. -/
  enumSerialization : Option EnumSerialization := none
  deriving Repr, Inhabited

namespace TypeDef

mutual

/-- The text of a type. -/
def describe (t : TypeDef) : String :=
  match t with
  | ⟨name, nullable, generics, _, _, _, dimension, _⟩ =>
    let dimension := match dimension with
      | some d => "(" ++ d.text ++ ")"
      | none => ""
    let arguments := match generics with
      | [] => ""
      | g :: gs => "<" ++ String.intercalate ", " (describe g :: describeAll gs) ++ ">"
    name ++ dimension ++ arguments ++ (if nullable then "?" else "")

/-- The texts of types. -/
def describeAll : List TypeDef → List String
  | [] => []
  | t :: ts => describe t :: describeAll ts

end

/-- The type with the given nullability. -/
def withNullable (t : TypeDef) (nullable : Bool) : TypeDef :=
  { t with nullable }

/-- The type of the elements of a list type. -/
def listElement? (t : TypeDef) : Option TypeDef :=
  if t.category == .container && t.name == "List" then t.generics.head? else none

/-- Whether two types have the same text apart from their own nullability. -/
def sameBase (s t : TypeDef) : Bool :=
  (s.withNullable false).describe == (t.withNullable false).describe

/-- A scalar type. -/
def scalar (name : String) (nullable : Bool) : TypeDef :=
  { name, nullable, generics := [], category := .scalar }

end TypeDef

/-! ### Built-in types -/

/-- What a built-in name stands for. -/
inductive Builtin where
  | scalar
  | vector
  | container (arity : Nat)
  deriving DecidableEq, Repr

/-- The names of the scalar types. -/
def scalarTypeNames : List String :=
  ["int", "double", "bool", "String", "DateTime", "Duration", "ByteData", "UuidValue", "BigInt", "Uri"]

/-- The names of the vector types. -/
def vectorTypeNames : List String :=
  ["Vector", "HalfVector", "SparseVector", "Bit"]

/-- What a name stands for, if it is built in. -/
def builtin? (name : String) : Option Builtin :=
  if scalarTypeNames.contains name then some .scalar
  else if vectorTypeNames.contains name then some .vector
  else match name with
    | "List" => some (.container 1)
    | "Set" => some (.container 1)
    | "Map" => some (.container 2)
    | _ => none

/-- The category of the types with a built-in name. -/
def Builtin.category : Builtin → TypeCategory
  | .scalar => .scalar
  | .vector => .vector
  | .container _ => .container

end EntitySchema
