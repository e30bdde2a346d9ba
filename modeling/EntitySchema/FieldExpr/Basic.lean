import EntitySchema.FieldExpr.Segment
import EntitySchema.Model
import EntitySchema.TypeExpr.Basic

/-!
# Field expressions

A field is declared by a type followed by options: a relation with parameters, defaults, a scope, and
whether the field is persisted.
-/

namespace EntitySchema

/-- The parameters of a relation. -/
inductive RelationKey where
  | name | parent | field | onDelete | onUpdate | optional
  deriving DecidableEq, Repr, Inhabited

/-- The word for a parameter. -/
def RelationKey.word : RelationKey → String
  | .name => "name"
  | .parent => "parent"
  | .field => "field"
  | .onDelete => "onDelete"
  | .onUpdate => "onUpdate"
  | .optional => "optional"

/-- The parameters in the order in which they are listed. -/
def relationKeys : List RelationKey :=
  [.name, .parent, .field, .onDelete, .onUpdate, .optional]

/-- A parameter of a relation. -/
structure RelationParameter where
  key : RelationKey
  value : Option String
  segment : Segment
  deriving DecidableEq, Repr

/-- The three ways to declare a default. -/
inductive DefaultKey where
  | both | model | persist
  deriving DecidableEq, Repr, Inhabited

/-- The word for a way to declare a default. -/
def DefaultKey.word : DefaultKey → String
  | .both => "default"
  | .model => "defaultModel"
  | .persist => "defaultPersist"

/-- The words that start an option. -/
def optionWords : List String :=
  ["relation", "default", "defaultModel", "defaultPersist", "scope", "persist"]

/-- What an option says. -/
inductive OptionBody where
  | relation (parameters : List RelationParameter)
  | default (key : DefaultKey) (value : String)
  | scope (value : FieldScope)
  | persist (persist : Bool)
  deriving DecidableEq, Repr

/-- The word of an option. -/
def OptionBody.word : OptionBody → String
  | .relation _ => "relation"
  | .default key _ => key.word
  | .scope _ => "scope"
  | .persist _ => "persist"

/-- An option of a field. -/
structure FieldOption where
  body : OptionBody
  segment : Segment
  deriving DecidableEq, Repr

/-- Something wrong with an expression, and where. -/
structure ExprIssue where
  message : String
  start : Nat
  stop : Nat
  deriving DecidableEq, Repr

/-- A field expression that has been read. -/
structure FieldExpr where
  type : Option TypeExpr
  typeSegment : Segment
  options : List FieldOption
  issues : List ExprIssue
  deriving Repr

end EntitySchema
