import EntitySchema.Entity.Lookup

/-!
# Resolving the types of fields

A name that is not built in stands for an entity: the one in the module that it names, or else the one
in the module of its document, or else the only one in the other modules.  A name that cannot be
resolved is reported and stays as it is.  Defaults of fields whose type is an entity are checked now:
only the values of an enum are defaults.
-/

namespace EntitySchema

namespace TypeResolution

/-- What a name in the type of a field is resolved against. -/
structure Site where
  index : EntityIndex
  entity : Entity
  field : FieldDraft

/-- An issue about the type of a field. -/
def Site.issue (s : Site) (code : Code) (message : String) : Issue :=
  { message, code, category := .typeResolution
    span := some s.field.typeSpan, pointer := some s.field.pointer }

/-- The issue of a name that no entity has. -/
def Site.notFound (s : Site) (name : String) : Issue :=
  s.issue .unresolvedType
    ("The type \"" ++ name ++ "\" used by field \"" ++ s.field.name ++ "\" was not found.")

/-- The issue of a module that does not take part. -/
def Site.unknownModule (s : Site) (moduleAlias : String) : Issue :=
  s.issue .unknownModule ("The module \"" ++ moduleAlias ++ "\" was not found.")

/-- The issue of a name that several other modules declare. -/
def Site.ambiguous (s : Site) (name : String) (candidates : List Located) : Issue :=
  s.issue .ambiguousType
    ("The type \"" ++ name ++ "\" used by field \"" ++ s.field.name ++
      "\" is declared by several modules (" ++
      String.intercalate ", " (candidates.map (·.entity.moduleAlias)) ++
      "). Use a \"module:<alias>:\" prefix.")

/-- The entity that a name stands for. -/
def Site.lookup (s : Site) (moduleAlias : Option String) (name : String) : Except Issue Entity :=
  match moduleAlias with
  | some a =>
    if !s.index.hasModule a then .error (s.unknownModule a)
    else
      match s.index.find? a name with
      | some l => .ok l.entity
      | none => .error (s.notFound name)
  | none =>
    match s.index.find? s.entity.moduleAlias name with
    | some l => .ok l.entity
    | none =>
      match s.index.elsewhere name s.entity.moduleAlias with
      | [] => .error (s.notFound name)
      | [l] => .ok l.entity
      | candidates => .error (s.ambiguous name candidates)

/-- The type that stands for an entity. -/
def referenceTo (e : Entity) (nullable : Bool) : TypeDef :=
  { name := e.className
    nullable
    generics := []
    category := .entity
    moduleAlias := some e.moduleAlias
    entityKind := some e.kind
    enumSerialization :=
      match e.body with
      | .enum _ serialized _ => serialized
      | _ => none }

mutual

/-- The type with all names resolved. -/
def Site.resolve (s : Site) (t : TypeDef) : TypeDef × List Issue :=
  match t with
  | ⟨name, nullable, generics, category, moduleAlias, entityKind, dimension, enumSerialization⟩ =>
    match category with
    | .container =>
      let (generics, issues) := s.resolveAll generics
      (⟨name, nullable, generics, category, moduleAlias, entityKind, dimension, enumSerialization⟩, issues)
    | .unresolved =>
      match s.lookup moduleAlias name with
      | .ok e => (referenceTo e nullable, [])
      | .error issue =>
        (⟨name, nullable, generics, category, moduleAlias, entityKind, dimension, enumSerialization⟩,
          [issue])
    | .scalar | .vector | .entity =>
      (⟨name, nullable, generics, category, moduleAlias, entityKind, dimension, enumSerialization⟩, [])

/-- The types with all names resolved. -/
def Site.resolveAll (s : Site) : List TypeDef → List TypeDef × List Issue
  | [] => ([], [])
  | t :: ts =>
    let (t, issues) := s.resolve t
    let (ts, more) := s.resolveAll ts
    (t :: ts, issues ++ more)

end

/-! ### Defaults of entities -/

/-- The values of the enum that a type stands for. -/
def enumValues? (index : EntityIndex) (t : TypeDef) : Option (List EnumValue) :=
  match index.find? (t.moduleAlias.getD "") t.name with
  | some ⟨_, ⟨_, _, .enum values _ _⟩⟩ => some values
  | _ => none

/-- The issue of a default that is no value of an enum. -/
def Site.defaultIssue (s : Site) (type : TypeDef) (values : Option (List EnumValue))
    (d : Spanned String) : Issue :=
  { message :=
      if values.isSome then
        "The default value \"" ++ d.value ++ "\" is not a value of the enum \"" ++ type.name ++ "\"."
      else "Default values are not supported for the type \"" ++ type.describe ++ "\"."
    code := .invalidDefaultValue, category := .field
    span := some d.span, pointer := some s.field.pointer }

/-- Whether a default is one of the values. -/
def isValue (values : Option (List EnumValue)) (d : Spanned String) : Bool :=
  values.any fun vs => vs.any (·.name == d.value)

/-- The defaults of a field with the resolved type.  A default that one option declares for both
purposes is reported once. -/
def Site.checkDefaults (s : Site) (type : TypeDef) (d : DraftDefaults) : DraftDefaults × List Issue :=
  if type.category != .entity then (d, [])
  else
    let values := enumValues? s.index type
    let bad (d : Option (Spanned String)) : List Issue :=
      (d.filter fun d => !isValue values d).toList.map (s.defaultIssue type values)
    (⟨d.model.filter (isValue values), d.persist.filter (isValue values), d.isShared⟩,
      bad d.model ++ if d.isShared then [] else bad d.persist)

/-! ### Fields and entities -/

/-- The field with its type resolved and its defaults checked. -/
def Site.resolveField (s : Site) : FieldDraft × List Issue :=
  let (type, typeIssues) := s.resolve s.field.type
  let (defaults, defaultIssues) := s.checkDefaults type s.field.defaults
  ({ s.field with type, defaults }, typeIssues ++ defaultIssues)

/-- The entity with the types of its fields resolved. -/
def resolveEntity (index : EntityIndex) (e : Entity) : Entity × List Diagnostic :=
  let results := e.fields.map fun field => Site.resolveField ⟨index, e, field⟩
  (e.withFields (results.map (·.1)), (results.flatMap (·.2)).map e.diagnostic)

/-- The entities with the types of their fields resolved. -/
def resolve (index : EntityIndex) : List Entity × List Diagnostic :=
  let results := index.entities.map (resolveEntity index)
  (results.map (·.1), results.flatMap (·.2))

end TypeResolution

end EntitySchema
