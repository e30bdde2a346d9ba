import EntitySchema.Entity.Basic

/-!
# The definition of an entity

Once all passes are done the drafts of an entity become the fields and indexes of its definition.
-/

namespace EntitySchema

/-- The defaults of a field. -/
def DraftDefaults.toList (d : DraftDefaults) : List DefaultDef :=
  (d.model.map fun s => (⟨.model, s.value⟩ : DefaultDef)).toList ++
    (d.persist.map fun s => (⟨.persist, s.value⟩ : DefaultDef)).toList

/-- The field of a draft; a hidden field is visible nowhere. -/
def FieldDraft.toDefinition (f : FieldDraft) : FieldDef :=
  { name := f.name
    type := f.type
    scope := if f.hidden then .none else f.scope
    shouldPersist := f.shouldPersist
    relation := f.relation
    defaults := f.defaults.toList
    documentation := f.documentation
    origin := f.origin }

/-- What an entity declares, as a definition. -/
def EntityBody.toDefinition : EntityBody → ModelBody
  | .class c =>
    .class (c.table.map (·.value)) c.managedMigration (c.fields.map FieldDraft.toDefinition)
      (c.resolvedIndexes.getD [])
  | .exception fields => .exception (fields.map FieldDraft.toDefinition)
  | .enum values serialized defaultValue => .enum values serialized defaultValue

/-- The definition of an entity. -/
def Entity.toDefinition (e : Entity) : ModelDef :=
  ⟨e.header, e.body.toDefinition⟩

end EntitySchema
