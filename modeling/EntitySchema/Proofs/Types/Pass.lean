import Mathlib.Data.List.Basic
import Mathlib.Tactic.Common
import EntitySchema.Proofs.Reading
import EntitySchema.Proofs.Relations.Counterparts

/-!
# Entities with resolved types

Resolving types changes the types and the defaults of fields and nothing else.  If it gives no errors, the
entities are ready for their relations (`typed_resolve`), and if moreover no name has been reported and
every relation is declared by the first field of its name, every relation can be linked
(`prepared_resolve`).
-/

namespace EntitySchema

namespace TypeResolution

section Pass

variable {index : EntityIndex}

/-! ### One entity -/

/-- The entity with the types of its fields resolved. -/
def typedEntity (index : EntityIndex) (e : Entity) : Entity :=
  (resolveEntity index e).1

/-- The field with its type resolved. -/
def typedField (index : EntityIndex) (e : Entity) (f : FieldDraft) : FieldDraft :=
  (Site.resolveField ⟨index, e, f⟩).1

lemma fields_typedEntity (e : Entity) :
    (typedEntity index e).fields = e.fields.map (typedField index e) := by
  rw [typedEntity, resolveEntity, Entity.fields_withFields (by simp), List.map_map]
  rfl

@[simp] lemma key_typedEntity (e : Entity) : (typedEntity index e).key = e.key :=
  Entity.key_withFields e _

@[simp] lemma header_typedEntity (e : Entity) : (typedEntity index e).header = e.header :=
  Entity.header_withFields e _

@[simp] lemma className_typedEntity (e : Entity) : (typedEntity index e).className = e.className :=
  Entity.className_withFields e _

@[simp] lemma moduleAlias_typedEntity (e : Entity) :
    (typedEntity index e).moduleAlias = e.moduleAlias :=
  Entity.moduleAlias_withFields e _

@[simp] lemma table?_typedEntity (e : Entity) : (typedEntity index e).table? = e.table? :=
  Entity.table?_withFields e _

lemma unchecked_typedEntity {e : Entity} (h : e.Unchecked) : (typedEntity index e).Unchecked :=
  h.withFields _

/-- Resolving types leaves the order of the fields and their names. -/
lemma shadowed_typedEntity {P Q : FieldDraft → Prop} {e : Entity} (h : FieldDraft.Shadowed P e.fields)
    (hPQ : ∀ f, P f → Q (typedField index e f)) : FieldDraft.Shadowed Q (typedEntity index e).fields := by
  rw [FieldDraft.Shadowed, fields_typedEntity, List.pairwise_map]
  exact h.imp fun hfg heq => hPQ _ (hfg heq)

/-- The type that stands for an entity does not depend on its fields. -/
lemma referenceTo_typedEntity (e : Entity) (nullable : Bool) :
    referenceTo (typedEntity index e) nullable = referenceTo e nullable := by
  obtain ⟨header, nameSpan, body⟩ := e
  cases body <;> rfl

@[simp] lemma typedField_name (e : Entity) (f : FieldDraft) : (typedField index e f).name = f.name := rfl

@[simp] lemma typedField_relationOption (e : Entity) (f : FieldDraft) :
    (typedField index e f).relationOption = f.relationOption := rfl

lemma typedField_type (e : Entity) (f : FieldDraft) :
    (typedField index e f).type = (Site.resolve ⟨index, e, f⟩ f.type).1 := rfl

/-- The type of a primary key has no names to resolve. -/
lemma resolve_of_isIdType {s : Site} {t : TypeDef} (h : t.WellFormed TypeDef.IsName)
    (hid : FieldDraft.isIdType t = true) : (s.resolve t).1 = t := by
  cases h with
  | scalar h => rw [TypeDef.scalar, Site.resolve]
  | vector | container => simp [FieldDraft.isIdType] at hid
  | leaf h =>
    obtain ⟨name, nullable, moduleAlias, hb, hcolon, rfl⟩ := h
    simp [FieldDraft.isIdType] at hid

lemma allErrors_resolveField (s : Site) : Issue.AllErrors s.resolveField.2 := by
  unfold Site.resolveField
  simp only [Issue.allErrors_append]
  refine ⟨allErrors_resolve s s.field.type, ?_⟩
  unfold Site.checkDefaults
  split
  · exact Issue.allErrors_nil
  · have hbad : ∀ (type : TypeDef) (values : Option (List EnumValue)) (l : List (Spanned String)),
        Issue.AllErrors (l.map (s.defaultIssue type values)) :=
      fun type values l => Issue.allErrors_map fun _ => rfl
    dsimp only
    refine Issue.allErrors_append.mpr ⟨hbad _ _ _, ?_⟩
    split
    · exact Issue.allErrors_nil
    · exact hbad _ _ _

/-- Without errors a field has no issue. -/
lemma fieldIssues_of_hasErrors {e : Entity} {f : FieldDraft} (hf : f ∈ e.fields)
    (hno : Diagnostic.hasErrors (resolveEntity index e).2 = false) :
    (Site.resolveField ⟨index, e, f⟩).2 = [] := by
  have hall : Issue.AllErrors
      ((e.fields.map fun f => Site.resolveField ⟨index, e, f⟩).flatMap (·.2)) := by
    intro i hi
    obtain ⟨r, hr, hi⟩ := List.mem_flatMap.mp hi
    obtain ⟨f, -, rfl⟩ := List.mem_map.mp hr
    exact allErrors_resolveField _ i hi
  have hnil := Issue.eq_nil_of_hasErrors_eq_false hall hno
  rw [List.flatMap_eq_nil_iff] at hnil
  exact hnil _ (List.mem_map_of_mem hf)

/-- Without errors the type of a field has no issue. -/
lemma issues_of_hasErrors {e : Entity} {f : FieldDraft} (hf : f ∈ e.fields)
    (hno : Diagnostic.hasErrors (resolveEntity index e).2 = false) :
    (Site.resolve ⟨index, e, f⟩ f.type).2 = [] := by
  have hfield := fieldIssues_of_hasErrors hf hno
  simp only [Site.resolveField, List.append_eq_nil_iff] at hfield
  exact hfield.1

/-! ### All entities -/

lemma resolve_entities : (resolve index).1 = index.entities.map (typedEntity index) := by
  rw [resolve, List.map_map]
  rfl

/-- Without errors no entity has errors. -/
lemma hasErrors_resolveEntity (hno : Diagnostic.hasErrors (resolve index).2 = false) {e : Entity}
    (he : e ∈ index.entities) : Diagnostic.hasErrors (resolveEntity index e).2 = false := by
  rw [Diagnostic.hasErrors_eq_false_iff] at hno ⊢
  exact fun d hd => hno d (List.mem_flatMap.mpr ⟨_, List.mem_map_of_mem he, hd⟩)

/-- Entities with resolved types are referred to as before. -/
lemma isReference_typed {t : TypeDef} (h : t.IsReference index.entities) :
    t.IsReference (index.entities.map (typedEntity index)) := by
  obtain ⟨e, he, nullable, hb, rfl⟩ := h
  refine ⟨typedEntity index e, List.mem_map_of_mem he, nullable, ?_, (referenceTo_typedEntity e _).symm⟩
  rw [className_typedEntity]
  exact hb

/-- Entities that have been read without errors, and whose types are resolved without errors, are ready
for their relations. -/
theorem typed_resolve (hdeclared : ∀ e ∈ index.entities, e.Declared)
    (hid : ∀ e ∈ index.entities, e.table?.isSome → ∃ f ∈ e.fields, f.name = "id")
    (hno : Diagnostic.hasErrors (resolve index).2 = false) :
    RelationResolution.Typed ⟨(resolve index).1, index.aliases⟩ := by
  rw [resolve_entities]
  have hclass : ∀ e ∈ index.entities, HasNoColon e.className := fun e he => (hdeclared e he).className
  refine ⟨?_, ?_, ?_⟩
  · intro e' he' f' hf'
    obtain ⟨e, he, rfl⟩ := List.mem_map.mp he'
    rw [fields_typedEntity] at hf'
    obtain ⟨f, hf, rfl⟩ := List.mem_map.mp hf'
    exact (hdeclared e he).unrelated f hf
  · intro e' he' f' hf'
    obtain ⟨e, he, rfl⟩ := List.mem_map.mp he'
    rw [fields_typedEntity] at hf'
    obtain ⟨f, hf, rfl⟩ := List.mem_map.mp hf'
    have hissues := issues_of_hasErrors hf (hasErrors_resolveEntity hno he)
    have hwf := wellFormed_resolve (s := ⟨index, e, f⟩) hclass ((hdeclared e he).wellFormed f hf) hissues
    exact hwf.mono fun _ => isReference_typed
  · intro e' he' htable
    obtain ⟨e, he, rfl⟩ := List.mem_map.mp he'
    rw [table?_typedEntity] at htable
    obtain ⟨f, hf, hname⟩ := hid e he htable
    have hsome : (e.fields.find? (·.name == "id")).isSome :=
      List.find?_isSome.mpr ⟨f, hf, by simpa using hname⟩
    obtain ⟨id, hfind⟩ := Option.isSome_iff_exists.mp hsome
    have hmem := List.mem_of_find?_eq_some hfind
    have hidType := (hdeclared e he).idType htable id hmem (FieldDraft.name_of_find? hfind)
    refine ⟨typedField index e id, ?_, ?_⟩
    · rw [fields_typedEntity, List.find?_map]
      simp [Function.comp_def, hfind]
    · rw [typedField_type, resolve_of_isIdType ((hdeclared e he).wellFormed id hmem) hidType]
      exact hidType

/-- If moreover no name has been reported, and every relation is declared by the first field of its name,
every relation can be linked. -/
theorem prepared_resolve (htyped : RelationResolution.Typed ⟨(resolve index).1, index.aliases⟩)
    (hkeys : index.entities.Pairwise fun e e' => e.key ≠ e'.key)
    (hlead : ∀ e ∈ index.entities, e.RelationsLead) :
    RelationResolution.Prepared ⟨(resolve index).1, index.aliases⟩ := by
  refine { htyped with keys := ?_, names := ?_ }
  · rw [resolve_entities]
    simpa [List.pairwise_map] using hkeys
  · rw [resolve_entities]
    intro e' he'
    obtain ⟨e, he, rfl⟩ := List.mem_map.mp he'
    exact shadowed_typedEntity (hlead e he) fun _ hf => hf

end Pass

end TypeResolution

end EntitySchema
