import Mathlib.Data.List.Basic
import Mathlib.Tactic.Common
import EntitySchema.Proofs.Declarations
import EntitySchema.Proofs.Defaults
import EntitySchema.Proofs.Relations.Frame

/-!
# What the passes leave alone

The passes resolve types, link relations and check indexes, and what they do not own they leave alone, for all
entities that have been read and whatever errors there are.  Resolving a type leaves its text (`sameText_resolve`);
a default goes only if the type of its field is found to be an entity, and with an error (`FieldDef.KeepsDefault`);
and only keys are added.  So the definition of an entity has the fields that have been read, in their order, with
keys between them (`passes_frame`).
-/

namespace EntitySchema

/-! ### Types -/

namespace TypeDef

/-- Two types with one text, with the same nullability and the same texts of arguments. -/
structure SameText (t u : TypeDef) : Prop where
  describe : u.describe = t.describe
  nullable : u.nullable = t.nullable
  generics : u.generics.map TypeDef.describe = t.generics.map TypeDef.describe

lemma SameText.refl (t : TypeDef) : t.SameText t := ⟨rfl, rfl, rfl⟩

/-- Other arguments with the same texts leave the text of a type. -/
lemma sameText_withGenerics {t : TypeDef} {generics : List TypeDef}
    (h : generics.map describe = t.generics.map describe) : t.SameText { t with generics } := by
  refine ⟨?_, rfl, h⟩
  obtain ⟨name, nullable, arguments, category, moduleAlias, entityKind, dimension, enumSerialization⟩ := t
  dsimp only at h ⊢
  cases generics with
  | nil => rw [List.map_eq_nil_iff.mp h.symm]
  | cons g gs =>
    cases arguments with
    | nil => cases h
    | cons a as => simp only [describe, ← List.map_cons, describeAll_eq, h]

end TypeDef

namespace TypeResolution

open TypeDef (SameText)

/-- Resolving the names in a type leaves its text: an entity is looked up by its own name. -/
lemma sameText_resolve {s : Site} (hclass : ∀ e ∈ s.index.entities, HasNoColon e.className) {t : TypeDef}
    (ht : t.WellFormed TypeDef.IsName) : t.SameText (s.resolve t).1 := by
  induction ht with
  | scalar h =>
    rw [TypeDef.scalar, Site.resolve]
    exact SameText.refl _
  | vector h hpositive =>
    rw [Site.resolve]
    exact SameText.refl _
  | @container name nullable generics arity h hlength hgenerics ih =>
    rw [Site.resolve, resolveAll_eq]
    refine TypeDef.sameText_withGenerics ?_
    rw [List.map_map]
    exact List.map_congr_left fun g hg => (ih g hg).describe
  | leaf h =>
    obtain ⟨name, nullable, moduleAlias, hb, hcolon, rfl⟩ := h
    rw [Site.resolve]
    cases hl : s.lookup moduleAlias name with
    | error i => exact SameText.refl _
    | ok e =>
      obtain ⟨he, a, hkey⟩ := lookup_eq_ok hl
      obtain rfl := (entityKey_inj (hclass e he) hcolon hkey).2
      exact ⟨by simp [referenceTo, TypeDef.describe], rfl, rfl⟩

end TypeResolution

/-! ### Defaults -/

/-- An error about a default of a field, where it stands in the document. -/
def Issue.Refuses (i : Issue) (f : FieldDraft) (d : Spanned String) : Prop :=
  i.level = .error ∧ i.code = .invalidDefaultValue ∧ i.span = some d.span ∧ i.pointer = some f.pointer

namespace TypeResolution

/-- A default that is a value goes with an issue if it goes. -/
lemma mem_refusals {s : Site} {type : TypeDef} {values : Option (List EnumValue)} {d : Option (Spanned String)}
    {default : Spanned String} (hd : d = some default) :
    d.filter (isValue values) = some default ∨
      ∃ i ∈ (d.filter fun d => !isValue values d).toList.map (s.defaultIssue type values),
        i.Refuses s.field default := by
  subst hd
  cases hvalue : isValue values default with
  | true => exact .inl (by simp [hvalue])
  | false =>
    refine .inr ⟨s.defaultIssue type values default, ?_, rfl, rfl, rfl, rfl⟩
    simp [hvalue]

/-- What becomes of the defaults of a field: they stay as they are, except that those of an entity go with an
issue. -/
structure ChecksDefaults (s : Site) (type : TypeDef) (result : DraftDefaults × List Issue) : Prop where
  sublist : result.1.toList.Sublist s.field.defaults.toList
  kept : ∀ origin d, s.field.defaults.ofOrigin? origin = some d → result.1.ofOrigin? origin = some d ∨
    (type.category = .entity ∧ ∃ i ∈ result.2, i.Refuses s.field d)

/-- Filtered defaults are some of the defaults. -/
lemma sublist_toList_filter (d : DraftDefaults) (p q : Spanned String → Bool) :
    (DraftDefaults.toList ⟨d.model.filter p, d.persist.filter q, d.isShared⟩).Sublist d.toList := by
  have hsub : ∀ (origin : DefaultOrigin) (d : Option (Spanned String)) (p : Spanned String → Bool),
      ((d.filter p).map fun s => (⟨origin, s.value⟩ : DefaultDef)).toList.Sublist
        (d.map fun s => (⟨origin, s.value⟩ : DefaultDef)).toList := by
    intro origin d p
    cases d with
    | none => exact List.Sublist.refl _
    | some d =>
      cases hp : p d with
      | true => simp [hp]
      | false => simp [hp]
  exact (hsub .model d.model p).append (hsub .persist d.persist q)

lemma checksDefaults (s : Site) (hshared : s.field.defaults.isShared = true →
    s.field.defaults.persist = s.field.defaults.model) (type : TypeDef) :
    ChecksDefaults s type (s.checkDefaults type s.field.defaults) := by
  unfold Site.checkDefaults
  split
  · exact ⟨List.Sublist.refl _, fun origin d hd => .inl hd⟩
  rename_i hentity
  have hcategory : type.category = .entity := by simpa using hentity
  have hrefusal := @mem_refusals s type (enumValues? s.index type)
  refine ⟨sublist_toList_filter _ _ _, fun origin d hd => ?_⟩
  cases origin with
  | model =>
    exact (hrefusal hd).imp_right fun ⟨i, hi, hrefuses⟩ => ⟨hcategory, i, List.mem_append_left _ hi, hrefuses⟩
  | persist =>
    cases hisShared : s.field.defaults.isShared with
    | false =>
      exact (hrefusal hd).imp_right fun ⟨i, hi, hrefuses⟩ => ⟨hcategory, i, List.mem_append_right _ hi, hrefuses⟩
    | true =>
      -- One option declares both defaults, and the issue about it is that of the other one.
      have hsame := hshared hisShared
      rcases hrefusal (hsame.symm.trans hd) with hkept | ⟨i, hi, hrefuses⟩
      · exact .inl ((congrArg (Option.filter _) hsame).trans hkept)
      · exact .inr ⟨hcategory, i, List.mem_append_left _ hi, hrefuses⟩

/-- The defaults of a field with a resolved type. -/
lemma checksDefaults_typedField (index : EntityIndex) (e : Entity) {f : FieldDraft} (hf : f.Defaulted) :
    ∃ issues, (∀ i ∈ issues, i ∈ (Site.resolveField ⟨index, e, f⟩).2) ∧
      ChecksDefaults ⟨index, e, f⟩ (typedField index e f).type ((typedField index e f).defaults, issues) :=
  ⟨_, fun _ hi => List.mem_append_right _ hi, checksDefaults ⟨index, e, f⟩ hf.shared _⟩

/-- An issue about a field of an entity is one of the diagnostics. -/
lemma diagnostic_mem_resolve {index : EntityIndex} {e : Entity} {f : FieldDraft} {i : Issue}
    (he : e ∈ index.entities) (hf : f ∈ e.fields) (hi : i ∈ (Site.resolveField ⟨index, e, f⟩).2) :
    e.diagnostic i ∈ (resolve index).2 := by
  refine List.mem_flatMap.mpr ⟨resolveEntity index e, List.mem_map_of_mem he, List.mem_map_of_mem ?_⟩
  exact List.mem_flatMap.mpr ⟨_, List.mem_map_of_mem hf, hi⟩

end TypeResolution

/-! ### Definitions -/

/-- A default is one of those of a field in the definition of an entity, or it has been refused, because the type of
the field is an entity. -/
def FieldDef.KeepsDefault (e : Entity) (diagnostics : List Diagnostic) (f : FieldDraft) (g : FieldDef)
    (origin : DefaultOrigin) (d : Spanned String) : Prop :=
  ⟨origin, d.value⟩ ∈ g.defaults ∨
    (g.type.category = .entity ∧ ∃ i : Issue, i.Refuses f d ∧ e.diagnostic i ∈ diagnostics)

/-- What the passes, with the diagnostics that they give, leave of a field of an entity. -/
structure FieldDef.Keeps (e : Entity) (diagnostics : List Diagnostic) (f : FieldDraft) (g : FieldDef) : Prop where
  name : g.name = f.name
  origin : g.origin = f.origin
  scope : g.scope = f.scope
  documentation : g.documentation = f.documentation
  type : f.type.SameText g.type
  stored : g.shouldPersist = f.shouldPersist ∨ (g.shouldPersist = false ∧ ∃ r, g.relation = some r ∧ r.IsHolder)
  defaults : g.defaults.Sublist f.defaults.toList
  kept : ∀ origin d, f.defaults.ofOrigin? origin = some d → g.KeepsDefault e diagnostics f origin d

/-- A stored field that has not been declared and is a key. -/
structure FieldDef.IsAddedKey (g : FieldDef) : Prop where
  origin : g.origin = .synthesized
  stored : g.shouldPersist = true
  key : ∃ r, g.relation = some (.foreignKey r)

namespace Compilation

open RelationResolution (KeptField AddedKey)
open TypeResolution (typedField typedEntity)

variable {aliases : List String} {entities : List Entity} {e : Entity} {f : FieldDraft}

/-- What has been read, with the types resolved. -/
def typedIndex (aliases : List String) (entities : List Entity) : EntityIndex :=
  ⟨entities.map (typedEntity ⟨entities, aliases⟩), aliases⟩

/-- The entities at last, in their order. -/
lemma entities_runPasses (aliases : List String) (entities : List Entity) :
    (runPasses aliases entities).indexes.1 = entities.mapIdx fun i e =>
      finished (typedIndex aliases entities) i (typedEntity ⟨entities, aliases⟩ e) := by
  refine List.ext_getElem? fun i => ?_
  rw [runPasses, IndexCheck.resolve, List.map_map, List.getElem?_map, RelationResolution.getElem?_resolve,
    TypeResolution.resolve_entities, List.getElem?_map, Option.map_map, Option.map_map, List.getElem?_mapIdx]
  rfl

/-- A field whose type has been resolved and whose relation has been linked is what it was. -/
lemma keeps_toDefinition {g : FieldDraft} (hclass : ∀ e ∈ entities, HasNoColon e.className) (he : e ∈ entities)
    (hf : f ∈ e.fields) (hwf : f.type.WellFormed TypeDef.IsName) (hdefaulted : f.Defaulted)
    (h : KeptField (typedIndex aliases entities) (typedField ⟨entities, aliases⟩ e f) g) :
    g.toDefinition.Keeps e (runPasses aliases entities).types.2 f := by
  obtain ⟨issues, hissues, hchecks⟩ :=
    TypeResolution.checksDefaults_typedField ⟨entities, aliases⟩ e hdefaulted
  have hrefused : ∀ d, (∃ i ∈ issues, i.Refuses f d) →
      ∃ i : Issue, i.Refuses f d ∧ e.diagnostic i ∈ (runPasses aliases entities).types.2 := by
    rintro d ⟨i, hi, hrefuses⟩
    exact ⟨i, hrefuses, TypeResolution.diagnostic_mem_resolve he hf (hissues i hi)⟩
  have htype : g.type = (typedField ⟨entities, aliases⟩ e f).type := by rw [h.same]
  have hdefaults : g.defaults = (typedField ⟨entities, aliases⟩ e f).defaults := by rw [h.same]
  have hhidden : g.hidden = false := by
    rw [h.same]
    exact hdefaulted.visible
  refine ⟨h.name, ?_, ?_, ?_, ?_, h.stored, ?_, fun origin d hd => ?_⟩
  · rw [h.same]
    rfl
  · rw [FieldDraft.toDefinition, hhidden, h.same]
    rfl
  · rw [h.same]
    rfl
  · rw [FieldDraft.toDefinition, htype, TypeResolution.typedField_type]
    exact TypeResolution.sameText_resolve hclass hwf
  · rw [FieldDraft.toDefinition, hdefaults]
    exact hchecks.sublist
  · unfold FieldDef.KeepsDefault
    rw [FieldDraft.toDefinition, htype, hdefaults]
    rcases hchecks.kept origin d hd with hkept | ⟨hcategory, hissue⟩
    · exact .inl (DraftDefaults.mem_toList.mpr ⟨d, hkept, rfl⟩)
    · exact .inr ⟨hcategory, hrefused d hissue⟩

lemma isAddedKey_toDefinition {fs : List FieldDraft} {k : FieldDraft} (h : AddedKey fs k) :
    k.toDefinition.IsAddedKey :=
  ⟨h.origin, h.stored, h.key⟩

/-- The fields of an entity at last are those with their types resolved, and keys between them. -/
lemma framed_finished (hdeclared : ∀ e ∈ entities, e.Declared) {i : Nat} (he : entities[i]? = some e) :
    Interleaved (KeptField (typedIndex aliases entities)) (AddedKey (typedEntity ⟨entities, aliases⟩ e).fields)
      (e.fields.map (typedField ⟨entities, aliases⟩ e))
      (finished (typedIndex aliases entities) i (typedEntity ⟨entities, aliases⟩ e)).fields := by
  have hunrelated : ∀ e' ∈ (typedIndex aliases entities).entities, ∀ f ∈ e'.fields, f.relation = none := by
    intro e' he' f hf
    obtain ⟨e₀, he₀, rfl⟩ := List.mem_map.mp he'
    rw [TypeResolution.fields_typedEntity] at hf
    obtain ⟨f₀, hf₀, rfl⟩ := List.mem_map.mp hf
    exact (hdeclared e₀ he₀).unrelated f₀ hf₀
  have htyped : (typedIndex aliases entities).entities[i]? = some (typedEntity ⟨entities, aliases⟩ e) := by
    rw [typedIndex, List.getElem?_map, he, Option.map_some]
  obtain ⟨fs, hresolve, hfields⟩ := RelationResolution.getElem?_resolve_framed hunrelated htyped
  rw [RelationResolution.getElem?_resolve, htyped, Option.map_some, Option.some.injEq] at hresolve
  rw [finished, IndexCheck.fields_checkEntity, hresolve, ← TypeResolution.fields_typedEntity]
  exact hfields

/-- The fields of the definition of an entity are its fields, and keys between them. -/
lemma interleaved_finished (hdeclared : ∀ e ∈ entities, e.Declared) (hdefaulted : e.Defaulted) {i : Nat}
    (he : entities[i]? = some e) :
    Interleaved (FieldDef.Keeps e (runPasses aliases entities).types.2) FieldDef.IsAddedKey e.fields
      (finished (typedIndex aliases entities) i (typedEntity ⟨entities, aliases⟩ e)).toDefinition.fields := by
  have hmem : e ∈ entities := List.mem_of_getElem? he
  rw [Entity.fields_toDefinition]
  refine (framed_finished hdeclared he).map (fun f hf g hg => ?_) fun k hk => isAddedKey_toDefinition hk
  exact keeps_toDefinition (fun e' he' => (hdeclared e' he').className) hmem hf
    ((hdeclared e hmem).wellFormed f hf) (hdefaulted.fields f hf) hg

/-- The definitions that the passes make of entities that have been read, whatever errors there are, stand in the
order of the entities.  Each has the header, the kind and the table of its entity, and the fields of the entity, in
their order, with keys between them. -/
theorem passes_frame (aliases : List String) {entities : List Entity}
    (hread : ∀ e ∈ entities, ∃ input, (Entity.ofDocument input).1 = some e) :
    ((runPasses aliases entities).indexes.1.map Entity.toDefinition).length = entities.length ∧
      ∀ (i : Nat) e, entities[i]? = some e →
        ∃ m : ModelDef, ((runPasses aliases entities).indexes.1.map Entity.toDefinition)[i]? = some m ∧
          m.header = e.header ∧ m.kind = e.kind ∧ m.tableName? = e.table? ∧
          Interleaved (FieldDef.Keeps e (runPasses aliases entities).types.2) FieldDef.IsAddedKey e.fields
            m.fields := by
  rw [entities_runPasses]
  refine ⟨by rw [List.length_map, List.length_mapIdx], fun i e he => ?_⟩
  have hmem : e ∈ entities := List.mem_of_getElem? he
  have hdeclared : ∀ e ∈ entities, e.Declared := by
    intro e he
    obtain ⟨input, hinput⟩ := hread e he
    exact Entity.declared_ofDocument hinput
  obtain ⟨input, hinput⟩ := hread e hmem
  refine ⟨_, by rw [List.getElem?_map, List.getElem?_mapIdx, he, Option.map_some, Option.map_some], ?_, ?_, ?_,
    interleaved_finished hdeclared (Entity.defaulted_ofDocument hinput) he⟩
  · simp
  · simp [finished]
  · simp

/-- Boxes with a label of an unknown color, and the known colors. -/
def boxes : List Entity :=
  ["class: Box\ntable: box\nfields:\n  label: Color?, default=green\n  next: Box?, relation\n  lid: Missing\n",
    "enum: Color\nvalues:\n  - red\n"].flatMap fun text =>
      (Entity.ofDocument ⟨text, "boxes.spy.yaml", "boxes", [], some "boxes"⟩).1.toList

/-- With two errors about the fields of a box, the only one to come is the key of the next box, and only the default
that no color has goes. -/
theorem passes_frame_boxes :
    ∃ e m, boxes[0]? = some e ∧
      ((runPasses ["boxes"] boxes).indexes.1.map Entity.toDefinition)[0]? = some m ∧
      Interleaved (FieldDef.Keeps e (runPasses ["boxes"] boxes).types.2) FieldDef.IsAddedKey e.fields m.fields ∧
      e.fields.map (fun f => (f.name, f.defaults.toList.length)) =
        [("id", 1), ("label", 2), ("next", 0), ("lid", 0)] ∧
      m.fields.map (fun f => (f.name, f.defaults.length)) =
        [("id", 1), ("label", 0), ("next", 0), ("nextId", 0), ("lid", 0)] := by
  have hread : ∀ e ∈ boxes, ∃ input, (Entity.ofDocument input).1 = some e := by
    intro e he
    obtain ⟨text, -, he⟩ := List.mem_flatMap.mp he
    exact ⟨_, Option.mem_toList.mp he⟩
  have hbefore : boxes[0]?.map (fun e => e.fields.map fun f => (f.name, f.defaults.toList.length)) =
      some [("id", 1), ("label", 2), ("next", 0), ("lid", 0)] := by
    decide +kernel
  have hafter : ((runPasses ["boxes"] boxes).indexes.1.map Entity.toDefinition)[0]?.map
      (fun m => m.fields.map fun f => (f.name, f.defaults.length)) =
        some [("id", 1), ("label", 0), ("next", 0), ("nextId", 0), ("lid", 0)] := by
    decide +kernel
  obtain ⟨e, he, hfields⟩ := Option.map_eq_some_iff.mp hbefore
  obtain ⟨-, hframe⟩ := passes_frame ["boxes"] hread
  obtain ⟨m, hm, -, -, -, hinterleaved⟩ := hframe 0 e he
  rw [hm] at hafter
  exact ⟨e, m, he, hm, hinterleaved, hfields, Option.some.inj hafter⟩

end Compilation

end EntitySchema
