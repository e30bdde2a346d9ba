import Mathlib.Data.List.Forall2
import Mathlib.Data.List.Nodup
import Mathlib.Tactic.Common
import EntitySchema.Proofs.Compilation
import EntitySchema.Proofs.Contents

/-!
# Declarations that are kept

In a compilation without errors no declaration is lost (`declarations_kept`).  The entities are those of the
documents, module after module (`readModules_eq`), every pass keeps them in their order and keeps what
they have of their documents (`contents_finished`), and the definitions of a module are those of its own
entities (`filter_entities`).
-/

namespace EntitySchema

open RelationResolution (visited accounted_visited)

/-! ### Contents of definitions -/

namespace ModelDef

/-- The names of the declared fields, in their order. -/
def declaredNames (m : ModelDef) : List String :=
  (m.fields.filter (·.origin == .declared)).map (·.name)

/-- The names of the values of an enum. -/
def valueNames (m : ModelDef) : List String :=
  match m.body with
  | .enum values .. => values.map (·.name)
  | _ => []

/-- What a definition has of the text of its document: its name stands under its kind, its declared fields are
the keys under `fields`, its indexes those under `indexes` and its values the items under `values`; every
other field is the added primary key or a key that has been added for a relation. -/
structure Contents (entries : List (Yaml.Node × Option Yaml.Node)) (m : ModelDef) : Prop where
  name : ∃ k n, Yaml.under m.kind.name entries = [(k, some n)] ∧ n.text? = some m.header.className
  fields : ListsKeys "fields" entries m.declaredNames
  indexes : ListsKeys "indexes" entries (m.indexes.map (·.name))
  values : ListsItems "values" entries m.valueNames
  added : ∀ f ∈ m.fields, f.origin = .synthesized →
    f.IsSerialId ∨ ∃ r, f.relation = some (.foreignKey r)

/-- A definition declares what a document says. -/
def Declares (d : DocumentInput) (m : ModelDef) : Prop :=
  m.header.sourceFileName = d.sourceFileName ∧
    ∃ entries extent, (Yaml.read d.yaml.toList).content = some (.map entries extent) ∧ m.Contents entries

end ModelDef

namespace Entity

variable (e : Entity)

@[simp] lemma kind_toDefinition : e.toDefinition.kind = e.kind := by
  obtain ⟨header, nameSpan, body⟩ := e
  cases body <;> rfl

@[simp] lemma valueNames_toDefinition : e.toDefinition.valueNames = e.valueNames := by
  obtain ⟨header, nameSpan, body⟩ := e
  cases body <;> rfl

@[simp] lemma declaredNames_toDefinition :
    e.toDefinition.declaredNames = FieldDraft.declaredNames e.fields := by
  rw [ModelDef.declaredNames, fields_toDefinition, List.filter_map, List.map_map]
  rfl

@[simp] lemma indexNames_withFields (fs : List FieldDraft) : (e.withFields fs).indexNames = e.indexNames := by
  obtain ⟨header, nameSpan, body⟩ := e
  cases body <;> rfl

@[simp] lemma valueNames_withFields (fs : List FieldDraft) : (e.withFields fs).valueNames = e.valueNames := by
  obtain ⟨header, nameSpan, body⟩ := e
  cases body <;> rfl

/-- An entity with other fields whose declared names are the same has these names. -/
lemma declaredNames_withFields {e : Entity} {fs : List FieldDraft}
    (h : FieldDraft.declaredNames fs = FieldDraft.declaredNames e.fields) :
    FieldDraft.declaredNames (e.withFields fs).fields = FieldDraft.declaredNames e.fields := by
  obtain ⟨header, nameSpan, body⟩ := e
  cases body with
  | «class» | exception => exact h
  | enum => rfl

@[simp] lemma valueNames_checkEntity : (IndexCheck.checkEntity e).1.valueNames = e.valueNames := by
  obtain ⟨header, nameSpan, body⟩ := e
  cases body with
  | «class» c =>
    unfold IndexCheck.checkEntity
    dsimp only
    split <;> rfl
  | exception | enum => rfl

/-- Where nothing is reported, the indexes of the definition are those of the entity. -/
lemma indexes_checkEntity {e : Entity} (hunchecked : e.Unchecked)
    (hno : Diagnostic.hasErrors (IndexCheck.checkEntity e).2 = false) :
    (IndexCheck.checkEntity e).1.toDefinition.indexes.map (·.name) = e.indexNames := by
  obtain ⟨header, nameSpan, body⟩ := e
  cases body with
  | «class» c =>
    have hnone : c.resolvedIndexes = none := hunchecked c rfl
    unfold IndexCheck.checkEntity at hno ⊢
    dsimp only at hno ⊢
    split at hno
    · rename_i hempty
      rw [if_pos hempty]
      simp [toDefinition, EntityBody.toDefinition, ModelDef.indexes, indexNames, hnone,
        List.isEmpty_iff.mp hempty]
    · rename_i hempty
      rw [if_neg hempty]
      have hissues := Issue.eq_nil_of_hasErrors_eq_false (IndexCheck.allErrors_checkAll c.indexes) hno
      exact IndexCheck.names_checkAll hissues
  | exception | enum => rfl

end Entity

/-! ### Resolved types -/

namespace TypeResolution

variable {index : EntityIndex}

@[simp] lemma kind_typedEntity (e : Entity) : (typedEntity index e).kind = e.kind :=
  Entity.kind_withFields e _

@[simp] lemma indexNames_typedEntity (e : Entity) : (typedEntity index e).indexNames = e.indexNames :=
  Entity.indexNames_withFields e _

@[simp] lemma valueNames_typedEntity (e : Entity) : (typedEntity index e).valueNames = e.valueNames :=
  Entity.valueNames_withFields e _

/-- Resolving types keeps the names of the declared fields. -/
@[simp] lemma declaredNames_typedEntity (e : Entity) :
    FieldDraft.declaredNames (typedEntity index e).fields = FieldDraft.declaredNames e.fields := by
  rw [fields_typedEntity, FieldDraft.declaredNames, List.filter_map, List.map_map]
  rfl

/-- An added primary key stays what it is when types are resolved. -/
lemma isSerialId_typedField (index : EntityIndex) (e : Entity) {f : FieldDraft}
    (h : f.toDefinition.IsSerialId) :
    (typedField index e f).toDefinition.IsSerialId := by
  obtain ⟨hname, htype, hdefaults⟩ := h
  have htype' : f.type = TypeDef.scalar "int" true := htype
  have hresolved : (typedField index e f).type = TypeDef.scalar "int" true := by
    rw [typedField_type, htype', TypeDef.scalar, Site.resolve]
  refine ⟨hname, hresolved, ?_⟩
  have hsame : (typedField index e f).defaults = f.defaults := by
    have hcategory : (Site.resolve ⟨index, e, f⟩ f.type).1.category ≠ .entity := by
      rw [← typedField_type, hresolved]
      decide
    simp [typedField, Site.resolveField, Site.checkDefaults, hcategory]
  rw [← hdefaults]
  exact congrArg DraftDefaults.toList hsame

end TypeResolution

namespace Compilation

/-! ### Documents and modules in their order -/

/-- The entities that a module declares. -/
def declaredBy (m : ModuleSource) : List Entity :=
  (readDocuments m.knownAs (orderedDocuments m)).1

/-- Modules with different aliases are read one after the other. -/
lemma readModules_eq {taken : List String} {ms : List ModuleSource} (hfree : ∀ m ∈ ms, m.knownAs ∉ taken)
    (hapart : (ms.map ModuleSource.knownAs).Nodup) :
    readModules taken ms =
      ⟨ms.map fun m => ⟨m.name, m.knownAs⟩, ms.flatMap declaredBy,
        ms.flatMap fun m => (readDocuments m.knownAs (orderedDocuments m)).2⟩ := by
  induction ms generalizing taken with
  | nil => rfl
  | cons m ms ih =>
    obtain ⟨hm, hms⟩ := List.nodup_cons.mp hapart
    have hcontains : taken.contains m.knownAs = false := by
      simpa using hfree m List.mem_cons_self
    have hrest : ∀ m' ∈ ms, m'.knownAs ∉ taken ++ [m.knownAs] := by
      intro m' hm' hmem
      rcases List.mem_append.mp hmem with hmem | hmem
      · exact hfree m' (List.mem_cons_of_mem m hm') hmem
      · rw [List.mem_singleton] at hmem
        exact hm (hmem ▸ List.mem_map_of_mem hm')
    rw [readModules, hcontains, ih hrest hms]
    rfl

/-- What a project and its dependencies declare, module after module. -/
lemma declarations_eq {project : ModuleSource} {dependencies : List ModuleSource}
    (h : ((project :: dependencies).map ModuleSource.knownAs).Nodup) :
    declarations project dependencies =
      ⟨(project :: dependencies).map fun m => ⟨m.name, m.knownAs⟩,
        (project :: dependencies).flatMap declaredBy,
        (project :: dependencies).flatMap fun m => (readDocuments m.knownAs (orderedDocuments m)).2⟩ :=
  readModules_eq (fun _ _ => List.not_mem_nil) h

/-- Documents that are read without errors declare one entity each, in their order. -/
lemma forall₂_readDocuments {a : String} {ds : List DocumentInput}
    (hno : ∀ d ∈ ds, Diagnostic.hasErrors (Entity.ofDocument { d with moduleAlias := some a }).2 = false) :
    List.Forall₂ (fun d e => e.Declares d) ds (readDocuments a ds).1 := by
  induction ds with
  | nil => exact List.Forall₂.nil
  | cons d ds ih =>
    obtain ⟨e, he, hdeclares⟩ := Entity.declares_ofDocument (hno d List.mem_cons_self)
    have hrest := ih fun d' hd' => hno d' (List.mem_cons_of_mem d hd')
    rw [readDocuments]
    dsimp only
    rw [he]
    exact List.Forall₂.cons hdeclares hrest

/-- The entities of a module have its alias. -/
lemma moduleAlias_of_mem_declaredBy {m : ModuleSource} {e : Entity} (h : e ∈ declaredBy m) :
    e.moduleAlias = m.knownAs := by
  obtain ⟨d, -, hd⟩ := mem_readDocuments.mp h
  exact Entity.moduleAlias_ofDocument (d := d) hd

/-- The entities of a module among those of all modules. -/
lemma filter_entities {ms : List ModuleSource} (hapart : (ms.map ModuleSource.knownAs).Nodup)
    {s : ModuleSource} (hs : s ∈ ms) :
    (ms.flatMap declaredBy).filter (·.moduleAlias == s.knownAs) = declaredBy s := by
  induction ms with
  | nil => cases hs
  | cons m ms ih =>
    obtain ⟨hm, hms⟩ := List.nodup_cons.mp hapart
    rw [List.flatMap_cons, List.filter_append]
    rcases List.mem_cons.mp hs with rfl | hs
    · -- No other module has an entity with this alias.
      have hnone : (ms.flatMap declaredBy).filter (·.moduleAlias == s.knownAs) = [] := by
        refine List.filter_eq_nil_iff.mpr fun e he => ?_
        obtain ⟨m, hm', he⟩ := List.mem_flatMap.mp he
        rw [moduleAlias_of_mem_declaredBy he, beq_iff_eq]
        exact fun heq => hm (heq ▸ List.mem_map_of_mem hm')
      rw [hnone, List.append_nil, List.filter_eq_self.mpr]
      intro e he
      rw [moduleAlias_of_mem_declaredBy he, beq_iff_eq]
    · have hnone : (declaredBy m).filter (·.moduleAlias == s.knownAs) = [] := by
        refine List.filter_eq_nil_iff.mpr fun e he => ?_
        rw [moduleAlias_of_mem_declaredBy he, beq_iff_eq]
        exact fun heq => hm (heq ▸ List.mem_map_of_mem hs)
      rw [hnone, List.nil_append, ih hms hs]

/-! ### What the passes keep -/

section Kept

variable {project : ModuleSource} {dependencies : List ModuleSource} {given : List Diagnostic}

/-- A definition has what its entity has of its document. -/
lemma contents_finished (hno : (compile project dependencies given).hasErrors = false) {i : Nat} {e : Entity}
    (he : (declarations project dependencies).typed.entities[i]? =
      some (TypeResolution.typedEntity (declarations project dependencies).index e))
    {entries : List (Yaml.Node × Option Yaml.Node)} (hc : e.Contents entries) :
    (finished (declarations project dependencies).typed i
      (TypeResolution.typedEntity (declarations project dependencies).index e)).toDefinition.Contents entries := by
  have h := accepted_of_hasErrors hno
  have haccount := accounted_visited h.typed
  have hinitial := RelationResolution.fieldsAt_initial he
  refine ⟨?_, ?_, ?_, ?_, ?_⟩
  · obtain ⟨k, n, hunder, htext⟩ := hc.name
    refine ⟨k, n, ?_, ?_⟩
    · simpa [finished] using hunder
    · rw [Entity.header_toDefinition, header_finished, TypeResolution.header_typedEntity]
      exact htext
  · have hnames := haccount.declared i
    rw [hinitial] at hnames
    rw [Entity.declaredNames_toDefinition, finished, IndexCheck.fields_checkEntity,
      Entity.declaredNames_withFields hnames, TypeResolution.declaredNames_typedEntity]
    exact hc.fields
  · have hunchecked := (h.unchecked he).withFields
      ((visited (declarations project dependencies).typed).1.fieldsAt i)
    rw [finished, Entity.indexes_checkEntity hunchecked ((hasErrors_compile_iff.mp hno).2.indexes i _ he),
      Entity.indexNames_withFields, TypeResolution.indexNames_typedEntity]
    exact hc.indexes
  · simpa [finished] using hc.values
  · intro f hf hadded
    obtain ⟨d, hd, rfl⟩ := mem_fields_finished hf
    rcases haccount.added i d hd hadded with ⟨d₀, hd₀, horigin, hname, htype, hdefaults⟩ | hkey
    · -- The field has been there at the beginning, so it is the primary key of the document.
      rw [hinitial, TypeResolution.fields_typedEntity] at hd₀
      obtain ⟨f₀, hf₀, rfl⟩ := List.mem_map.mp hd₀
      obtain ⟨hid, hserial, hdefault⟩ := TypeResolution.isSerialId_typedField
        (declarations project dependencies).index e (hc.added f₀ hf₀ horigin)
      exact Or.inl ⟨hname.symm.trans hid, htype.symm.trans hserial,
        (congrArg DraftDefaults.toList hdefaults).symm.trans hdefault⟩
    · exact Or.inr hkey

/-- The entities after all passes are those that have been read, in their order. -/
lemma forall₂_final (project : ModuleSource) (dependencies : List ModuleSource) :
    List.Forall₂ (fun e e' => ∃ i,
        (declarations project dependencies).typed.entities[i]? =
          some (TypeResolution.typedEntity (declarations project dependencies).index e) ∧
        e' = finished (declarations project dependencies).typed i
          (TypeResolution.typedEntity (declarations project dependencies).index e))
      (declarations project dependencies).entities (final project dependencies) := by
  have htyped : (declarations project dependencies).typed.entities =
      (declarations project dependencies).entities.map
        (TypeResolution.typedEntity (declarations project dependencies).index) := by
    rw [Reading.typed, TypeResolution.resolve_entities]
    rfl
  have hget : ∀ i, (final project dependencies)[i]? = (declarations project dependencies).entities[i]?.map
      fun e => finished (declarations project dependencies).typed i
        (TypeResolution.typedEntity (declarations project dependencies).index e) := by
    intro i
    rw [getElem?_final, htyped, List.getElem?_map, Option.map_map]
    rfl
  have hlength : (declarations project dependencies).entities.length = (final project dependencies).length := by
    have hle : ∀ n, (final project dependencies).length ≤ n ↔
        (declarations project dependencies).entities.length ≤ n := by
      intro n
      rw [← List.getElem?_eq_none_iff, ← List.getElem?_eq_none_iff, hget, Option.map_eq_none_iff]
    exact Nat.le_antisymm ((hle _).mp (Nat.le_refl _)) ((hle _).mpr (Nat.le_refl _))
  refine List.forall₂_iff_get.mpr ⟨hlength, fun i hi hi' => ⟨i, ?_, ?_⟩⟩
  · rw [htyped, List.getElem?_map, List.getElem?_eq_getElem hi]
    rfl
  · have hi'' := hget i
    rw [List.getElem?_eq_getElem hi, List.getElem?_eq_getElem hi'] at hi''
    exact Option.some.inj hi''

/-- The definitions of a module are those of the entities that it declares, in their order. -/
lemma Accepted.forall₂_models (h : Accepted project dependencies) {s : ModuleSource}
    (hs : s ∈ project :: dependencies) :
    List.Forall₂ (fun e m => ∃ i,
        (declarations project dependencies).typed.entities[i]? =
          some (TypeResolution.typedEntity (declarations project dependencies).index e) ∧
        m = (finished (declarations project dependencies).typed i
          (TypeResolution.typedEntity (declarations project dependencies).index e)).toDefinition)
      (declaredBy s) (definitionsOf (final project dependencies) ⟨s.name, s.knownAs⟩).models := by
  have hentities : (declarations project dependencies).entities.filter (·.moduleAlias == s.knownAs) =
      declaredBy s := by
    rw [declarations_eq h.complete.apart]
    exact filter_entities h.complete.apart hs
  have hfinal := List.rel_filter (p := fun e : Entity => e.moduleAlias == s.knownAs)
    (q := fun e : Entity => e.moduleAlias == s.knownAs) ?_ (forall₂_final project dependencies)
  · rw [hentities] at hfinal
    rw [definitionsOf, List.forall₂_map_right_iff]
    refine hfinal.imp ?_
    rintro e _ ⟨i, he, rfl⟩
    exact ⟨i, he, rfl⟩
  · rintro e _ ⟨i, -, rfl⟩
    simp [Entity.moduleAlias]

/-- Two lists that are related to one between them are related. -/
lemma forall₂_trans {α β γ : Type} {R : α → β → Prop} {S : β → γ → Prop} {T : α → γ → Prop}
    (hRST : ∀ a b c, R a b → S b c → T a c) {as : List α} {bs : List β} {cs : List γ}
    (hR : List.Forall₂ R as bs) (hS : List.Forall₂ S bs cs) : List.Forall₂ T as cs := by
  induction hR generalizing cs with
  | nil =>
    cases hS
    exact List.Forall₂.nil
  | cons hab _ ih =>
    cases hS with
    | cons hbc hrest => exact List.Forall₂.cons (hRST _ _ _ hab hbc) (ih hrest)

/-- In a compilation without errors every module has its name and its alias and, for every one of its documents,
one definition, which declares what the document says. -/
theorem declarations_kept (hno : (compile project dependencies given).hasErrors = false) :
    List.Forall₂ (fun s p => p.moduleName = s.name ∧ p.moduleAlias = s.knownAs ∧
        ∃ ds, ds.Perm s.documents ∧ List.Forall₂ (fun d m => m.Declares d) ds p.models)
      (project :: dependencies) (compile project dependencies given).modules := by
  have h := accepted_of_hasErrors hno
  rw [modules_compile h, List.forall₂_map_right_iff, List.forall₂_same]
  intro s hs
  refine ⟨rfl, rfl, orderedDocuments s, List.mergeSort_perm _ _, ?_⟩
  have hread : List.Forall₂ (fun d e => e.Declares d) (orderedDocuments s) (declaredBy s) :=
    forall₂_readDocuments fun d hd => h.complete.documents s hs d (mem_orderedDocuments.mp hd)
  refine forall₂_trans ?_ hread (h.forall₂_models hs)
  rintro d e _ ⟨hsource, entries, extent, hcontent, hcontents⟩ ⟨i, he, rfl⟩
  refine ⟨?_, entries, extent, hcontent, contents_finished hno he hcontents⟩
  rw [Entity.header_toDefinition, header_finished, TypeResolution.header_typedEntity]
  exact hsource

/-- The document of the staff has one definition, which declares what it says. -/
theorem declarations_kept_staff :
    ∃ p m, (compile staff []).modules = [p] ∧ p.models = [m] ∧ ∀ d ∈ staff.documents, m.Declares d := by
  have hkept := declarations_kept hasErrors_staff
  obtain ⟨p, ps, ⟨-, -, ds, hperm, hmodels⟩, hrest, hmodules⟩ := List.forall₂_cons_left_iff.mp hkept
  obtain rfl := List.forall₂_nil_left_iff.mp hrest
  obtain rfl := List.perm_singleton.mp hperm
  obtain ⟨m, ms, hdeclares, hnone, hm⟩ := List.forall₂_cons_left_iff.mp hmodels
  obtain rfl := List.forall₂_nil_left_iff.mp hnone
  refine ⟨p, m, hmodules, hm, fun d hd => ?_⟩
  obtain rfl := List.mem_singleton.mp hd
  exact hdeclares

end Kept

end Compilation

end EntitySchema
