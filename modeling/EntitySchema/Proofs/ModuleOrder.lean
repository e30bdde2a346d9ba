import Mathlib.Data.List.Forall2
import Mathlib.Tactic.Common
import EntitySchema.Proofs.Declarations
import EntitySchema.Proofs.DocumentOrder
import EntitySchema.Proofs.Relations.Independence
import EntitySchema.Proofs.Tables

/-!
# The order in which dependencies are given

Documents are read in the order of their file names, but modules in the order in which they are given.  In a
compilation without errors this order shows in one place only: where dependencies add hidden keys to one
class, these stand in the order of the dependencies, and so do their columns and the numbers of their
constraints.  The passes succeed in every order (`Succeeded.of_perm`), every definition is the same but for
these keys (`Succeeded.models_alike`), and so is every table (`compile_dependencies_perm`).
-/

namespace EntitySchema

open RelationResolution (Legible Rearranged visited ownFields addedKeys)

/-! ### Definitions in two orders -/

/-- A key that the compiler has added to a class for a list field of a class of a module. -/
structure FieldDef.IsHiddenKeyOf (d : ModuleSource) (k : FieldDef) : Prop where
  name : Naming.isFieldName k.name = false
  scope : k.scope = .none
  origin : k.origin = .synthesized
  relation : ∃ r, k.relation = some (.foreignKey r) ∧
    ∃ e ∈ Compilation.declaredBy d, e.table? = some r.parentTable ∧ r.relationFieldOwner = some e.className

/-- The same fields, and behind them the hidden keys that each dependency adds, in the order of the
dependencies. -/
def FieldDef.Appended (ds ds' : List ModuleSource) (fields fields' : List FieldDef) : Prop :=
  ∃ (same : List FieldDef) (added : ModuleSource → List FieldDef),
    fields = same ++ ds.flatMap added ∧ fields' = same ++ ds'.flatMap added ∧
      ∀ d ∈ ds, ∀ k ∈ added d, k.IsHiddenKeyOf d

/-- The definition with other fields; an enum has none. -/
def ModelDef.withFields (m : ModelDef) (fields : List FieldDef) : ModelDef :=
  match m.body with
  | .class table managed _ indexes => { m with body := .class table managed fields indexes }
  | .exception _ => { m with body := .exception fields }
  | .enum .. => m

/-- The same definition but for the order of hidden keys. -/
structure ModelDef.Alike (ds ds' : List ModuleSource) (m m' : ModelDef) : Prop where
  rest : m' = m.withFields m'.fields
  fields : FieldDef.Appended ds ds' m.fields m'.fields

/-- The same definitions in the same order, but for the order of hidden keys. -/
structure ProtocolDef.Alike (ds ds' : List ModuleSource) (p p' : ProtocolDef) : Prop where
  moduleName : p'.moduleName = p.moduleName
  moduleAlias : p'.moduleAlias = p.moduleAlias
  models : List.Forall₂ (ModelDef.Alike ds ds') p.models p'.models

/-- The same table but for the order of the columns and of the constraints of hidden keys. -/
structure Table.Alike (ds ds' : List ModuleSource) (enums : List EnumValues) (t t' : Table) : Prop where
  rest : t' = { t with columns := t'.columns, foreignKeys := t'.foreignKeys }
  stored : ∃ fields fields', FieldDef.Appended ds ds' fields fields' ∧
    t.columns = fields.map (columnOf enums t.name) ∧ t'.columns = fields'.map (columnOf enums t.name) ∧
      t.foreignKeys = (FieldDef.keys fields).mapIdx (foreignKeyOf t.name) ∧
        t'.foreignKeys = (FieldDef.keys fields').mapIdx (foreignKeyOf t.name)

section Alike

variable {ds ds' : List ModuleSource}

/-- A part of the fields. -/
lemma FieldDef.Appended.filter {fields fields' : List FieldDef} (h : Appended ds ds' fields fields')
    (p : FieldDef → Bool) : Appended ds ds' (fields.filter p) (fields'.filter p) := by
  obtain ⟨same, added, rfl, rfl, hadded⟩ := h
  refine ⟨same.filter p, fun d => (added d).filter p, ?_, ?_, ?_⟩
  · rw [List.filter_append, List.filter_flatMap]
  · rw [List.filter_append, List.filter_flatMap]
  · exact fun d hd k hk => hadded d hd k (List.mem_filter.mp hk).1

/-- A definition with fields that differ in the order of hidden keys. -/
lemma ModelDef.alike_withFields {fields fields' : List FieldDef}
    (h : FieldDef.Appended ds ds' fields fields') (m : ModelDef) :
    (m.withFields fields).Alike ds ds' (m.withFields fields') := by
  obtain ⟨header, body⟩ := m
  cases body with
  | «class» | exception => exact ⟨rfl, h⟩
  | enum => exact ⟨rfl, [], fun _ => [], by simp [withFields, ModelDef.fields]⟩

/-- The definition of an entity with other fields. -/
lemma Entity.toDefinition_withFields (e : Entity) (fs : List FieldDraft) :
    (e.withFields fs).toDefinition = e.toDefinition.withFields (fs.map FieldDraft.toDefinition) := by
  obtain ⟨header, nameSpan, body⟩ := e
  cases body <;> rfl

/-- A hidden key of a draft is one of the definition. -/
lemma FieldDraft.IsHiddenKey.toDefinition {k : FieldDraft} (h : k.IsHiddenKey) {d : ModuleSource}
    {r : ForeignKeyRelation} (hr : k.relation = some (.foreignKey r)) {e : Entity}
    (he : e ∈ Compilation.declaredBy d) (htable : e.table? = some r.parentTable)
    (howner : r.relationFieldOwner = some e.className) : k.toDefinition.IsHiddenKeyOf d where
  name := h.name
  scope := by rw [FieldDraft.toDefinition, h.hidden]; rfl
  origin := h.origin
  relation := ⟨r, hr, e, he, htable, howner⟩

/-- The tables of definitions that are alike, if enums are found alike. -/
lemma ModelDef.Alike.table? {m m' : ModelDef} (h : m.Alike ds ds' m') {enums enums₁ enums₂ : List EnumValues}
    (h₁ : columnOf enums₁ = columnOf enums) (h₂ : columnOf enums₂ = columnOf enums) (moduleName : String) :
    Option.Rel (Table.Alike ds ds' enums) (m.table? enums₁ moduleName) (m'.table? enums₂ moduleName) := by
  obtain ⟨header, body⟩ := m
  obtain ⟨hrest, hfields⟩ := h
  rw [hrest]
  cases body with
  | «class» table managed fields indexes =>
    cases table with
    | none => exact .none
    | some table =>
      refine .some ⟨rfl, _, _, hfields.filter (·.shouldPersist), ?_, ?_, ?_, ?_⟩
      · simp only [tableOf, h₁]
        rfl
      · simp only [tableOf, h₂]
      · rw [foreignKeys_tableOf, FieldDef.keys_filter]
        rfl
      · rw [foreignKeys_tableOf, FieldDef.keys_filter]
        rfl
  | exception | enum => exact .none

/-! ### Enums of definitions -/

/-- The enum that a definition declares. -/
def ModelDef.enumValues? (m : ModelDef) : Option EnumValues :=
  match m.body with
  | .enum values _ _ => some ⟨m.header.className, m.header.moduleAlias, values.map (·.name)⟩
  | _ => none

lemma enumsOf_eq (ps : List ProtocolDef) :
    enumsOf ps = ps.flatMap fun p => p.models.filterMap ModelDef.enumValues? := rfl

lemma mem_enumsOf {ps : List ProtocolDef} {e : EnumValues} :
    e ∈ enumsOf ps ↔ ∃ p ∈ ps, ∃ m ∈ p.models, m.enumValues? = some e := by
  simp only [enumsOf_eq, List.mem_flatMap, List.mem_filterMap]

lemma ModelDef.header_of_enumValues? {m : ModelDef} {e : EnumValues} (h : m.enumValues? = some e) :
    e.className = m.header.className ∧ e.moduleAlias = m.header.moduleAlias := by
  unfold enumValues? at h
  split at h
  · cases h
    exact ⟨rfl, rfl⟩
  · cases h

/-- Enums have no fields in which they could differ. -/
lemma ModelDef.Alike.enumValues?_eq {m m' : ModelDef} (h : m.Alike ds ds' m') :
    m'.enumValues? = m.enumValues? := by
  obtain ⟨header, body⟩ := m
  rw [h.rest]
  cases body <;> rfl

lemma ModelDef.filterMap_enumValues? {ms ms' : List ModelDef}
    (h : List.Forall₂ (ModelDef.Alike ds ds') ms ms') :
    ms'.filterMap ModelDef.enumValues? = ms.filterMap ModelDef.enumValues? := by
  induction h with
  | nil => rfl
  | cons hm _ ih => rw [List.filterMap_cons, List.filterMap_cons, hm.enumValues?_eq, ih]

/-- Columns depend on enums through the search for the enum of a type. -/
lemma columnOf_congr {enums enums' : List EnumValues} (h : ∀ t, findEnum enums t = findEnum enums' t) :
    columnOf enums = columnOf enums' := by
  funext table f
  simp only [columnOf, columnDefault, entityDefault, h]

end Alike

namespace Compilation

/-! ### Reading and types -/

/-- The entities of a module, with their types resolved. -/
def typedBy (index : EntityIndex) (m : ModuleSource) : List Entity :=
  (declaredBy m).map (TypeResolution.typedEntity index)

section Order

variable {project : ModuleSource} {ds ds' : List ModuleSource}
variable (h : Accepted project ds) (hperm : ds.Perm ds')
include h

/-- The fields of the entities have valid names. -/
lemma Accepted.legible : Legible (declarations project ds).typed where
  toTyped := h.typed
  names := by
    intro e he f hf
    obtain ⟨i, hi⟩ := List.mem_iff_getElem?.mp he
    obtain ⟨e₀, he₀, rfl⟩ := exists_declared hi
    rw [TypeResolution.fields_typedEntity] at hf
    obtain ⟨f₀, hf₀, rfl⟩ := List.mem_map.mp hf
    exact h.complete.isFieldName e₀ he₀ f₀ hf₀

include hperm

/-- The aliases are different in every order. -/
lemma Accepted.apart_of_perm : ((project :: ds').map ModuleSource.knownAs).Nodup :=
  ((hperm.cons project).map _).nodup_iff.mp h.complete.apart

/-- The same entities are read in every order. -/
lemma Accepted.permuted : (declarations project ds).index.Permuted (declarations project ds').index := by
  have hkeys := h.keys
  rw [declarations_eq h.complete.apart] at hkeys ⊢
  rw [declarations_eq (h.apart_of_perm hperm)]
  refine ⟨(hperm.cons project).flatMap_right _, ?_, hkeys⟩
  have haliases := (hperm.cons project).map ModuleSource.knownAs
  simp only [Reading.index, List.map_map]
  exact haliases

end Order

section Passes

variable {project : ModuleSource} {ds ds' : List ModuleSource}
variable (h : Succeeded project ds) (hperm : ds.Perm ds')
include h hperm

/-- The types of an entity are resolved alike in every order. -/
lemma Succeeded.resolveEntity_eq {e : Entity} (he : e ∈ (declarations project ds').entities) :
    TypeResolution.resolveEntity (declarations project ds').index e =
      TypeResolution.resolveEntity (declarations project ds).index e := by
  have hpermuted := h.accepted.permuted hperm
  have hmem : e ∈ (declarations project ds).index.entities := hpermuted.entities.mem_iff.mpr he
  exact TypeResolution.resolveEntity_of_permuted hpermuted (TypeResolution.hasErrors_resolveEntity h.types hmem)

/-- The entities with resolved types, module after module. -/
lemma Succeeded.typed_entities_of_perm :
    (declarations project ds').typed.entities =
      (project :: ds').flatMap (typedBy (declarations project ds).index) := by
  have hentities : (declarations project ds').typed.entities = (declarations project ds').entities.map
      (TypeResolution.typedEntity (declarations project ds).index) := by
    rw [Reading.typed, TypeResolution.resolve_entities]
    exact List.map_congr_left fun e he => congrArg Prod.fst (h.resolveEntity_eq hperm he)
  rw [hentities, declarations_eq (h.accepted.apart_of_perm hperm), List.map_flatMap]
  rfl

/-- The entities are ready for their relations in every order. -/
lemma Succeeded.rearranged :
    Rearranged (declarations project ds).typed (declarations project ds').typed := by
  have haccepted := h.accepted
  have hentities : (declarations project ds).typed.entities.Perm (declarations project ds').typed.entities := by
    rw [h.typed_entities_of_perm (.refl ds), h.typed_entities_of_perm hperm]
    exact (hperm.cons project).flatMap_right _
  exact ⟨⟨hentities, (haccepted.permuted hperm).aliases, haccepted.unique.1⟩, haccepted.legible,
    haccepted.unique.2⟩

end Passes

/-! ### Relations and indexes -/

/-- The hidden keys that the entities of a module add to an entity. -/
def addedBy (project : ModuleSource) (ds : List ModuleSource) (t : Entity) (m : ModuleSource) :
    List FieldDraft :=
  (typedBy (declarations project ds).index m).flatMap (addedKeys (declarations project ds).typed · t)

/-- What a module adds are hidden keys for list fields of its classes. -/
lemma isHiddenKeyOf_of_mem_addedBy {project : ModuleSource} {ds : List ModuleSource} {t : Entity}
    {m : ModuleSource} {k : FieldDraft} (hk : k ∈ addedBy project ds t m) : k.toDefinition.IsHiddenKeyOf m := by
  obtain ⟨e, he, hk⟩ := List.mem_flatMap.mp hk
  obtain ⟨e₀, he₀, rfl⟩ := List.mem_map.mp he
  obtain ⟨hkey, r, hr, htable, howner⟩ := RelationResolution.isHiddenKey_of_mem_addedKeys hk
  rw [TypeResolution.table?_typedEntity] at htable
  rw [TypeResolution.className_typedEntity] at howner
  exact hkey.toDefinition hr he₀ htable howner

section Fields

variable {project : ModuleSource} {ds ds' : List ModuleSource}
variable (h : Succeeded project ds) (hperm : ds.Perm ds')
include h hperm

/-- Relations are resolved without errors in every order. -/
lemma Succeeded.relations_of_perm :
    Diagnostic.hasErrors (visited (declarations project ds').typed).2 = false :=
  (RelationResolution.visited_of_rearranged (h.rearranged hperm) h.relations).1

/-- The fields of an entity at last: its own fields, and behind them the hidden keys that the modules add,
module after module. -/
lemma Succeeded.fieldsAt_of_perm {j : Nat} {t : Entity}
    (ht : (declarations project ds').typed.entities[j]? = some t) :
    (visited (declarations project ds').typed).1.fieldsAt j =
      ownFields (declarations project ds).typed t ++ (project :: ds').flatMap (addedBy project ds t) := by
  obtain ⟨hown, hhidden⟩ :=
    (RelationResolution.visited_of_rearranged (h.rearranged hperm) h.relations).2 j t ht
  rw [← Workspace.own_append_hiddenKeys, hown, hhidden, h.typed_entities_of_perm hperm, List.flatMap_assoc]
  rfl

/-- The fields of an entity are found alike in every order. -/
lemma Succeeded.find?_of_perm {i j : Nat} {t : Entity}
    (hi : (declarations project ds).typed.entities[i]? = some t)
    (hj : (declarations project ds').typed.entities[j]? = some t) (name : String) :
    ((visited (declarations project ds').typed).1.fieldsAt j).find? (·.name == name) =
      ((visited (declarations project ds).typed).1.fieldsAt i).find? (·.name == name) :=
  RelationResolution.find?_visited (h.rearranged hperm) h.relations hi hj name

/-- An entity after all passes is the same in every order but for its fields. -/
lemma Succeeded.finished_of_perm {i j : Nat} {t : Entity}
    (hi : (declarations project ds).typed.entities[i]? = some t)
    (hj : (declarations project ds').typed.entities[j]? = some t) :
    finished (declarations project ds').typed j t =
      (finished (declarations project ds).typed i t).withFields
        ((visited (declarations project ds').typed).1.fieldsAt j) :=
  congrArg Prod.fst (IndexCheck.checkEntity_withFields_congr (h.find?_of_perm hperm hi hj) t)

/-- Every pass succeeds in every order. -/
theorem Succeeded.of_perm : Succeeded project ds' := by
  have haccepted := h.accepted
  have hpermuted := haccepted.permuted hperm
  constructor
  case reading =>
    have hreading := h.reading
    rw [declarations_eq haccepted.complete.apart, Diagnostic.hasErrors_eq_false_iff] at hreading
    rw [declarations_eq (haccepted.apart_of_perm hperm), Diagnostic.hasErrors_eq_false_iff]
    intro d hd
    obtain ⟨m, hm, hd⟩ := List.mem_flatMap.mp hd
    exact hreading d (List.mem_flatMap.mpr ⟨m, (hperm.cons project).mem_iff.mpr hm, hd⟩)
  case unique => exact Uniqueness.hasErrors_check_of_perm hpermuted.entities h.unique
  case types =>
    rw [Diagnostic.hasErrors_eq_false_iff]
    intro d hd
    obtain ⟨_, hr, hd⟩ := List.mem_flatMap.mp hd
    obtain ⟨e, he, rfl⟩ := List.mem_map.mp hr
    rw [h.resolveEntity_eq hperm he] at hd
    have hentity := TypeResolution.hasErrors_resolveEntity h.types (hpermuted.entities.mem_iff.mpr he)
    exact Diagnostic.hasErrors_eq_false_iff.mp hentity d hd
  case relations => exact h.relations_of_perm hperm
  case indexes =>
    intro j t hj
    obtain ⟨i, hi⟩ := (h.rearranged hperm).toPermuted.symm.exists_place hj
    rw [IndexCheck.checkEntity_withFields_congr (h.find?_of_perm hperm hi hj)]
    exact h.indexes i t hi

/-! ### Definitions -/

/-- The definitions of an entity in both orders. -/
lemma Succeeded.finished_alike {i j : Nat} {t : Entity}
    (hi : (declarations project ds).typed.entities[i]? = some t)
    (hj : (declarations project ds').typed.entities[j]? = some t) :
    (finished (declarations project ds).typed i t).toDefinition.Alike ds ds'
      (finished (declarations project ds').typed j t).toDefinition := by
  have happended : FieldDef.Appended ds ds'
      (((visited (declarations project ds).typed).1.fieldsAt i).map FieldDraft.toDefinition)
      (((visited (declarations project ds').typed).1.fieldsAt j).map FieldDraft.toDefinition) := by
    refine ⟨(ownFields (declarations project ds).typed t ++ addedBy project ds t project).map
      FieldDraft.toDefinition, fun d => (addedBy project ds t d).map FieldDraft.toDefinition, ?_, ?_, ?_⟩
    · rw [h.fieldsAt_of_perm (.refl ds) hi, List.flatMap_cons, ← List.append_assoc, List.map_append,
        List.map_flatMap]
    · rw [h.fieldsAt_of_perm hperm hj, List.flatMap_cons, ← List.append_assoc, List.map_append,
        List.map_flatMap]
    · intro d _ k hk
      obtain ⟨k₀, hk₀, rfl⟩ := List.mem_map.mp hk
      exact isHiddenKeyOf_of_mem_addedBy hk₀
  have halike := ModelDef.alike_withFields happended (finished (declarations project ds).typed i t).toDefinition
  rw [← Entity.toDefinition_withFields, ← Entity.toDefinition_withFields, ← h.finished_of_perm (.refl ds) hi hi,
    ← h.finished_of_perm hperm hi hj] at halike
  exact halike

/-- The definitions of a module in both orders. -/
lemma Succeeded.models_alike {s : ModuleSource} (hs : s ∈ project :: ds) :
    List.Forall₂ (ModelDef.Alike ds ds')
      (definitionsOf (final project ds) ⟨s.name, s.knownAs⟩).models
      (definitionsOf (final project ds') ⟨s.name, s.knownAs⟩).models := by
  have h' := h.of_perm hperm
  have hs' : s ∈ project :: ds' := (hperm.cons project).mem_iff.mp hs
  have hentities : ∀ e ∈ declaredBy s, e ∈ (declarations project ds').entities := by
    rw [declarations_eq h'.accepted.complete.apart]
    exact fun e he => List.mem_flatMap.mpr ⟨s, hs', he⟩
  have hmodels' := (List.forall₂_and_left _ _).mpr ⟨hentities, h'.accepted.forall₂_models hs'⟩
  refine forall₂_trans ?_ (h.accepted.forall₂_models hs).flip hmodels'
  rintro _ e _ ⟨i, hi, rfl⟩ ⟨he, j, hj, rfl⟩
  have htyped : TypeResolution.typedEntity (declarations project ds').index e =
      TypeResolution.typedEntity (declarations project ds).index e :=
    congrArg Prod.fst (h.resolveEntity_eq hperm he)
  rw [htyped] at hj ⊢
  exact h.finished_alike hperm hi hj

end Fields

/-! ### Enums -/

section Enums

variable {project : ModuleSource} {ds : List ModuleSource} {given : List Diagnostic}

/-- Definitions are told apart by their modules and names. -/
lemma Accepted.eq_of_header (h : Accepted project ds) {m m' : ModelDef}
    (hm : m ∈ (compile project ds given).models) (hm' : m' ∈ (compile project ds given).models)
    (halias : m.header.moduleAlias = m'.header.moduleAlias) (hname : m.header.className = m'.header.className) :
    m = m' := by
  obtain ⟨i, e, hi, rfl⟩ := (mem_models_iff h).mp hm
  obtain ⟨j, e', hj, rfl⟩ := (mem_models_iff h).mp hm'
  simp only [Entity.header_toDefinition, header_finished] at halias hname
  have hkey : e.key = e'.key := by
    simp [Entity.key, Entity.moduleAlias, Entity.className, halias, hname]
  obtain rfl := RelationResolution.eq_of_pairwise h.unique.1 hi hj (fun hne => hne hkey)
    fun hne => hne hkey.symm
  obtain rfl := Option.some.inj (hi.symm.trans hj)
  rfl

/-- Enums are told apart by their modules and names. -/
lemma Accepted.enum_eq (h : Accepted project ds) {e e' : EnumValues}
    (he : e ∈ enumsOf (compile project ds given).modules) (he' : e' ∈ enumsOf (compile project ds given).modules)
    (hname : e.className = e'.className) (halias : e.moduleAlias = e'.moduleAlias) : e = e' := by
  obtain ⟨p, hp, m, hm, hvalues⟩ := mem_enumsOf.mp he
  obtain ⟨p', hp', m', hm', hvalues'⟩ := mem_enumsOf.mp he'
  obtain ⟨hnameOf, haliasOf⟩ := ModelDef.header_of_enumValues? hvalues
  obtain ⟨hnameOf', haliasOf'⟩ := ModelDef.header_of_enumValues? hvalues'
  have hsame : m = m' := by
    have hmodel : m ∈ (compile project ds given).models := List.mem_flatMap.mpr ⟨p, hp, hm⟩
    have hmodel' : m' ∈ (compile project ds given).models := List.mem_flatMap.mpr ⟨p', hp', hm'⟩
    refine h.eq_of_header hmodel hmodel' ?_ ?_
    · rw [← haliasOf, halias, haliasOf']
    · rw [← hnameOf, hname, hnameOf']
  rw [hsame, hvalues'] at hvalues
  exact (Option.some.inj hvalues).symm

/-- Columns depend only on which enums there are. -/
lemma Accepted.columnOf_eq (h : Accepted project ds) {enums : List EnumValues}
    (hmem : ∀ e, e ∈ enums ↔ e ∈ enumsOf (compile project ds given).modules) :
    columnOf enums = columnOf (enumsOf (compile project ds given).modules) := by
  refine columnOf_congr fun t => find?_eq_of_mem_iff hmem fun e he e' he' ht ht' => ?_
  simp only [Bool.and_eq_true, beq_iff_eq] at ht ht'
  exact h.enum_eq he he' (ht.1.trans ht'.1.symm) (Option.some.inj (ht.2.trans ht'.2.symm))

/-- A module and the other ones have the enums of all modules. -/
lemma Accepted.mem_enumsOf_others (h : Accepted project ds) {p : ProtocolDef}
    (hp : p ∈ (compile project ds given).modules) (e : EnumValues) :
    e ∈ enumsOf (p :: (compile project ds given).others p) ↔
      e ∈ enumsOf (compile project ds given).modules := by
  have hmem : ∀ q, q ∈ p :: (compile project ds given).others p ↔ q ∈ (compile project ds given).modules := by
    intro q
    rw [List.mem_cons, others, List.mem_filter]
    constructor
    · rintro (rfl | ⟨hq, -⟩)
      · exact hp
      · exact hq
    · intro hq
      by_cases halias : q.moduleAlias = p.moduleAlias
      · -- Modules have different aliases.
        left
        rw [modules_compile h] at hp hq
        obtain ⟨s, hs, rfl⟩ := List.mem_map.mp hp
        obtain ⟨s', hs', rfl⟩ := List.mem_map.mp hq
        rw [List.inj_on_of_nodup_map h.complete.apart hs' hs halias]
      · exact Or.inr ⟨hq, by simpa using halias⟩
  simp only [mem_enumsOf, hmem]

end Enums

section Tables

lemma moduleName_definitionsOf (es : List Entity) (m : ModuleIdentity) :
    (definitionsOf es m).moduleName = m.name :=
  rfl

lemma moduleAlias_definitionsOf (es : List Entity) (m : ModuleIdentity) :
    (definitionsOf es m).moduleAlias = m.moduleAlias :=
  rfl

variable {project : ModuleSource} {ds ds' : List ModuleSource} {given : List Diagnostic}

/-- There are the same enums in every order. -/
lemma Succeeded.enumsOf_perm (h : Succeeded project ds) (hperm : ds.Perm ds') :
    (enumsOf (compile project ds given).modules).Perm (enumsOf (compile project ds' given).modules) := by
  have hsame : ∀ s ∈ project :: ds',
      (definitionsOf (final project ds') ⟨s.name, s.knownAs⟩).models.filterMap ModelDef.enumValues? =
        (definitionsOf (final project ds) ⟨s.name, s.knownAs⟩).models.filterMap ModelDef.enumValues? :=
    fun s hs => ModelDef.filterMap_enumValues? (h.models_alike hperm ((hperm.cons project).mem_iff.mpr hs))
  rw [modules_compile h.accepted, modules_compile (h.of_perm hperm).accepted, enumsOf_eq, enumsOf_eq,
    List.flatMap_map, List.flatMap_map, List.flatMap_congr hsame]
  exact (hperm.cons project).flatMap_right _

/-- The tables of a module in both orders. -/
lemma Succeeded.tables_alike (h : Succeeded project ds) (hperm : ds.Perm ds') {s : ModuleSource}
    (hs : s ∈ project :: ds) {p p' : ProtocolDef}
    (hp : p = definitionsOf (final project ds) ⟨s.name, s.knownAs⟩)
    (hp' : p' = definitionsOf (final project ds') ⟨s.name, s.knownAs⟩) :
    List.Forall₂ (Table.Alike ds ds' (enumsOf (compile project ds given).modules))
      (p.tables ((compile project ds given).others p)) (p'.tables ((compile project ds' given).others p')) := by
  have haccepted' := (h.of_perm hperm).accepted
  have hmem : p ∈ (compile project ds given).modules := by
    rw [modules_compile h.accepted, hp]
    exact List.mem_map_of_mem hs
  have hmem' : p' ∈ (compile project ds' given).modules := by
    rw [modules_compile haccepted', hp']
    exact List.mem_map_of_mem ((hperm.cons project).mem_iff.mp hs)
  have hcolumns := h.accepted.columnOf_eq (h.accepted.mem_enumsOf_others hmem)
  have henums : ∀ e, e ∈ enumsOf (p' :: (compile project ds' given).others p') ↔
      e ∈ enumsOf (compile project ds given).modules :=
    fun e => (haccepted'.mem_enumsOf_others hmem' e).trans (h.enumsOf_perm hperm).mem_iff.symm
  have hcolumns' := h.accepted.columnOf_eq henums
  have hname : p'.moduleName = p.moduleName := by
    rw [hp, hp', moduleName_definitionsOf, moduleName_definitionsOf]
  have hmodels : List.Forall₂ (ModelDef.Alike ds ds') p.models p'.models := by
    rw [hp, hp']
    exact h.models_alike hperm hs
  rw [ProtocolDef.tables, ProtocolDef.tables, hname]
  exact List.rel_filterMap (fun m m' halike => halike.table? hcolumns hcolumns' p.moduleName) hmodels

/-- In a compilation without errors the order of the dependencies shows only in the order of the hidden keys
that dependencies add to one class: nothing is reported in any other order, and all definitions and tables of
all modules are the same but for the order of these keys, of their columns and of their constraints. -/
theorem compile_dependencies_perm (hperm : ds.Perm ds') (hno : (compile project ds given).hasErrors = false) :
    (compile project ds' given).hasErrors = false ∧
      ∃ protocol protocol' : ModuleSource → ProtocolDef,
        (compile project ds given).modules = (project :: ds).map protocol ∧
        (compile project ds' given).modules = (project :: ds').map protocol' ∧
        ∀ s ∈ project :: ds, (protocol s).Alike ds ds' (protocol' s) ∧
          List.Forall₂ (Table.Alike ds ds' (enumsOf (compile project ds given).modules))
            ((protocol s).tables ((compile project ds given).others (protocol s)))
            ((protocol' s).tables ((compile project ds' given).others (protocol' s))) := by
  obtain ⟨hgiven, h⟩ := hasErrors_compile_iff.mp hno
  have h' := h.of_perm hperm
  have hno' : (compile project ds' given).hasErrors = false := hasErrors_compile_iff.mpr ⟨hgiven, h'⟩
  refine ⟨hno', _, _, modules_compile h.accepted, modules_compile h'.accepted, fun s hs => ⟨?_, ?_⟩⟩
  · refine ⟨?_, ?_, h.models_alike hperm hs⟩
    · rw [moduleName_definitionsOf, moduleName_definitionsOf]
    · rw [moduleAlias_definitionsOf, moduleAlias_definitionsOf]
  · exact h.tables_alike hperm hs rfl rfl

/-- Cats, which belong to nobody as far as their own module knows. -/
def cats : ModuleSource :=
  sampleModule "cats" ["class: Cat", "table: cat"]

/-- Keepers of cats. -/
def keepers : ModuleSource :=
  sampleModule "keepers" ["class: Keeper", "table: keeper", "fields:", "  cats: List<Cat>?, relation"]

/-- Shelters for cats. -/
def shelters : ModuleSource :=
  sampleModule "shelters" ["class: Shelter", "table: shelter", "fields:", "  cats: List<Cat>?, relation"]

lemma hasErrors_cats : (compile cats [keepers, shelters] []).hasErrors = false := by
  decide +kernel

/-- The keepers and the shelters can be given the other way round. -/
theorem compile_dependencies_perm_cats :
    (compile cats [shelters, keepers] []).hasErrors = false ∧
      (compile cats [keepers, shelters] []).project.Alike [keepers, shelters] [shelters, keepers]
        (compile cats [shelters, keepers] []).project := by
  obtain ⟨hno, protocol, protocol', hmodules, hmodules', halike⟩ :=
    compile_dependencies_perm (List.Perm.swap shelters keepers []) hasErrors_cats
  rw [modules, List.map_cons, List.cons.injEq] at hmodules hmodules'
  rw [hmodules.1, hmodules'.1]
  exact ⟨hno, (halike cats List.mem_cons_self).1⟩

/-- The names of the fields of the first definition of the project. -/
def firstFields (c : Compilation) : List String :=
  (c.project.models.head?.map fun m => m.fields.map (·.name)).getD []

/-- The constraints of the tables of the project, with their columns. -/
def projectConstraints (c : Compilation) : List (String × List String) :=
  (c.project.tables c.dependencies).flatMap fun t => t.foreignKeys.map fun k => (k.constraintName, k.columns)

/-- The hidden keys of the cats stand in the order of the dependencies, and their constraints are numbered in
this order. -/
theorem hiddenKeys_cats :
    (cats.DistinctFiles ∧ keepers.DistinctFiles ∧ shelters.DistinctFiles ∧
        [cats.knownAs, keepers.knownAs, shelters.knownAs].Nodup) ∧
      ((compile cats [keepers, shelters] []).hasErrors = false ∧
        (compile cats [shelters, keepers] []).hasErrors = false) ∧
      (firstFields (compile cats [keepers, shelters] []) =
          ["id", "_keeperCatsKeeperId", "_shelterCatsShelterId"] ∧
        firstFields (compile cats [shelters, keepers] []) =
          ["id", "_shelterCatsShelterId", "_keeperCatsKeeperId"]) ∧
      (projectConstraints (compile cats [keepers, shelters] []) =
          [("cat_fk_0", ["_keeperCatsKeeperId"]), ("cat_fk_1", ["_shelterCatsShelterId"])] ∧
        projectConstraints (compile cats [shelters, keepers] []) =
          [("cat_fk_0", ["_shelterCatsShelterId"]), ("cat_fk_1", ["_keeperCatsKeeperId"])]) := by
  decide +kernel

end Tables

end Compilation

end EntitySchema
