import Mathlib.Data.List.Basic
import Mathlib.Tactic.Common
import EntitySchema.Proofs.Modules
import EntitySchema.Proofs.Relations.Linked
import EntitySchema.Proofs.Types.Pass
import EntitySchema.Proofs.Uniqueness

/-!
# Compilations without errors

In a compilation without errors every pass has succeeded (`accepted_of_hasErrors`).  The definitions are
those of the entities, each with its types resolved, its relations linked and its indexes checked
(`mem_models_iff`), so what has been proved of the entities at their positions can be said of the
definitions: their names and tables are those of the entities, and the fields of a class with a table
are those of the workspace in which all relations have been resolved.
-/

namespace EntitySchema

open RelationResolution (visited consistent_visited)

/-! ### Definitions -/

/-- The table of a definition, if it is a class with one. -/
def ModelDef.tableName? (m : ModelDef) : Option String :=
  match m.body with
  | .class table .. => table
  | _ => none

/-- The field with a name. -/
def ModelDef.field? (m : ModelDef) (name : String) : Option FieldDef :=
  m.fields.find? (·.name == name)

/-- The indexes of a definition. -/
def ModelDef.indexes (m : ModelDef) : List IndexDef :=
  match m.body with
  | .class _ _ _ indexes => indexes
  | _ => []

/-- A definition with a table is a class. -/
lemma ModelDef.kind_of_tableName? {m : ModelDef} {table : String} (h : m.tableName? = some table) :
    m.kind = .class := by
  obtain ⟨header, body⟩ := m
  cases body with
  | «class» => rfl
  | exception | enum => cases h

section Entity

variable (e : Entity)

@[simp] lemma Entity.header_toDefinition : e.toDefinition.header = e.header := rfl

@[simp] lemma Entity.tableName?_toDefinition : e.toDefinition.tableName? = e.table? := by
  obtain ⟨header, nameSpan, body⟩ := e
  cases body <;> rfl

@[simp] lemma Entity.fields_toDefinition :
    e.toDefinition.fields = e.fields.map FieldDraft.toDefinition := by
  obtain ⟨header, nameSpan, body⟩ := e
  cases body <;> rfl

lemma Entity.field?_toDefinition (name : String) :
    e.toDefinition.field? name = (e.fields.find? (·.name == name)).map FieldDraft.toDefinition := by
  rw [ModelDef.field?, Entity.fields_toDefinition, List.find?_map]
  rfl

end Entity

namespace Compilation

/-- The definitions of all modules. -/
def models (c : Compilation) : List ModelDef :=
  c.modules.flatMap (·.models)

/-- The class with a name in a module. -/
def class? (c : Compilation) (moduleAlias className : String) : Option ModelDef :=
  c.models.find? fun m =>
    m.kind == .class && m.header.moduleAlias == moduleAlias && m.header.className == className

/-- The class with a table. -/
def classOfTable? (c : Compilation) (table : String) : Option ModelDef :=
  c.models.find? (·.tableName? == some table)

/-- What the modules of a compilation declare. -/
def declarations (project : ModuleSource) (dependencies : List ModuleSource) : Reading :=
  readModules [] (project :: dependencies)

/-- What has been read, as an index. -/
def Reading.index (r : Reading) : EntityIndex :=
  ⟨r.entities, r.modules.map (·.moduleAlias)⟩

/-- What has been read, with the types resolved. -/
def Reading.typed (r : Reading) : EntityIndex :=
  ⟨(TypeResolution.resolve r.index).1, r.index.aliases⟩

/-- An entity after all passes. -/
def finished (index : EntityIndex) (i : Nat) (e : Entity) : Entity :=
  (IndexCheck.checkEntity (e.withFields ((visited index).1.fieldsAt i))).1

/-! ### Without errors -/

/-- What has been read and resolved without errors. -/
structure Accepted (project : ModuleSource) (dependencies : List ModuleSource) : Prop where
  complete : Complete [] (project :: dependencies)
  keys : (declarations project dependencies).entities.Pairwise fun e e' => e.key ≠ e'.key
  tables : (declarations project dependencies).entities.Pairwise fun e e' =>
    ∀ t, e.table? = some t → e'.table? ≠ some t
  typed : RelationResolution.Typed (declarations project dependencies).typed
  linked : Diagnostic.hasErrors (visited (declarations project dependencies).typed).2 = false

section Accepted

variable {project : ModuleSource} {dependencies : List ModuleSource} {given : List Diagnostic}

/-- Every pass gives no errors. -/
structure Succeeded (project : ModuleSource) (dependencies : List ModuleSource) : Prop where
  reading : Diagnostic.hasErrors (declarations project dependencies).diagnostics = false
  unique : Diagnostic.hasErrors (Uniqueness.check (declarations project dependencies).entities) = false
  types : Diagnostic.hasErrors (TypeResolution.resolve (declarations project dependencies).index).2 = false
  relations : Diagnostic.hasErrors (visited (declarations project dependencies).typed).2 = false
  indexes : ∀ (i : Nat) (e : Entity), (declarations project dependencies).typed.entities[i]? = some e →
    Diagnostic.hasErrors (IndexCheck.checkEntity
      (e.withFields ((visited (declarations project dependencies).typed).1.fieldsAt i))).2 = false

/-- Nothing is reported about indexes just if nothing is reported about those of any entity. -/
lemma hasErrors_indexes_iff {index : EntityIndex} :
    Diagnostic.hasErrors (IndexCheck.resolve (RelationResolution.resolve index).1).2 = false ↔
      ∀ (i : Nat) (e : Entity), index.entities[i]? = some e →
        Diagnostic.hasErrors (IndexCheck.checkEntity (e.withFields ((visited index).1.fieldsAt i))).2 = false := by
  have hmem : ∀ e', e' ∈ (RelationResolution.resolve index).1 ↔
      ∃ (i : Nat) (e : Entity), index.entities[i]? = some e ∧ e.withFields ((visited index).1.fieldsAt i) = e' := by
    intro e'
    simp only [List.mem_iff_getElem?, RelationResolution.getElem?_resolve, Option.map_eq_some_iff]
  simp only [IndexCheck.resolve, Diagnostic.hasErrors_eq_false_iff, List.mem_flatMap, List.mem_map, hmem]
  constructor
  · intro h i e he d hd
    exact h d ⟨_, ⟨_, ⟨i, e, he, rfl⟩, rfl⟩, hd⟩
  · rintro h d ⟨_, ⟨_, ⟨i, e, he, rfl⟩, rfl⟩, hd⟩
    exact h i e he d hd

/-- A compilation has no errors just if none are given and every pass gives none. -/
theorem hasErrors_compile_iff :
    (compile project dependencies given).hasErrors = false ↔
      Diagnostic.hasErrors given = false ∧ Succeeded project dependencies := by
  have hrelated : (RelationResolution.resolve (declarations project dependencies).typed).2 =
      (visited (declarations project dependencies).typed).2 := by
    rw [RelationResolution.resolve_eq]
  have hpasses : (compile project dependencies given).hasErrors = Diagnostic.hasErrors
      (given ++ (declarations project dependencies).diagnostics ++
        Uniqueness.check (declarations project dependencies).entities ++
        (TypeResolution.resolve (declarations project dependencies).index).2 ++
        (RelationResolution.resolve (declarations project dependencies).typed).2 ++
        (IndexCheck.resolve (RelationResolution.resolve (declarations project dependencies).typed).1).2) := rfl
  simp only [hpasses, hrelated, Diagnostic.hasErrors_append, Bool.or_eq_false_iff, hasErrors_indexes_iff]
  constructor
  · rintro ⟨⟨⟨⟨⟨hgiven, hread⟩, hunique⟩, htypes⟩, hrelations⟩, hindexes⟩
    exact ⟨hgiven, hread, hunique, htypes, hrelations, hindexes⟩
  · rintro ⟨hgiven, hread, hunique, htypes, hrelations, hindexes⟩
    exact ⟨⟨⟨⟨⟨hgiven, hread⟩, hunique⟩, htypes⟩, hrelations⟩, hindexes⟩

/-- What follows from the passes having succeeded. -/
lemma Succeeded.accepted (h : Succeeded project dependencies) : Accepted project dependencies := by
  have hcomplete := complete_of_hasErrors h.reading
  obtain ⟨hkeys, htables⟩ := Uniqueness.pairwise_of_check h.unique
  exact {
    complete := hcomplete
    keys := hkeys
    tables := htables
    typed := TypeResolution.typed_resolve hcomplete.declared hcomplete.exists_id h.types
    linked := h.relations }

/-- In a compilation without errors every pass has succeeded. -/
theorem accepted_of_hasErrors (hno : (compile project dependencies given).hasErrors = false) :
    Accepted project dependencies :=
  (hasErrors_compile_iff.mp hno).2.accepted

/-- The entities after all passes. -/
def final (project : ModuleSource) (dependencies : List ModuleSource) : List Entity :=
  (IndexCheck.resolve (RelationResolution.resolve (declarations project dependencies).typed).1).1

/-- Every module that takes part has its definitions. -/
lemma modules_compile_of_ne_nil (h : (declarations project dependencies).modules ≠ []) :
    (compile project dependencies given).modules =
      (declarations project dependencies).modules.map (definitionsOf (final project dependencies)) := by
  obtain ⟨m, ms, hms⟩ := List.exists_cons_of_ne_nil h
  have hmodules := hms
  rw [declarations] at hmodules
  simp only [compile, modules, hmodules, List.map_cons, hms]
  rw [final, Reading.typed, Reading.index, hms, declarations]
  rfl

/-- All modules have their definitions, in their order. -/
theorem modules_compile (h : Accepted project dependencies) :
    (compile project dependencies given).modules =
      (project :: dependencies).map fun m =>
        definitionsOf (final project dependencies) ⟨m.name, m.knownAs⟩ := by
  have hmodules : (declarations project dependencies).modules = _ := h.complete.modules
  rw [modules_compile_of_ne_nil (by rw [hmodules]; simp), hmodules, List.map_map]
  rfl

/-! ### The entities behind the definitions -/

/-- Every entity is there after all passes. -/
lemma getElem?_final (i : Nat) :
    (final project dependencies)[i]? =
      (declarations project dependencies).typed.entities[i]?.map
        (finished (declarations project dependencies).typed i) := by
  rw [final, IndexCheck.resolve, List.map_map, List.getElem?_map, RelationResolution.getElem?_resolve,
    Option.map_map]
  rfl

@[simp] lemma header_finished (index : EntityIndex) (i : Nat) (e : Entity) :
    (finished index i e).header = e.header := by
  simp [finished]

@[simp] lemma table?_finished (index : EntityIndex) (i : Nat) (e : Entity) :
    (finished index i e).table? = e.table? := by
  simp [finished]

/-- Every entity with resolved types belongs to one of the modules. -/
lemma Accepted.moduleAlias_mem (h : Accepted project dependencies) :
    ∀ e ∈ (declarations project dependencies).typed.entities,
      ∃ m ∈ project :: dependencies, m.knownAs = e.moduleAlias := by
  intro e he
  rw [Reading.typed, TypeResolution.resolve_entities] at he
  obtain ⟨e', he', rfl⟩ := List.mem_map.mp he
  obtain ⟨m, hm, halias⟩ := List.mem_map.mp (h.complete.moduleAlias_mem e' he')
  exact ⟨m, hm, by simpa using halias⟩

/-- The definitions of a module are those of its entities. -/
lemma mem_models_definitionsOf {es : List Entity} {s : ModuleIdentity} {m : ModelDef} :
    m ∈ (definitionsOf es s).models ↔ ∃ e ∈ es, e.moduleAlias = s.moduleAlias ∧ e.toDefinition = m := by
  simp [definitionsOf, and_assoc]

/-- The definitions are those of the entities after all passes. -/
theorem mem_models_iff (h : Accepted project dependencies) {m : ModelDef} :
    m ∈ (compile project dependencies given).models ↔
      ∃ i e, (declarations project dependencies).typed.entities[i]? = some e ∧
        m = (finished (declarations project dependencies).typed i e).toDefinition := by
  simp only [models, modules_compile h, List.mem_flatMap, List.mem_map]
  constructor
  · rintro ⟨_, ⟨s, -, rfl⟩, hm⟩
    obtain ⟨e', he', -, rfl⟩ := mem_models_definitionsOf.mp hm
    obtain ⟨i, hi⟩ := List.mem_iff_getElem?.mp he'
    rw [getElem?_final, Option.map_eq_some_iff] at hi
    obtain ⟨e, he, rfl⟩ := hi
    exact ⟨i, e, he, rfl⟩
  · rintro ⟨i, e, he, rfl⟩
    obtain ⟨s, hs, halias⟩ := h.moduleAlias_mem e (List.mem_of_getElem? he)
    refine ⟨_, ⟨s, hs, rfl⟩, mem_models_definitionsOf.mpr ⟨finished _ i e, ?_, ?_, rfl⟩⟩
    · refine List.mem_iff_getElem?.mpr ⟨i, ?_⟩
      rw [getElem?_final, he, Option.map_some]
    · simpa [Entity.moduleAlias] using halias.symm

/-! ### Lookups -/

/-- A definition is found if it is the only one with the property. -/
lemma find?_models_eq_some (h : Accepted project dependencies) {p : ModelDef → Bool} {i : Nat} {e : Entity}
    (he : (declarations project dependencies).typed.entities[i]? = some e)
    (hp : p (finished (declarations project dependencies).typed i e).toDefinition = true)
    (hunique : ∀ j e', (declarations project dependencies).typed.entities[j]? = some e' →
      p (finished (declarations project dependencies).typed j e').toDefinition = true → j = i) :
    (compile project dependencies given).models.find? p =
      some (finished (declarations project dependencies).typed i e).toDefinition := by
  have hmem : (finished (declarations project dependencies).typed i e).toDefinition ∈
      (compile project dependencies given).models := (mem_models_iff h).mpr ⟨i, e, he, rfl⟩
  obtain ⟨m, hm⟩ := Option.isSome_iff_exists.mp (List.find?_isSome.mpr ⟨_, hmem, hp⟩)
  obtain ⟨j, e', he', rfl⟩ := (mem_models_iff h).mp (List.mem_of_find?_eq_some hm)
  obtain rfl := hunique j e' he' (List.find?_some hm)
  obtain rfl : e' = e := Option.some.inj (he'.symm.trans he)
  exact hm

/-- Entities with resolved types have the keys and the tables that have been read. -/
lemma Accepted.unique (h : Accepted project dependencies) :
    ((declarations project dependencies).typed.entities.Pairwise fun e e' => e.key ≠ e'.key) ∧
      (declarations project dependencies).typed.entities.Pairwise fun e e' =>
        ∀ t, e.table? = some t → e'.table? ≠ some t := by
  rw [Reading.typed, TypeResolution.resolve_entities]
  refine ⟨?_, ?_⟩
  · simpa [List.pairwise_map, Reading.index] using h.keys
  · simpa [List.pairwise_map, Reading.index] using h.tables

/-- A class is found by its module and its name. -/
lemma class?_compile (h : Accepted project dependencies) {i : Nat} {e : Entity}
    (he : (declarations project dependencies).typed.entities[i]? = some e) {table : String}
    (htable : e.table? = some table) :
    (compile project dependencies given).class? e.moduleAlias e.className =
      some (finished (declarations project dependencies).typed i e).toDefinition := by
  refine find?_models_eq_some h he ?_ ?_
  · have hdefined : (finished (declarations project dependencies).typed i e).toDefinition.tableName? =
        some table := by
      simpa using htable
    have hkind := ModelDef.kind_of_tableName? hdefined
    simp [hkind, Entity.moduleAlias, Entity.className]
  · intro j e' he' hp
    simp only [Entity.header_toDefinition, header_finished, Bool.and_eq_true, beq_iff_eq] at hp
    refine RelationResolution.eq_of_pairwise h.unique.1 he' he ?_ ?_
    · simp [Entity.key, Entity.moduleAlias, Entity.className, hp.1.2, hp.2]
    · simp [Entity.key, Entity.moduleAlias, Entity.className, hp.1.2, hp.2]

/-- A class is found by its table. -/
lemma classOfTable?_compile (h : Accepted project dependencies) {i : Nat} {e : Entity}
    (he : (declarations project dependencies).typed.entities[i]? = some e) {table : String}
    (htable : e.table? = some table) :
    (compile project dependencies given).classOfTable? table =
      some (finished (declarations project dependencies).typed i e).toDefinition := by
  refine find?_models_eq_some h he (by simpa using htable) ?_
  intro j e' he' hp
  simp only [Entity.tableName?_toDefinition, table?_finished, beq_iff_eq] at hp
  exact RelationResolution.eq_of_pairwise h.unique.2 he' he (fun hne => hne table hp htable)
    fun hne => hne table htable hp

end Accepted

/-! ### Fields -/

section Finished

variable {index : EntityIndex} {i : Nat} {e : Entity}

/-- The fields of a definition are those of the workspace. -/
lemma mem_fields_finished {f : FieldDef} (h : f ∈ (finished index i e).toDefinition.fields) :
    ∃ d ∈ (visited index).1.fieldsAt i, f = d.toDefinition := by
  rw [Entity.fields_toDefinition, finished, IndexCheck.fields_checkEntity] at h
  obtain ⟨d, hd, rfl⟩ := List.mem_map.mp h
  exact ⟨d, Entity.mem_fields_withFields hd, rfl⟩

/-- A class with a table has all fields of the workspace. -/
lemma fields_finished (h : e.table?.isSome) :
    (finished index i e).fields = (visited index).1.fieldsAt i := by
  rw [finished, IndexCheck.fields_checkEntity, Entity.fields_withFields_of_table? h]

/-- The field of a class with a table is the one of the workspace. -/
lemma field?_finished (h : e.table?.isSome) (name : String) :
    (finished index i e).toDefinition.field? name =
      ((visited index).1.find? i name).map FieldDraft.toDefinition := by
  rw [Entity.field?_toDefinition, fields_finished h]
  rfl

/-- The indexes of a class with a table list stored fields. -/
lemma stored_of_mem_indexes (htable : e.table?.isSome) (hunchecked : e.Unchecked) {d : IndexDef}
    (hd : d ∈ (finished index i e).toDefinition.indexes) {name : String} (hname : name ∈ d.fields) :
    IndexCheck.Stored ((visited index).1.fieldsAt i) name := by
  have hfields : (finished index i e).fields = _ := fields_finished htable
  have hnone := hunchecked.withFields ((visited index).1.fieldsAt i)
  rw [finished] at hd hfields
  generalize e.withFields ((visited index).1.fieldsAt i) = e' at hd hfields hnone
  obtain ⟨header, nameSpan, body⟩ := e'
  cases body with
  | «class» c =>
    obtain ⟨checked, heq, hstored⟩ := IndexCheck.checkEntity_class (e := ⟨header, nameSpan, .class c⟩) rfl (hnone c rfl)
    rw [heq] at hd hfields
    rw [← hfields]
    exact hstored d hd name hname
  | exception | enum => cases hd

end Finished

/-! ### What the documents say -/

/-- The document of a definition declares the field, with an annotation that keeps it out of the table. -/
def Reading.DeclaresUnstored (r : Reading) (m : ModelDef) (name : String) : Prop :=
  ∃ e ∈ r.entities, e.moduleAlias = m.header.moduleAlias ∧ e.className = m.header.className ∧
    ∃ d ∈ e.fields, d.name = name ∧ d.shouldPersist = false ∧ d.persistSpan ≠ none

section Documents

variable {project : ModuleSource} {dependencies : List ModuleSource}

/-- An entity of the index is the one that has been read, with its types resolved. -/
lemma exists_declared {i : Nat} {e : Entity}
    (he : (declarations project dependencies).typed.entities[i]? = some e) :
    ∃ e₀ ∈ (declarations project dependencies).entities,
      e = TypeResolution.typedEntity (declarations project dependencies).index e₀ := by
  have hmem := List.mem_of_getElem? he
  rw [Reading.typed, TypeResolution.resolve_entities] at hmem
  obtain ⟨e₀, he₀, rfl⟩ := List.mem_map.mp hmem
  exact ⟨e₀, he₀, rfl⟩

/-- The indexes of an entity with resolved types have not been checked yet. -/
lemma Accepted.unchecked (h : Accepted project dependencies) {i : Nat} {e : Entity}
    (he : (declarations project dependencies).typed.entities[i]? = some e) : e.Unchecked := by
  obtain ⟨e₀, he₀, rfl⟩ := exists_declared he
  exact TypeResolution.unchecked_typedEntity (h.complete.declared e₀ he₀).unchecked

/-- What holds of the fields of every entity whose types are resolved, and of no fields, holds of the workspace at
the beginning. -/
lemma forall_initial {P : List FieldDraft → Prop} (hnil : P [])
    (hP : ∀ e ∈ (declarations project dependencies).entities,
      P (TypeResolution.typedEntity (declarations project dependencies).index e).fields) (i : Nat) :
    P ((RelationResolution.initial (declarations project dependencies).typed).fieldsAt i) := by
  cases he : (declarations project dependencies).typed.entities[i]? with
  | none =>
    rw [Workspace.fieldsAt_eq_nil]
    · exact hnil
    · simpa [Workspace.ofEntities] using he
  | some e =>
    rw [RelationResolution.fieldsAt_initial he]
    obtain ⟨e₀, he₀, rfl⟩ := exists_declared he
    exact hP e₀ he₀

/-- Fields of the workspace share only literals as names. -/
lemma Accepted.namesApart (h : Accepted project dependencies) (i : Nat) :
    FieldDraft.Shadowed (·.name ∈ literalNames)
      ((visited (declarations project dependencies).typed).1.fieldsAt i) := by
  refine (consistent_visited h.typed).shadowed _ (forall_initial List.Pairwise.nil fun e he => ?_) i
  exact TypeResolution.shadowed_typedEntity (h.complete.namesApart e he) fun _ hf => hf

/-- A scalar of a class with a table that is not stored is declared so. -/
lemma Accepted.declaresUnstored (h : Accepted project dependencies) {i : Nat} {e : Entity}
    (he : (declarations project dependencies).typed.entities[i]? = some e) (htable : e.table?.isSome)
    {f : FieldDraft}
    (hf : f ∈ (visited (declarations project dependencies).typed).1.fieldsAt i)
    (hscalar : f.type.category = .scalar) (hstored : f.shouldPersist = false) :
    f.origin = .declared ∧ (declarations project dependencies).DeclaresUnstored
      (finished (declarations project dependencies).typed i e).toDefinition f.name := by
  obtain ⟨d, hd, hname, hunstored, horigin⟩ :=
    (consistent_visited h.typed).declared_of_scalar hf hscalar hstored
  rw [RelationResolution.fieldsAt_initial he] at hd
  obtain ⟨e₀, he₀, rfl⟩ := exists_declared he
  rw [TypeResolution.fields_typedEntity] at hd
  obtain ⟨d₀, hd₀, rfl⟩ := List.mem_map.mp hd
  rw [TypeResolution.table?_typedEntity] at htable
  obtain ⟨hspan, hdeclared⟩ := (h.complete.declared e₀ he₀).stored htable d₀ hd₀ hunstored
  refine ⟨horigin.symm.trans hdeclared, e₀, he₀, ?_, ?_, d₀, hd₀, hname, hunstored, hspan⟩
  · simp [Entity.moduleAlias]
  · simp [Entity.className]

end Documents

/-! ### A sample -/

/-- A module with one document. -/
def sampleModule (name : String) (lines : List String) : ModuleSource :=
  { name, documents := [⟨String.intercalate "\n" lines, name ++ ".spy.yaml", name, [], none⟩] }

/-- Employees with their lead and their team. -/
def staff : ModuleSource :=
  sampleModule "staff"
    ["class: Employee", "table: staff", "fields:",
      "  lead: Employee?, relation(name=team)",
      "  team: List<Employee>?, relation(name=team)"]

lemma hasErrors_staff : (compile staff [] []).hasErrors = false := by
  decide +kernel

lemma nodup_staff : ∀ e ∈ (declarations staff []).entities, (e.fields.map (·.name)).Nodup := by
  decide +kernel

end Compilation

end EntitySchema
