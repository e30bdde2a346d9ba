import Mathlib.Data.List.Flatten
import Mathlib.Data.List.Nodup
import Mathlib.Data.List.Perm.Basic
import Mathlib.Tactic.Common
import EntitySchema.Proofs.Declarations
import EntitySchema.Proofs.Numerals
import EntitySchema.Proofs.Tables

/-!
# Names of tables, foreign keys and indexes

The names of tables and of the indexes that documents declare are compared over all modules, and the definitions
are those of the entities that have been read (`Accepted.flatMap_models`).  So no two tables have one name, and no
two declared indexes.  The name of a foreign key is that of its table with a number behind the last underscore, so
it determines both (`constraintName_inj`), and no two foreign keys have one name (`constraintNames_compile`).  The
index of a primary key is named after its table, and nothing compares this name with those of the declared indexes
(`indexNames_compile`).
-/

namespace EntitySchema

open RelationResolution (visited)

/-! ### Names with a number -/

/-- Decimal digits determine the number. -/
lemma Number.toDigits_injective : Function.Injective (Nat.toDigits 10) := by
  intro n m h
  rw [← digitsValue_toDigits n, h, digitsValue_toDigits]

/-- The name of a foreign key determines its table and its number. -/
lemma constraintName_inj {t t' : String} {n n' : Nat}
    (h : t ++ "_fk_" ++ toString n = t' ++ "_fk_" ++ toString n') : t = t' ∧ n = n' := by
  have hdigits : ∀ k : Nat, '_' ∉ Nat.toDigits 10 k := by
    intro k hmem
    exact absurd (Number.isDigit_of_mem_toDigits hmem) (by decide)
  have hseparator : "_fk_".toList = ['_', 'f', 'k'] ++ ['_'] := rfl
  have htext : (t.toList ++ ['_', 'f', 'k']) ++ '_' :: Nat.toDigits 10 n =
      (t'.toList ++ ['_', 'f', 'k']) ++ '_' :: Nat.toDigits 10 n' := by
    simpa [String.toList_append, hseparator, Nat.toString_eq_repr] using congrArg String.toList h
  obtain ⟨htable, hnumber⟩ := append_separator_inj (hdigits n) (hdigits n') htext
  exact ⟨String.toList_injective (List.append_cancel_right htable), Number.toDigits_injective hnumber⟩

namespace Table

/-- The names of the foreign keys. -/
def constraintNames (t : Table) : List String :=
  t.foreignKeys.map (·.constraintName)

/-- The names of the indexes other than that of the primary key. -/
def ownIndexNames (t : Table) : List String :=
  (t.indexes.filter (!·.isPrimary)).map (·.indexName)

end Table

/-! ### The tables of a definition -/

section Definition

variable {m : ModelDef} {enums : List EnumValues} {moduleName : String} {t : Table}

/-- The foreign keys of a table are numbered. -/
lemma ModelDef.constraintNames_of_table? (h : m.table? enums moduleName = some t) :
    ∃ k, t.constraintNames = (List.range k).map fun n => t.name ++ "_fk_" ++ toString n := by
  obtain ⟨-, managed, heq⟩ := ModelDef.table?_eq_some h
  have hkeys : t.foreignKeys =
      ((FieldDef.keys m.fields).filter (·.1.shouldPersist)).mapIdx (foreignKeyOf t.name) := by
    conv_lhs => rw [heq]
    exact foreignKeys_tableOf _ _ _ _ _ _
  refine ⟨((FieldDef.keys m.fields).filter (·.1.shouldPersist)).length, ?_⟩
  rw [Table.constraintNames, hkeys]
  refine List.ext_getElem (by simp) fun i hi hi' => ?_
  simp [foreignKeyOf]

/-- The indexes of a table are that of the primary key and those of the definition. -/
lemma ModelDef.indexNames_of_table? (h : m.table? enums moduleName = some t) :
    t.ownIndexNames = m.indexes.map (·.name) ∧
      t.indexes.map (·.indexName) = (t.name ++ "_pkey") :: t.ownIndexNames := by
  obtain ⟨-, managed, heq⟩ := ModelDef.table?_eq_some h
  have hindexes : t.indexes = primaryIndex t.name :: m.indexes.map tableIndexOf := by
    conv_lhs => rw [heq]
    rfl
  have hown : t.ownIndexNames = m.indexes.map (·.name) := by
    rw [Table.ownIndexNames, hindexes]
    simp [primaryIndex, tableIndexOf, Function.comp_def, List.filter_map]
  refine ⟨hown, ?_⟩
  rw [hown, hindexes]
  simp [primaryIndex, tableIndexOf, Function.comp_def]

end Definition

namespace Compilation

section TableNames

variable {project : ModuleSource} {dependencies : List ModuleSource} {given : List Diagnostic}

/-- What the definitions have of their entities, they have in the order of the entities. -/
lemma Accepted.flatMap_models {α : Type} (h : Accepted project dependencies) {f : Entity → List α}
    {g : ModelDef → List α}
    (hfg : ∀ i e, (declarations project dependencies).typed.entities[i]? =
        some (TypeResolution.typedEntity (declarations project dependencies).index e) →
      g (finished (declarations project dependencies).typed i
        (TypeResolution.typedEntity (declarations project dependencies).index e)).toDefinition = f e) :
    (compile project dependencies given).models.flatMap g =
      (declarations project dependencies).entities.flatMap f := by
  have hmodule : ∀ s ∈ project :: dependencies,
      (definitionsOf (final project dependencies) ⟨s.name, s.knownAs⟩).models.flatMap g =
        (declaredBy s).flatMap f := by
    intro s hs
    have hmodels := h.forall₂_models hs
    generalize (definitionsOf (final project dependencies) ⟨s.name, s.knownAs⟩).models = ms at hmodels
    generalize declaredBy s = es at hmodels
    induction hmodels with
    | nil => rfl
    | @cons e m es ms hem hrest ih =>
      obtain ⟨i, he, rfl⟩ := hem
      rw [List.flatMap_cons, List.flatMap_cons, ih, hfg i e he]
  have hentities : (declarations project dependencies).entities = (project :: dependencies).flatMap declaredBy := by
    rw [declarations_eq h.complete.apart]
  rw [models, modules_compile h, hentities, List.flatMap_map, List.flatMap_assoc, List.flatMap_assoc]
  exact List.flatMap_congr hmodule

/-- What tables have of their definitions, they have in the order of the definitions. -/
lemma sublist_tables {α : Type} {c : Compilation} {f : Table → List α} {g : ModelDef → List α}
    (hfg : ∀ m enums moduleName t, ModelDef.table? enums moduleName m = some t → (f t).Sublist (g m)) :
    (c.tables.flatMap f).Sublist (c.models.flatMap g) := by
  rw [tables, models, List.flatMap_assoc, List.flatMap_assoc]
  refine List.Sublist.flatMap_right _ fun p _ => ?_
  rw [ProtocolDef.tables, List.filterMap_eq_flatMap_toList, List.flatMap_assoc]
  refine List.Sublist.flatMap_right _ fun m _ => ?_
  cases ht : m.table? (enumsOf (p :: c.others p)) p.moduleName with
  | none => exact List.nil_sublist _
  | some t => simpa using hfg m _ _ t ht

/-- No two tables have one name. -/
lemma nodup_tables (hno : (compile project dependencies given).hasErrors = false) :
    ((compile project dependencies given).tables.map (·.name)).Nodup := by
  obtain ⟨-, hsucceeded⟩ := hasErrors_compile_iff.mp hno
  have hmodels : (compile project dependencies given).models.flatMap (·.tableName?.toList) =
      (declarations project dependencies).entities.filterMap Entity.table? := by
    rw [List.filterMap_eq_flatMap_toList]
    exact hsucceeded.accepted.flatMap_models fun i e _ => by simp
  have hnodup := (Uniqueness.hasErrors_check.mp hsucceeded.unique).2.1
  rw [← hmodels] at hnodup
  rw [List.map_eq_flatMap]
  refine hnodup.sublist (sublist_tables fun m enums moduleName t ht => ?_)
  rw [(ModelDef.table?_eq_some ht).1]
  exact List.Sublist.refl _

/-- No two declared indexes have one name. -/
lemma nodup_ownIndexNames (hno : (compile project dependencies given).hasErrors = false) :
    ((compile project dependencies given).tables.flatMap Table.ownIndexNames).Nodup := by
  obtain ⟨-, hsucceeded⟩ := hasErrors_compile_iff.mp hno
  have hmodels : (compile project dependencies given).models.flatMap (·.indexes.map (·.name)) =
      (declarations project dependencies).entities.flatMap Entity.indexNames := by
    refine hsucceeded.accepted.flatMap_models fun i e he => ?_
    have hunchecked := (hsucceeded.accepted.unchecked he).withFields
      ((visited (declarations project dependencies).typed).1.fieldsAt i)
    rw [finished, Entity.indexes_checkEntity hunchecked (hsucceeded.indexes i _ he),
      Entity.indexNames_withFields, TypeResolution.indexNames_typedEntity]
  have hnodup := (Uniqueness.hasErrors_check.mp hsucceeded.unique).2.2
  rw [← hmodels] at hnodup
  refine hnodup.sublist (sublist_tables fun m enums moduleName t ht => ?_)
  rw [(ModelDef.indexNames_of_table? ht).1]

/-- In a compilation without errors the names of the tables of all modules are pairwise different, and so are the
names of all their foreign keys. -/
theorem constraintNames_compile (hno : (compile project dependencies given).hasErrors = false) :
    ((compile project dependencies given).tables.map (·.name)).Nodup ∧
    ((compile project dependencies given).tables.flatMap Table.constraintNames).Nodup := by
  have hnodup := nodup_tables hno
  have hnumbered : ∀ t ∈ (compile project dependencies given).tables,
      ∃ k, t.constraintNames = (List.range k).map fun n => t.name ++ "_fk_" ++ toString n := by
    intro t ht
    obtain ⟨p, -, m, -, htable⟩ := mem_tables.mp ht
    exact ModelDef.constraintNames_of_table? htable
  refine ⟨hnodup, List.nodup_flatMap.mpr ⟨fun t ht => ?_, ?_⟩⟩
  · obtain ⟨k, hk⟩ := hnumbered t ht
    rw [hk]
    exact List.nodup_range.map fun n n' h => (constraintName_inj h).2
  · refine List.Pairwise.imp_of_mem ?_ (List.pairwise_map.mp hnodup)
    intro t t' ht ht' hne name hname hname'
    obtain ⟨k, hk⟩ := hnumbered t ht
    obtain ⟨k', hk'⟩ := hnumbered t' ht'
    rw [hk] at hname
    rw [hk'] at hname'
    obtain ⟨n, -, rfl⟩ := List.mem_map.mp hname
    obtain ⟨n', -, heq⟩ := List.mem_map.mp hname'
    exact hne (constraintName_inj heq).1.symm

/-- Links that refer to a next one. -/
def links : ModuleSource :=
  sampleModule "links" ["class: Link", "table: link", "fields:", "  next: Link?, relation"]

/-- Marks in a table that is named like a foreign key of links. -/
def marks : ModuleSource :=
  sampleModule "marks" ["class: Mark", "table: link_fk_0", "fields:", "  next: Mark?, relation"]

/-- The foreign keys of links and marks have different names. -/
theorem constraintNames_compile_links :
    (compile links [marks] []).tables.flatMap Table.constraintNames = ["link_fk_0", "link_fk_0_fk_0"] ∧
    ((compile links [marks] []).tables.map (·.name)).Nodup ∧
    ((compile links [marks] []).tables.flatMap Table.constraintNames).Nodup := by
  obtain ⟨hno, hnames⟩ : (compile links [marks] []).hasErrors = false ∧
      (compile links [marks] []).tables.flatMap Table.constraintNames = ["link_fk_0", "link_fk_0_fk_0"] := by
    decide +kernel
  exact ⟨hnames, constraintNames_compile hno⟩

/-- In a compilation without errors the names of the indexes of primary keys are pairwise different, and so are
the names of the other ones.  All names of indexes are different just if no other index has the name of the index
of a primary key. -/
theorem indexNames_compile (hno : (compile project dependencies given).hasErrors = false) :
    ((compile project dependencies given).tables.map fun t => t.name ++ "_pkey").Nodup ∧
    ((compile project dependencies given).tables.flatMap Table.ownIndexNames).Nodup ∧
    (((compile project dependencies given).tables.flatMap fun t => t.indexes.map (·.indexName)).Nodup ↔
      ∀ t ∈ (compile project dependencies given).tables, ∀ t' ∈ (compile project dependencies given).tables,
        t.name ++ "_pkey" ∉ t'.ownIndexNames) := by
  have hprimary : ((compile project dependencies given).tables.map fun t => t.name ++ "_pkey").Nodup := by
    have hnames := (nodup_tables hno).map fun t t' => (String.append_left_inj "_pkey").mp
    rwa [List.map_map] at hnames
  have hown := nodup_ownIndexNames hno
  refine ⟨hprimary, hown, ?_⟩
  have hsplit : ((compile project dependencies given).tables.flatMap fun t => t.indexes.map (·.indexName)) =
      (compile project dependencies given).tables.flatMap fun t => (t.name ++ "_pkey") :: t.ownIndexNames := by
    refine List.flatMap_congr fun t ht => ?_
    obtain ⟨p, -, m, -, htable⟩ := mem_tables.mp ht
    exact (ModelDef.indexNames_of_table? htable).2
  rw [hsplit, ← (List.map_append_flatMap_perm _ _ _).nodup_iff, List.nodup_append]
  constructor
  · rintro ⟨-, -, hdisjoint⟩ t ht t' ht' hmem
    exact hdisjoint _ (List.mem_map_of_mem ht) _ (List.mem_flatMap.mpr ⟨t', ht', hmem⟩) rfl
  · intro hapart
    refine ⟨hprimary, hown, ?_⟩
    rintro name hname _ hname' rfl
    obtain ⟨t, ht, rfl⟩ := List.mem_map.mp hname
    obtain ⟨t', ht', hmem⟩ := List.mem_flatMap.mp hname'
    exact hapart t ht t' ht' hmem

/-- Posts with an index that has the name of the index of their primary key. -/
def posts : ModuleSource :=
  sampleModule "posts"
    ["class: Post", "table: post", "fields:", "  title: String", "indexes:", "  post_pkey:", "    fields: title"]

/-- The indexes of the staff have different names, but not those of posts. -/
theorem indexNames_compile_staff :
    ((compile staff [] []).tables.flatMap fun t => t.indexes.map (·.indexName)).Nodup ∧
    ¬ ((compile posts [] []).tables.flatMap fun t => t.indexes.map (·.indexName)).Nodup := by
  constructor
  · have hapart : ∀ t ∈ (compile staff [] []).tables, ∀ t' ∈ (compile staff [] []).tables,
        t.name ++ "_pkey" ∉ t'.ownIndexNames := by
      decide +kernel
    exact (indexNames_compile hasErrors_staff).2.2.mpr hapart
  · obtain ⟨hno, htaken⟩ : (compile posts [] []).hasErrors = false ∧
        ¬ ∀ t ∈ (compile posts [] []).tables, ∀ t' ∈ (compile posts [] []).tables,
          t.name ++ "_pkey" ∉ t'.ownIndexNames := by
      decide +kernel
    exact fun hnodup => htaken ((indexNames_compile hno).2.2.mp hnodup)

end TableNames

end Compilation

end EntitySchema
