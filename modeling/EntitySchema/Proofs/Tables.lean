import Mathlib.Data.List.Basic
import Mathlib.Tactic.Common
import EntitySchema.Proofs.Compilation
import EntitySchema.Table.OfModel

/-!
# Tables of compiled modules

The tables of a compilation without errors have a foreign key for each key among the fields that are
stored.  All keys are stored unless a document declares one that is not, so these are the only keys that a
table can miss (`foreignKeys_compile`).  The tables refer to columns that are there, of the same type, as
soon as every primary key is stored (`closed_compile`): nothing checks that it is.
-/

namespace EntitySchema

open RelationResolution (TableClass visited consistent_visited)

/-! ### The keys of a table -/

/-- What a field refers to, if it is a key. -/
def FieldDef.key? (f : FieldDef) : Option ForeignKeyRelation :=
  f.relation.bind RelationDef.foreignKey?

/-- The keys among fields, with what they refer to. -/
def FieldDef.keys (fields : List FieldDef) : List (FieldDef × ForeignKeyRelation) :=
  fields.filterMap fun f => f.key?.map fun r => (f, r)

/-- The foreign key number `n` of a table, for a key among its fields. -/
def foreignKeyOf (table : String) (n : Nat) (key : FieldDef × ForeignKeyRelation) : ForeignKey :=
  { constraintName := table ++ "_fk_" ++ toString n
    columns := [key.1.name]
    referenceTable := key.2.parentTable
    referenceColumns := [key.2.referencedField]
    onDelete := key.2.onDelete
    onUpdate := key.2.onUpdate }

/-- The column with a name. -/
def Table.column? (t : Table) (name : String) : Option Column :=
  t.columns.find? (·.name == name)

/-- The foreign keys of a table are those of the given keys, in order, and each of them is a column. -/
structure Table.HasKeys (t : Table) (enums : List EnumValues) (keys : List (FieldDef × ForeignKeyRelation)) :
    Prop where
  foreignKeys : t.foreignKeys = keys.mapIdx (foreignKeyOf t.name)
  columns : ∀ k ∈ keys, t.column? k.1.name = some (columnOf enums t.name k.1)

namespace FieldDef

lemma key?_eq_some_iff {f : FieldDef} {r : ForeignKeyRelation} :
    f.key? = some r ↔ f.relation = some (.foreignKey r) := by
  unfold key?
  cases f.relation with
  | none => simp
  | some relation => cases relation <;> simp [RelationDef.foreignKey?]

lemma mem_keys {fields : List FieldDef} {k : FieldDef × ForeignKeyRelation} :
    k ∈ keys fields ↔ k.1 ∈ fields ∧ k.1.relation = some (.foreignKey k.2) := by
  simp only [keys, List.mem_filterMap, Option.map_eq_some_iff, ← key?_eq_some_iff]
  constructor
  · rintro ⟨f, hf, r, hr, rfl⟩
    exact ⟨hf, hr⟩
  · rintro ⟨hf, hr⟩
    exact ⟨k.1, hf, k.2, hr, rfl⟩

/-- The keys among the stored fields are the stored keys. -/
lemma keys_filter (fields : List FieldDef) :
    keys (fields.filter (·.shouldPersist)) = (keys fields).filter (·.1.shouldPersist) := by
  induction fields with
  | nil => rfl
  | cons f fields ih =>
    cases hstored : f.shouldPersist <;> cases hkey : f.key? <;> simp_all [keys]

end FieldDef

/-- The foreign keys of fields are those of the keys among them, in order. -/
lemma foreignKeysFrom_eq (table : String) (n : Nat) (fields : List FieldDef) :
    foreignKeysFrom table n fields =
      (FieldDef.keys fields).mapIdx fun i key => foreignKeyOf table (n + i) key := by
  induction fields generalizing n with
  | nil => rfl
  | cons f fields ih =>
    cases hkey : f.key? with
    | none =>
      have hrelation : f.relation.bind RelationDef.foreignKey? = none := hkey
      simp only [foreignKeysFrom, hrelation, FieldDef.keys, List.filterMap_cons, hkey, Option.map_none, ih]
    | some r =>
      have hrelation : f.relation.bind RelationDef.foreignKey? = some r := hkey
      simp only [foreignKeysFrom, hrelation, FieldDef.keys, List.filterMap_cons, hkey, Option.map_some,
        List.mapIdx_cons, ih]
      simp [foreignKeyOf, Nat.add_assoc, Nat.add_comm 1]

/-- The foreign keys of a table are those of the stored keys among the fields of its class. -/
lemma foreignKeys_tableOf (enums : List EnumValues) (moduleName table : String) (managed : Bool)
    (fields : List FieldDef) (indexes : List IndexDef) :
    (tableOf enums moduleName table managed fields indexes).foreignKeys =
      ((FieldDef.keys fields).filter (·.1.shouldPersist)).mapIdx (foreignKeyOf table) := by
  simp only [tableOf, foreignKeysFrom_eq, FieldDef.keys_filter, Nat.zero_add]

/-! ### The tables of all modules -/

/-- The table of a definition is that of its fields and indexes. -/
lemma ModelDef.table?_eq_some {m : ModelDef} {enums : List EnumValues} {moduleName : String} {t : Table}
    (h : m.table? enums moduleName = some t) :
    m.tableName? = some t.name ∧
      ∃ managed, t = tableOf enums moduleName t.name managed m.fields m.indexes := by
  obtain ⟨header, body⟩ := m
  cases body with
  | «class» table managed fields indexes =>
    cases table with
    | none => cases h
    | some table =>
      cases h
      exact ⟨rfl, managed, rfl⟩
  | exception | enum => cases h

lemma ModelDef.exists_table? {m : ModelDef} {table : String} (h : m.tableName? = some table)
    (enums : List EnumValues) (moduleName : String) :
    ∃ managed, m.table? enums moduleName = some (tableOf enums moduleName table managed m.fields m.indexes) := by
  obtain ⟨header, body⟩ := m
  cases body with
  | «class» table' managed fields indexes =>
    obtain rfl : table' = some table := h
    exact ⟨managed, rfl⟩
  | exception | enum => cases h

namespace Compilation

/-- The modules other than one. -/
def others (c : Compilation) (p : ProtocolDef) : List ProtocolDef :=
  c.modules.filter (·.moduleAlias != p.moduleAlias)

/-- The tables of all modules; for each of them the other ones are at hand. -/
def tables (c : Compilation) : List Table :=
  c.modules.flatMap fun p => p.tables (c.others p)

lemma mem_tables {c : Compilation} {t : Table} :
    t ∈ c.tables ↔ ∃ p ∈ c.modules, ∃ m ∈ p.models,
      m.table? (enumsOf (p :: c.others p)) p.moduleName = some t := by
  simp [tables, ProtocolDef.tables]

/-- The table of a class after all passes. -/
structure TableOf (index : EntityIndex) (owner : TableClass) (enums : List EnumValues) (t : Table) :
    Prop where
  belongs : owner.Belongs index
  eq : ∃ moduleName managed, t = tableOf enums moduleName owner.table managed
    (finished index owner.position owner.entity).toDefinition.fields
    (finished index owner.position owner.entity).toDefinition.indexes

section Tables

variable {project : ModuleSource} {dependencies : List ModuleSource} {given : List Diagnostic}

/-- The table of a definition is the table of a class. -/
lemma exists_tableOf (h : Accepted project dependencies) {p : ProtocolDef}
    (hp : p ∈ (compile project dependencies given).modules) {m : ModelDef} (hm : m ∈ p.models)
    {enums : List EnumValues} {t : Table} (ht : m.table? enums p.moduleName = some t) :
    ∃ owner, TableOf (declarations project dependencies).typed owner enums t ∧
      m = (finished (declarations project dependencies).typed owner.position owner.entity).toDefinition ∧
        t.name = owner.table := by
  obtain ⟨i, e, he, rfl⟩ := (mem_models_iff h).mp (List.mem_flatMap.mpr ⟨p, hp, hm⟩)
  obtain ⟨htable, managed, heq⟩ := ModelDef.table?_eq_some ht
  rw [Entity.tableName?_toDefinition, table?_finished] at htable
  exact ⟨⟨i, e, t.name⟩, ⟨⟨he, htable⟩, p.moduleName, managed, heq⟩, rfl, rfl⟩

/-- Every class with a table has its table. -/
lemma exists_mem_tables (given : List Diagnostic) (h : Accepted project dependencies) {owner : TableClass}
    (howner : owner.Belongs (declarations project dependencies).typed) :
    ∃ t ∈ (compile project dependencies given).tables, t.name = owner.table ∧
      ∃ enums, TableOf (declarations project dependencies).typed owner enums t := by
  have hmodel : (finished (declarations project dependencies).typed owner.position owner.entity).toDefinition ∈
      (compile project dependencies given).models := (mem_models_iff h).mpr ⟨_, _, howner.entity, rfl⟩
  obtain ⟨p, hp, hm⟩ := List.mem_flatMap.mp hmodel
  have htable : (finished (declarations project dependencies).typed owner.position
      owner.entity).toDefinition.tableName? = some owner.table := by
    simpa using howner.table
  obtain ⟨managed, ht⟩ := ModelDef.exists_table? htable
    (enumsOf (p :: (compile project dependencies given).others p)) p.moduleName
  exact ⟨_, mem_tables.mpr ⟨p, hp, _, hm, ht⟩, rfl, _, howner, _, _, rfl⟩

end Tables

/-! ### Columns -/

section Columns

variable {index : EntityIndex} {owner : TableClass} {enums : List EnumValues} {t : Table}

/-- The columns of a table are those of the stored fields of its class. -/
lemma TableOf.column?_eq (h : TableOf index owner enums t) (name : String) :
    t.column? name =
      ((((visited index).1.fieldsAt owner.position).filter (·.shouldPersist)).find? (·.name == name)).map
        fun d => columnOf enums owner.table d.toDefinition := by
  obtain ⟨moduleName, managed, rfl⟩ := h.eq
  have hsome : owner.entity.table?.isSome := by rw [h.belongs.table]; rfl
  rw [Table.column?, tableOf, Entity.fields_toDefinition, fields_finished hsome, List.filter_map,
    List.map_map, List.find?_map]
  rfl

/-- A stored field that is not shadowed has its column. -/
lemma TableOf.column?_of_stored (h : TableOf index owner enums t) {P : FieldDraft → Prop}
    (hP : FieldDraft.Shadowed P ((visited index).1.fieldsAt owner.position))
    {d : FieldDraft} (hd : d ∈ (visited index).1.fieldsAt owner.position) (hd' : ¬ P d)
    (hstored : d.shouldPersist = true) :
    t.column? d.name = some (columnOf enums owner.table d.toDefinition) := by
  rw [h.column?_eq, (hP.filter _).find?_eq (List.mem_filter.mpr ⟨hd, hstored⟩) hd', Option.map_some]

/-- There is a column with a name just if there is a stored field with this name. -/
lemma TableOf.isSome_column? (h : TableOf index owner enums t) (name : String) :
    (t.column? name).isSome ↔
      ∃ d ∈ (visited index).1.fieldsAt owner.position, d.name = name ∧ d.shouldPersist = true := by
  rw [h.column?_eq, Option.isSome_map, List.find?_isSome]
  constructor
  · rintro ⟨d, hd, hname⟩
    obtain ⟨hd, hstored⟩ := List.mem_filter.mp hd
    exact ⟨d, hd, by simpa using hname, hstored⟩
  · rintro ⟨d, hd, hname, hstored⟩
    exact ⟨d, List.mem_filter.mpr ⟨hd, hstored⟩, by simpa using hname⟩

/-- What a kept index lists is a column. -/
lemma TableOf.isSome_column?_of_index (h : TableOf index owner enums t) (hunchecked : owner.entity.Unchecked)
    {i : IndexDef} (hi : i ∈ (finished index owner.position owner.entity).toDefinition.indexes) {name : String}
    (hname : name ∈ i.fields) : (t.column? name).isSome := by
  obtain ⟨f, hfind, hstored⟩ := stored_of_mem_indexes (by rw [h.belongs.table]; rfl) hunchecked hi hname
  exact (h.isSome_column? name).mpr ⟨f, List.mem_of_find?_eq_some hfind, FieldDraft.name_of_find? hfind, hstored⟩

end Columns

/-! ### Foreign keys -/

section ForeignKeys

variable {project : ModuleSource} {dependencies : List ModuleSource} {given : List Diagnostic}

/-- The column of a field with a relation. -/
lemma TableOf.column?_of_relation (h : Accepted project dependencies) {owner : TableClass}
    {enums : List EnumValues} {t : Table}
    (ht : TableOf (declarations project dependencies).typed owner enums t) {d : FieldDraft}
    (hd : d ∈ (visited (declarations project dependencies).typed).1.fieldsAt owner.position)
    (hrelation : d.relation ≠ none) (hstored : d.shouldPersist = true) :
    t.column? d.name = some (columnOf enums owner.table d.toDefinition) :=
  ht.column?_of_stored
    ((consistent_visited h.typed).relationsLead h.typed owner.position) hd hrelation hstored

/-- A key of a definition is a field of the workspace. -/
lemma exists_of_mem_keys {index : EntityIndex} {i : Nat} {e : Entity} {k : FieldDef × ForeignKeyRelation}
    (hk : k ∈ FieldDef.keys (finished index i e).toDefinition.fields) :
    ∃ d ∈ (visited index).1.fieldsAt i, k.1 = d.toDefinition ∧ d.relation = some (.foreignKey k.2) := by
  obtain ⟨hmem, hrelation⟩ := FieldDef.mem_keys.mp hk
  obtain ⟨d, hd, heq⟩ := mem_fields_finished hmem
  refine ⟨d, hd, heq, ?_⟩
  rw [heq] at hrelation
  exact hrelation

/-- A table has the stored keys among the fields of its class. -/
lemma TableOf.hasKeys (h : Accepted project dependencies) {owner : TableClass}
    {enums : List EnumValues} {t : Table}
    (ht : TableOf (declarations project dependencies).typed owner enums t) :
    t.HasKeys enums ((FieldDef.keys (finished (declarations project dependencies).typed owner.position
      owner.entity).toDefinition.fields).filter (·.1.shouldPersist)) := by
  obtain ⟨moduleName, managed, heq⟩ := ht.eq
  have hname : t.name = owner.table := by rw [heq]; rfl
  constructor
  · rw [heq]
    exact foreignKeys_tableOf _ _ _ _ _ _
  · intro k hk
    obtain ⟨hkey, hstored⟩ := List.mem_filter.mp hk
    obtain ⟨d, hd, hkd, hr⟩ := exists_of_mem_keys hkey
    rw [hkd] at hstored ⊢
    rw [hname]
    exact ht.column?_of_relation h hd (by rw [hr]; exact Option.some_ne_none _) hstored

/-- In a compilation without errors every class with a table has a table with the keys among its fields that
are stored.  These are all keys just if every key is stored, and a key that is not stored is a declared field
with an annotation that keeps it out of the table. -/
theorem foreignKeys_compile (hno : (compile project dependencies given).hasErrors = false) :
    ∀ p ∈ (compile project dependencies given).modules, ∀ m ∈ p.models, m.tableName?.isSome → ∀ others,
      ∃ t ∈ p.tables others, m.tableName? = some t.name ∧
        t.HasKeys (enumsOf (p :: others)) ((FieldDef.keys m.fields).filter (·.1.shouldPersist)) ∧
        (t.HasKeys (enumsOf (p :: others)) (FieldDef.keys m.fields) ↔
          ∀ k ∈ FieldDef.keys m.fields, k.1.shouldPersist = true) ∧
        ∀ k ∈ FieldDef.keys m.fields, k.1.shouldPersist = false →
          k.1.origin = .declared ∧ (declarations project dependencies).DeclaresUnstored m k.1.name := by
  intro p hp m hm hsome others
  have h := accepted_of_hasErrors hno
  obtain ⟨table, htable⟩ := Option.isSome_iff_exists.mp hsome
  obtain ⟨managed, ht⟩ := ModelDef.exists_table? htable (enumsOf (p :: others)) p.moduleName
  obtain ⟨owner, hof, rfl, -⟩ := exists_tableOf h hp hm ht
  have hstored := hof.hasKeys h
  refine ⟨_, List.mem_filterMap.mpr ⟨_, hm, ht⟩, htable, hstored, ⟨?_, ?_⟩, ?_⟩
  · intro hall
    -- The table has as many foreign keys as there are stored keys.
    have hlength := congrArg List.length (hstored.foreignKeys.symm.trans hall.foreignKeys)
    rw [List.length_mapIdx, List.length_mapIdx] at hlength
    exact List.length_filter_eq_length_iff.mp hlength
  · intro hall
    rwa [List.filter_eq_self.mpr hall] at hstored
  · intro k hk hunstored
    obtain ⟨d, hd, hkd, hr⟩ := exists_of_mem_keys hk
    have hadmissible := (consistent_visited h.typed).fields _ d hd
    rw [hkd] at hunstored ⊢
    exact h.declaresUnstored hof.belongs.entity (by rw [hof.belongs.table]; rfl) hd
      ((hadmissible.key _ hr).category_eq h.typed) hunstored

/-- Notes that refer to a previous one, with a key that is kept out of their table. -/
def notes : ModuleSource :=
  sampleModule "notes"
    ["class: Note", "table: note", "fields:", "  previous: int?, !persist, relation(parent=note)"]

/-- The key of an employee's lead is a foreign key, but not that of a note that is not stored. -/
theorem foreignKeys_compile_staff :
    (∃ p ∈ (compile staff [] []).modules, ∃ m ∈ p.models, (FieldDef.keys m.fields).length = 1 ∧
      ∃ t ∈ p.tables [], t.HasKeys (enumsOf [p]) (FieldDef.keys m.fields)) ∧
    ∃ p ∈ (compile notes [] []).modules, ∃ m ∈ p.models,
      ∃ t ∈ p.tables [], ¬ t.HasKeys (enumsOf [p]) (FieldDef.keys m.fields) := by
  constructor
  · obtain ⟨p, hp, m, hm, htable, hlength, hstored⟩ : ∃ p ∈ (compile staff [] []).modules, ∃ m ∈ p.models,
        m.tableName?.isSome ∧ (FieldDef.keys m.fields).length = 1 ∧
          ∀ k ∈ FieldDef.keys m.fields, k.1.shouldPersist = true := by
      decide +kernel
    obtain ⟨t, ht, -, -, hall, -⟩ := foreignKeys_compile hasErrors_staff p hp m hm htable []
    exact ⟨p, hp, m, hm, hlength, t, ht, hall.mpr hstored⟩
  · have hno : (compile notes [] []).hasErrors = false := by decide +kernel
    obtain ⟨p, hp, m, hm, htable, hunstored⟩ : ∃ p ∈ (compile notes [] []).modules, ∃ m ∈ p.models,
        m.tableName?.isSome ∧ ¬ ∀ k ∈ FieldDef.keys m.fields, k.1.shouldPersist = true := by
      decide +kernel
    obtain ⟨t, ht, -, -, hall, -⟩ := foreignKeys_compile hno p hp m hm htable []
    exact ⟨p, hp, m, hm, t, ht, fun hkeys => hunstored (hall.mp hkeys)⟩

end ForeignKeys

end Compilation

/-! ### Closed schemas -/

/-- A column of a table refers to a column of another one that has its type. -/
def Table.Refers (t t' : Table) (column column' : String) : Prop :=
  ∃ c c', t.column? column = some c ∧ t'.column? column' = some c' ∧ c.columnType = c'.columnType

/-- Tables whose indexes list their columns, and whose foreign keys refer to columns that are there, of the
same type. -/
structure Table.Closed (ts : List Table) : Prop where
  indexes : ∀ t ∈ ts, ∀ i ∈ t.indexes, ∀ name ∈ i.elements, (t.column? name).isSome
  foreignKeys : ∀ t ∈ ts, ∀ k ∈ t.foreignKeys, ∃ t' ∈ ts, t'.name = k.referenceTable ∧
    List.Forall₂ (t.Refers t') k.columns k.referenceColumns

/-- The column type does not depend on whether null is allowed. -/
lemma TypeDef.columnType_withNullable (t : TypeDef) (nullable : Bool) :
    (t.withNullable nullable).columnType = t.columnType := rfl

namespace Compilation

/-- The primary key of a class is stored. -/
def IdStored (m : ModelDef) : Prop :=
  ∃ id ∈ m.field? "id", id.shouldPersist = true

instance (m : ModelDef) : Decidable (IdStored m) :=
  inferInstanceAs (Decidable (∃ id ∈ m.field? "id", _))

section Closed

variable {project : ModuleSource} {dependencies : List ModuleSource} {given : List Diagnostic}

/-- The primary key of a class that fields refer to, in its definition. -/
lemma Accepted.exists_id (h : Accepted project dependencies) {owner : TableClass}
    (howner : owner.Belongs (declarations project dependencies).typed) :
    ∃ id, (visited (declarations project dependencies).typed).1.find? owner.position "id" = some id ∧
      id.type.category = .scalar ∧
      (finished (declarations project dependencies).typed owner.position
        owner.entity).toDefinition.field? "id" = some id.toDefinition := by
  obtain ⟨id, hid, -⟩ := h.typed.exists_id howner
  obtain ⟨id', hid', htype⟩ := (consistent_visited h.typed).keeps _ _ _ hid
  refine ⟨id', hid', ?_, ?_⟩
  · rw [htype]
    exact h.typed.category_of_find? howner hid
  · rw [field?_finished (by rw [howner.table]; rfl), hid', Option.map_some]

/-- A table has a column for the primary key just if this is stored. -/
lemma TableOf.isSome_id_iff (h : Accepted project dependencies) {owner : TableClass}
    {enums : List EnumValues} {t : Table}
    (ht : TableOf (declarations project dependencies).typed owner enums t) :
    (t.column? "id").isSome ↔
      IdStored (finished (declarations project dependencies).typed owner.position
        owner.entity).toDefinition := by
  have hliteral : "id" ∉ literalNames := by decide
  obtain ⟨id, hfind, -, hfield⟩ := h.exists_id ht.belongs
  rw [ht.isSome_column?, IdStored, hfield]
  constructor
  · rintro ⟨d, hd, hname, hstored⟩
    -- No other field is named like the primary key.
    have hd' : (visited (declarations project dependencies).typed).1.find? owner.position d.name = some d :=
      (h.namesApart owner.position).find?_eq hd (by rw [hname]; exact hliteral)
    rw [hname, hfind] at hd'
    obtain rfl := Option.some.inj hd'
    exact ⟨_, rfl, hstored⟩
  · rintro ⟨g, hg, hstored⟩
    obtain rfl := Option.some.inj hg
    exact ⟨id, Workspace.mem_of_find? hfind, Workspace.name_of_find? hfind, hstored⟩

/-- The column of a stored primary key. -/
lemma TableOf.column?_id (h : Accepted project dependencies) {owner : TableClass}
    {enums : List EnumValues} {t : Table}
    (ht : TableOf (declarations project dependencies).typed owner enums t) {id : FieldDraft}
    (hid : (visited (declarations project dependencies).typed).1.find? owner.position "id" = some id)
    (hstored : id.shouldPersist = true) :
    t.column? "id" = some (columnOf enums owner.table id.toDefinition) := by
  have hname : id.name = "id" := Workspace.name_of_find? hid
  have hliteral : id.name ∉ literalNames := by
    rw [hname]
    decide
  rw [← hname]
  exact ht.column?_of_stored (h.namesApart owner.position) (Workspace.mem_of_find? hid) hliteral hstored

/-- The indexes of a table whose primary key is stored list columns. -/
lemma TableOf.isSome_element (h : Accepted project dependencies) {owner : TableClass}
    {enums : List EnumValues} {t : Table}
    (ht : TableOf (declarations project dependencies).typed owner enums t)
    (hid : IdStored (finished (declarations project dependencies).typed owner.position
      owner.entity).toDefinition) {i : TableIndex} (hi : i ∈ t.indexes) {name : String}
    (hname : name ∈ i.elements) : (t.column? name).isSome := by
  obtain ⟨moduleName, managed, heq⟩ := ht.eq
  have hi' := hi
  rw [heq] at hi'
  rcases List.mem_cons.mp hi' with rfl | hi'
  · obtain rfl : name = "id" := List.mem_singleton.mp hname
    exact (ht.isSome_id_iff h).mpr hid
  · obtain ⟨d, hd, rfl⟩ := List.mem_map.mp hi'
    exact ht.isSome_column?_of_index (h.unchecked ht.belongs.entity) hd hname

/-- A foreign key of a table refers to a table, and to a column of the same type if the primary key of that
table is stored. -/
lemma TableOf.refers (h : Accepted project dependencies) {owner : TableClass}
    {enums : List EnumValues} {t : Table}
    (ht : TableOf (declarations project dependencies).typed owner enums t)
    (hids : ∀ m ∈ (compile project dependencies given).models, m.tableName?.isSome → IdStored m)
    {k : ForeignKey} (hk : k ∈ t.foreignKeys) :
    ∃ t' ∈ (compile project dependencies given).tables, t'.name = k.referenceTable ∧
      List.Forall₂ (t.Refers t') k.columns k.referenceColumns := by
  obtain ⟨moduleName, managed, heq⟩ := ht.eq
  rw [heq, foreignKeys_tableOf] at hk
  obtain ⟨i, hi, rfl⟩ := List.mem_mapIdx.mp hk
  obtain ⟨hkey, hstored⟩ := List.mem_filter.mp (List.getElem_mem hi)
  generalize ((FieldDef.keys _).filter _)[i] = key at hkey hstored ⊢
  obtain ⟨d, hd, hkd, hr⟩ := exists_of_mem_keys hkey
  obtain ⟨href, parent, hparent, htable, id, hfind, htype⟩ :=
    RelationResolution.foreignKey_typed h.typed hd hr
  obtain ⟨t', ht', hname, enums', hof⟩ := exists_mem_tables given h hparent
  obtain ⟨id', hfind', -, hfield⟩ := h.exists_id hparent
  obtain rfl := Option.some.inj (hfind.symm.trans hfind')
  obtain ⟨_, hid, hidStored⟩ := hids _ ((mem_models_iff h).mpr ⟨_, _, hparent.entity, rfl⟩)
    (by simp [hparent.table])
  obtain rfl := Option.some.inj (hfield.symm.trans hid)
  refine ⟨t', ht', hname.trans htable.symm, List.Forall₂.cons ?_ List.Forall₂.nil⟩
  rw [hkd] at hstored ⊢
  rw [href]
  refine ⟨_, _, ht.column?_of_relation h hd (by rw [hr]; exact Option.some_ne_none _) hstored,
    hof.column?_id h hfind hidStored, ?_⟩
  have hcolumn := congrArg TypeDef.columnType htype
  rwa [TypeDef.columnType_withNullable, TypeDef.columnType_withNullable] at hcolumn

/-- In a compilation without errors the tables are closed just if the primary key of every class with a table
is stored; and a primary key that is not stored is a declared field with an annotation that keeps it out of
the table. -/
theorem closed_compile (hno : (compile project dependencies given).hasErrors = false) :
    (Table.Closed (compile project dependencies given).tables ↔
        ∀ m ∈ (compile project dependencies given).models, m.tableName?.isSome → IdStored m) ∧
      ∀ m ∈ (compile project dependencies given).models, m.tableName?.isSome → ¬ IdStored m →
        (declarations project dependencies).DeclaresUnstored m "id" := by
  have h := accepted_of_hasErrors hno
  refine ⟨⟨?_, ?_⟩, ?_⟩
  · intro hclosed m hm hsome
    obtain ⟨i, e, he, rfl⟩ := (mem_models_iff h).mp hm
    obtain ⟨table, htable⟩ := Option.isSome_iff_exists.mp hsome
    rw [Entity.tableName?_toDefinition, table?_finished] at htable
    have howner : TableClass.Belongs (declarations project dependencies).typed ⟨i, e, table⟩ := ⟨he, htable⟩
    obtain ⟨t, ht, -, enums, hof⟩ := exists_mem_tables given h howner
    refine (hof.isSome_id_iff h).mp (hclosed.indexes t ht (primaryIndex table) ?_ "id" List.mem_cons_self)
    obtain ⟨moduleName, managed, rfl⟩ := hof.eq
    exact List.mem_cons_self
  · intro hids
    constructor
    · intro t ht i hi name hname
      obtain ⟨p, hp, m, hm, ht⟩ := mem_tables.mp ht
      obtain ⟨owner, hof, rfl, -⟩ := exists_tableOf h hp hm ht
      refine hof.isSome_element h (hids _ (List.mem_flatMap.mpr ⟨p, hp, hm⟩) ?_) hi hname
      simp [hof.belongs.table]
    · intro t ht k hk
      obtain ⟨p, hp, m, hm, ht⟩ := mem_tables.mp ht
      obtain ⟨owner, hof, rfl, -⟩ := exists_tableOf h hp hm ht
      exact hof.refers h hids hk
  · intro m hm hsome hunstored
    obtain ⟨i, e, he, rfl⟩ := (mem_models_iff h).mp hm
    obtain ⟨table, htable⟩ := Option.isSome_iff_exists.mp hsome
    rw [Entity.tableName?_toDefinition, table?_finished] at htable
    have howner : TableClass.Belongs (declarations project dependencies).typed ⟨i, e, table⟩ := ⟨he, htable⟩
    obtain ⟨id, hfind, hscalar, hfield⟩ := h.exists_id howner
    have hstored : id.shouldPersist = false := by
      by_contra hstored
      exact hunstored ⟨_, hfield, Bool.of_not_eq_false hstored⟩
    have hname : id.name = "id" := Workspace.name_of_find? hfind
    rw [← hname]
    exact (h.declaresUnstored he (by rw [htable]; rfl) (Workspace.mem_of_find? hfind) hscalar hstored).2

/-- Items whose primary key is kept out of their table. -/
def items : ModuleSource :=
  sampleModule "items" ["class: Item", "table: item", "fields:", "  id: int, !persist"]

/-- The table of the employees is closed, but not that of the items. -/
theorem closed_compile_staff :
    Table.Closed (compile staff [] []).tables ∧ ¬ Table.Closed (compile items [] []).tables := by
  have hids : ∀ m ∈ (compile staff [] []).models, m.tableName?.isSome → IdStored m := by decide +kernel
  have hno : (compile items [] []).hasErrors = false := by decide +kernel
  have hunstored : ¬ ∀ m ∈ (compile items [] []).models, m.tableName?.isSome → IdStored m := by decide +kernel
  exact ⟨(closed_compile hasErrors_staff).1.mpr hids, fun hclosed => hunstored ((closed_compile hno).1.mp hclosed)⟩

end Closed

end Compilation

end EntitySchema
