import Mathlib.Data.List.Basic
import Mathlib.Tactic.Common
import EntitySchema.Proofs.Relations.Keys
import EntitySchema.Proofs.Tables

/-!
# Keys that are set to null

A key whose row is set to null when the row that it refers to is deleted has a type that allows null
(`NullableKeys`): every way to link a key checks this or adds a nullable key (`Link.allNullable`), and no
change of a link gives a field another type, so it holds when all relations have been resolved
(`nullableKeys_visited`).  Nothing is checked about keys that are set to null when the key that they refer to
is changed, and the column of a primary key is never null.  So a foreign key that is set to null has a nullable
column just if it is not the primary key and, unless it is set to null on deletion, its field happens to be
nullable (`setNull_compile`).
-/

namespace EntitySchema

namespace RelationResolution

/-- Keys that are set to null on deletion are nullable. -/
def NullableKeys (w : Workspace) : Prop :=
  ∀ i, ∀ f ∈ w.fieldsAt i, ∀ r, f.relation = some (.foreignKey r) → r.onDelete = .setNull →
    f.type.nullable = true

/-- A change that makes or adds only keys that are nullable if they are set to null on deletion. -/
structure MakesNullable (w : Workspace) (c : Change) : Prop where
  relate : ∀ i n r d, c = .relate i n (.foreignKey r) → r.onDelete = .setNull → w.find? i n = some d →
    d.type.nullable = true
  key : ∀ k r, c.key? = some k → k.relation = some (.foreignKey r) → r.onDelete = .setNull →
    k.type.nullable = true

/-- Changes each of which is so when it is made. -/
def AllNullable : Workspace → List Change → Prop
  | _, [] => True
  | w, c :: cs => MakesNullable w c ∧ AllNullable (w.apply c) cs

lemma nullableKeys_apply {w : Workspace} {c : Change} (hw : NullableKeys w) (hc : MakesNullable w c) :
    NullableKeys (w.apply c) := by
  intro i f hf r hr hdelete
  rcases Workspace.mem_fieldsAt_apply hf with hf | ⟨d, r', hd, rfl, rfl⟩ | ⟨-, hk⟩
  · exact hw i f hf r hr hdelete
  · obtain rfl : r' = .foreignKey r := Option.some.inj hr
    exact hc.relate i d.name r d rfl hdelete hd
  · exact hc.key f r hk hr hdelete

lemma nullableKeys_applyAll {w : Workspace} {cs : List Change} (hw : NullableKeys w)
    (hcs : AllNullable w cs) : NullableKeys (w.applyAll cs) := by
  induction cs generalizing w with
  | nil => exact hw
  | cons c cs ih => exact ih (nullableKeys_apply hw hcs.1) hcs.2

/-! ### Links -/

/-- Relating a field to a row that may be set to null needs a nullable field. -/
lemma makesNullable_relate {w : Workspace} {i : Nat} {n : String} {r : ForeignKeyRelation} {d : FieldDraft}
    (hd : w.find? i n = some d) (hnull : r.onDelete = .setNull → d.type.nullable = true) :
    MakesNullable w (.relate i n (.foreignKey r)) where
  relate i' n' r' d' h hdelete hd' := by
    cases h
    rw [hd] at hd'
    cases hd'
    exact hnull hdelete
  key k r' hk := by cases hk

/-- A relation that is no key needs nothing. -/
lemma makesNullable_holder (w : Workspace) (i : Nat) (n : String) {r : RelationDef}
    (hr : r.foreignKey? = none) : MakesNullable w (.relate i n r) where
  relate i' n' r' d h := by
    cases h
    cases hr
  key k r' hk := by cases hk

/-- A key that is added has to be nullable itself. -/
lemma makesNullable_add {w : Workspace} {c : Change} {k : FieldDraft} {r : ForeignKeyRelation}
    (hc : c.key? = some k) (hr : k.relation = some (.foreignKey r))
    (hnull : r.onDelete = .setNull → k.type.nullable = true) : MakesNullable w c where
  relate i n r' d h := by
    rw [h] at hc
    cases hc
  key k' r' hk' hr' hdelete := by
    obtain rfl := Option.some.inj (hc.symm.trans hk')
    rw [hr] at hr'
    cases hr'
    exact hnull hdelete

/-- Every way to link a relation makes its key nullable, or has checked that it is. -/
lemma Site.Link.allNullable {s : Site} {cs : List Change} (h : s.Link cs)
    (hfind : s.workspace.find? s.owner.position s.field.name = some s.field) :
    AllNullable s.workspace cs := by
  cases h with
  | nothing => trivial
  | parent _ _ _ _ hnull => exact ⟨makesNullable_relate hfind hnull, trivial⟩
  | ownField _ _ _ hfindKey _ _ _ hnull =>
    exact ⟨makesNullable_relate hfindKey hnull, makesNullable_holder _ _ _ rfl, trivial⟩
  | @ownAdded target =>
    have hadded : (s.keyRelation target).onDelete = .setNull → (s.addedKey target).type.nullable = true := by
      intro hdelete
      have hdelete : s.option.deleteAction = .setNull := hdelete
      simp [addedKey, TypeDef.withNullable, hdelete]
    exact ⟨makesNullable_add rfl rfl hadded, makesNullable_holder _ _ _ rfl, trivial⟩
  | other | listNamed => exact ⟨makesNullable_holder _ _ _ rfl, trivial⟩
  | listHidden =>
    have hhidden : s.hiddenKeyRelation.onDelete = .setNull → s.hiddenKey.type.nullable = true := fun _ => rfl
    exact ⟨makesNullable_add rfl rfl hhidden, makesNullable_holder _ _ _ rfl, trivial⟩

/-! ### All visits -/

variable {index : EntityIndex}

/-- When all relations have been resolved, the keys that are set to null on deletion are nullable. -/
theorem nullableKeys_visited (ht : Typed index) : NullableKeys (visited index).1 := by
  refine visited_induction ht ?_ fun w v hv hw hnull => ?_
  · intro i f hf r hr
    obtain ⟨e, -, he, hfe⟩ := exists_of_mem_fieldsAt hf
    rw [ht.unrelated e he f hfe] at hr
    cases hr
  · have hchanges : AllNullable w (v.site index w).resolve.changes :=
      Site.Link.allNullable (s := v.site index w) (Site.link_resolve _) (hw.find?_site hv)
    exact nullableKeys_applyAll hnull hchanges

end RelationResolution

/-! ### Foreign keys -/

namespace Compilation

variable {project : ModuleSource} {dependencies : List ModuleSource} {given : List Diagnostic}

/-- In a compilation without errors every foreign key of a table has its column, which is that of a key among the
fields of the class.  If it is set to null on deletion, then the column is nullable unless it is that of the
primary key; if it is set to null on an update, then moreover the field has to allow null of its own. -/
theorem setNull_compile (hno : (compile project dependencies given).hasErrors = false) :
    ∀ p ∈ (compile project dependencies given).modules, ∀ m ∈ p.models, ∀ others,
      ∀ t, m.table? (enumsOf (p :: others)) p.moduleName = some t → ∀ k ∈ t.foreignKeys,
        ∃ key ∈ FieldDef.keys m.fields, ∃ c, k.columns = [c.name] ∧ t.column? c.name = some c ∧
          key.1.name = c.name ∧ key.2.onDelete = k.onDelete ∧ key.2.onUpdate = k.onUpdate ∧
          (k.onDelete = .setNull → (c.isNullable = true ↔ c.name ≠ "id")) ∧
          (k.onUpdate = .setNull → (c.isNullable = true ↔ c.name ≠ "id" ∧ key.1.type.nullable = true)) := by
  intro p hp m hm others t ht k hk
  have h := accepted_of_hasErrors hno
  obtain ⟨owner, hof, rfl, hname⟩ := exists_tableOf h hp hm ht
  have hkeys := hof.hasKeys h
  rw [hkeys.foreignKeys] at hk
  obtain ⟨i, hi, rfl⟩ := List.mem_mapIdx.mp hk
  have hmem := List.getElem_mem hi
  generalize ((FieldDef.keys _).filter _)[i] = key at hmem ⊢
  have hcolumn := hkeys.columns key hmem
  have hkey := (List.mem_filter.mp hmem).1
  obtain ⟨d, hd, hkd, hr⟩ := exists_of_mem_keys hkey
  have hdelete : key.2.onDelete = .setNull → key.1.type.nullable = true := by
    rw [hkd]
    exact RelationResolution.nullableKeys_visited h.typed _ d hd key.2 hr
  have hnullable : (columnOf (enumsOf (p :: others)) t.name key.1).isNullable = true ↔
      key.1.name ≠ "id" ∧ key.1.type.nullable = true := by
    simp only [columnOf, Bool.and_eq_true, bne_iff_ne]
  refine ⟨key, hkey, columnOf (enumsOf (p :: others)) t.name key.1, rfl, hcolumn, rfl, rfl, rfl, ?_, ?_⟩
  · intro hset
    rw [hnullable]
    exact and_iff_left (hdelete hset)
  · exact fun _ => hnullable

/-- Tasks with a parent that may be deleted and a previous task whose key may be changed. -/
def tasks : ModuleSource :=
  sampleModule "tasks"
    ["class: Task", "table: task", "fields:",
      "  parent: int?, relation(parent=task, onDelete=SetNull)",
      "  previous: int, relation(parent=task, onUpdate=SetNull)"]

/-- The column of the parent can be set to null, but not that of the previous task. -/
theorem setNull_compile_tasks :
    ∃ p ∈ (compile tasks [] []).modules, ∃ m ∈ p.models, ∃ t ∈ m.table? (enumsOf [p]) p.moduleName,
      (∃ k ∈ t.foreignKeys, k.onDelete = .setNull ∧
        ∃ c, k.columns = [c.name] ∧ t.column? c.name = some c ∧ c.isNullable = true) ∧
      ∃ k ∈ t.foreignKeys, k.onUpdate = .setNull ∧
        ∃ c, k.columns = [c.name] ∧ t.column? c.name = some c ∧ ¬ c.isNullable = true := by
  have hno : (compile tasks [] []).hasErrors = false := by decide +kernel
  obtain ⟨p, hp, m, hm, t, ht, ⟨k, hk, hdelete, hparent⟩, ⟨k', hk', hupdate, hprevious⟩, hrequired⟩ :
      ∃ p ∈ (compile tasks [] []).modules, ∃ m ∈ p.models, ∃ t ∈ m.table? (enumsOf [p]) p.moduleName,
        (∃ k ∈ t.foreignKeys, k.onDelete = .setNull ∧ k.columns = ["parent"]) ∧
        (∃ k ∈ t.foreignKeys, k.onUpdate = .setNull ∧ k.columns = ["previous"]) ∧
          ∀ key ∈ FieldDef.keys m.fields, key.1.name = "previous" → key.1.type.nullable = false := by
    decide +kernel
  refine ⟨p, hp, m, hm, t, ht, ⟨k, hk, hdelete, ?_⟩, ⟨k', hk', hupdate, ?_⟩⟩
  · obtain ⟨key, -, c, hcolumns, hc, -, -, -, hset, -⟩ := setNull_compile hno p hp m hm [] t ht k hk
    have hname : "parent" = c.name := (List.cons.inj (hparent.symm.trans hcolumns)).1
    exact ⟨c, hcolumns, hc, (hset hdelete).mpr (by rw [← hname]; decide)⟩
  · obtain ⟨key, hkey, c, hcolumns, hc, hfield, -, -, -, hset⟩ := setNull_compile hno p hp m hm [] t ht k' hk'
    have hname : "previous" = c.name := (List.cons.inj (hprevious.symm.trans hcolumns)).1
    have hnullable := hrequired key hkey (hfield.trans hname.symm)
    refine ⟨c, hcolumns, hc, fun hcolumn => ?_⟩
    rw [((hset hupdate).mp hcolumn).2] at hnullable
    cases hnullable

end Compilation

end EntitySchema
