import Mathlib.Data.List.Basic
import Mathlib.Tactic.Common
import EntitySchema.Proofs.Relations.Counterparts

/-!
# Relations are linked to keys

What holds of every relation once all visits have been made without an error.  A field that holds an object
has a key in its own class or in the class of the object, never in both (`object_linked`); a field that
holds a list has a key in the class of its elements (`list_linked`); and a key has the type of the primary
key that it refers to (`foreignKey_typed`).  No field that declares a relation is left without one
(`related_of_visit`).
-/

namespace EntitySchema

namespace RelationResolution

/-- The field with a name is a key, with the given property. -/
def HasKey (w : Workspace) (position : Nat) (key : String) (p : ForeignKeyRelation → Prop) : Prop :=
  ∃ k r, w.find? position key = some k ∧ k.relation = some (.foreignKey r) ∧ p r

/-- A field of one class with a table that holds objects of another one. -/
structure Holds (index : EntityIndex) (i : Nat) (f : FieldDraft) (owner target : TableClass) : Prop where
  ownerBelongs : owner.Belongs index
  position_eq : owner.position = i
  targetBelongs : target.Belongs index
  nullable : f.type.nullable = true
  unpersisted : f.shouldPersist = false

section Linked

variable {index : EntityIndex}

/-! ### Where relations come from -/

/-- A relation that is no key has been given to a declared field at the moment of its visit. -/
theorem exists_relate (hp : Prepared index) {i : Nat} {f : FieldDraft} {r : RelationDef}
    (hf : f ∈ (visited index).1.fieldsAt i) (hr : f.relation = some r) (hnone : r.foreignKey? = none) :
    ∃ v ∈ Visit.ofIndex index, ∃ u, MomentOf index v u ∧ v.owner.position = i ∧ f = v.declared.relate r ∧
      .relate i v.declared.name r ∈ (v.site index u).resolve.changes := by
  have hfirst := (consistent_visited hp.toTyped).find?_of_relation hp.toTyped hf hr
  rcases written_runAll hp.ready hf hr with hf | ⟨v, hv, u, m, c, hc, hwrites⟩
  · obtain ⟨e, -, he, hfe⟩ := exists_of_mem_fieldsAt hf
    rw [hp.unrelated e he f hfe] at hr
    cases hr
  · obtain ⟨rfl, hname, hrelate⟩ := (Site.link_resolve _).relate_of_writes hc hr hnone hwrites
    rw [m.site_field] at hname
    rw [← hname] at hrelate hfirst
    -- The declared field with the relation is the one that is found at last, too.
    have hlast := m.find?_relate m.found hrelate
    exact ⟨v, hv, u, m, rfl, Option.some.inj (hfirst.symm.trans hlast), hrelate⟩

/-- Without errors a field that declares a relation has one at last. -/
theorem related_of_visit (hp : Prepared index) (hno : Diagnostic.hasErrors (visited index).2 = false)
    {v : Visit} (hv : v ∈ Visit.ofIndex index) :
    ∃ r, (visited index).1.find? v.owner.position v.declared.name = some (v.declared.relate r) := by
  obtain ⟨u, m⟩ := exists_moment hp.ready v hv
  have hlink := Site.link_resolve (v.site index u)
  obtain ⟨r, hr⟩ := hlink.exists_relate (changes_ne_nil hp hno hv m)
  rw [m.site_field] at hr
  exact ⟨r, m.find?_relate m.found hr⟩

/-! ### The key on the other side -/

/-- The counterpart of a field of a class has a key that refers to the table of the class, unless the
field holds the key itself. -/
lemma Faces.hasKey {v v' : Visit} {g : FieldDraft} (f : Faces index v v' g) (hp : Prepared index)
    (hno : Diagnostic.hasErrors (visited index).2 = false) (hv : v ∈ Visit.ofIndex index)
    (hpoints : g.type.pointsTo v.owner.entity = true)
    (hkey : v.option.field = none ∨ v.declared.type.category ≠ .entity) :
    HasKey (visited index).1 v'.owner.position g.objectKey fun r => r.parentTable = v.owner.table := by
  obtain ⟨u', m'⟩ := exists_moment hp.ready v' f.mem
  have hcategory : v'.declared.type.category = .entity := by
    rw [f.type_eq]
    exact category_of_pointsTo hpoints
  obtain ⟨target, htarget, hside⟩ :=
    m'.object_cases (changes_ne_nil hp hno f.mem m') hcategory
  obtain rfl := f.target_eq hp hv hpoints m' htarget
  rcases hside with ⟨-, k, hk, hrelation⟩ | ⟨h, hother⟩
  · have hname : v'.declared.objectKey = g.objectKey := by
      rw [FieldDraft.objectKey, FieldDraft.objectKey, f.name_eq,
        FieldDraft.keyFieldName?_of_optioned? f.optioned]
    rw [m'.ownKeyName_eq f.mem, hname] at hk
    exact ⟨k, _, hk, hrelation, rfl⟩
  · -- The field would name the key, and hold an object.
    obtain ⟨-, hsome, hpoints'⟩ := f.keySide_other hv m' hother
    rcases hkey with hnone | hne
    · simp [hnone] at hsome
    · exact absurd (category_of_pointsTo hpoints') hne

/-- A counterpart with the table of a field as its parent is a key that refers to this table. -/
lemma Faces.hasKey_of_parent {v v' : Visit} {g : FieldDraft} (f : Faces index v v' g) (hp : Prepared index)
    (hno : Diagnostic.hasErrors (visited index).2 = false)
    (hparent : (g.relationOption.bind (·.parent)).any (·.value == v.owner.table) = true) :
    HasKey (visited index).1 v'.owner.position g.name fun r => r.parentTable = v.owner.table := by
  obtain ⟨u', m'⟩ := exists_moment hp.ready v' f.mem
  obtain ⟨p, hp', hvalue⟩ : ∃ p, v'.option.parent = some p ∧ p.value = v.owner.table := by
    rw [f.option_eq, Option.bind_some, Option.any_eq_true] at hparent
    simpa using hparent
  obtain ⟨-, -, hkey⟩ := m'.parent_cases (changes_ne_nil hp hno f.mem m') hp'
  rw [f.name_eq] at hkey
  exact ⟨_, (v'.site index u').parentRelation p.value, hkey, rfl, hvalue⟩

/-! ### Linked relations -/

/-- The field of an object or list relation is nullable and not stored. -/
lemma Moment.holds (hp : Prepared index) (hno : Diagnostic.hasErrors (visited index).2 = false) {v : Visit}
    (hv : v ∈ Visit.ofIndex index) {u : Workspace} (m : MomentOf index v u) {r : RelationDef}
    (hr : r.foreignKey? = none) (hparent : v.option.parent = none) {target : TableClass}
    (htarget : target.Belongs index) :
    Holds index v.owner.position (v.declared.relate r) v.owner target where
  ownerBelongs := Visit.belongs hv
  position_eq := rfl
  targetBelongs := htarget
  nullable := by
    have hunresolved : (v.site index u).field.type.containsUnresolved = false := by
      rw [m.site_field]
      exact TypeDef.containsUnresolved_eq_false (hp.wellFormed hv)
    have hnullable := Site.nullable_of_issues_eq_nil (m.silent hno) hunresolved hparent
    rw [m.site_field] at hnullable
    exact hnullable
  unpersisted := by simp [FieldDraft.relate, hr]

/-- Without errors an object relation has one of two keys: a field of its own class that refers to the
target and belongs to the relation, or a field of the target that refers to the own class. -/
theorem object_linked (hp : Prepared index) (hno : Diagnostic.hasErrors (visited index).2 = false)
    {i : Nat} {f : FieldDraft} {r : ObjectRelation} (hf : f ∈ (visited index).1.fieldsAt i)
    (hr : f.relation = some (.object r)) :
    ∃ owner target, Holds index i f owner target ∧ r.targetClass = target.entity.className ∧
      r.targetModuleAlias = target.entity.moduleAlias ∧ r.targetTable = target.table ∧
      ((∃ key, r.foreignKeyField = some key ∧ r.targetForeignKeyField = none ∧
          HasKey (visited index).1 i key fun k =>
            k.parentTable = target.table ∧ k.referencedField = "id" ∧ k.relationField = some f.name ∧
              k.relationFieldOwner = some owner.entity.className) ∨
        (∃ key, r.foreignKeyField = none ∧ r.targetForeignKeyField = some key ∧
          HasKey (visited index).1 target.position key fun k => k.parentTable = owner.table)) := by
  obtain ⟨v, hv, u, m, rfl, rfl, hrelate⟩ := exists_relate hp hf hr rfl
  obtain ⟨target, htarget, hside⟩ := (Site.link_resolve _).object_of_mem hrelate
  have hbelongs := (htarget.resolved hp hv m).1
  refine ⟨v.owner, target, m.holds hp hno hv rfl htarget.noParent hbelongs, ?_⟩
  rcases hside with ⟨hown, rfl⟩ | ⟨g, hother, rfl⟩
  · refine ⟨rfl, rfl, rfl, Or.inl ⟨(v.site index u).ownKeyName, rfl, rfl, ?_⟩⟩
    have hcategory : v.declared.type.category = .entity := by
      rw [← m.site_field]
      exact htarget.category
    obtain ⟨target', htarget', hside⟩ := m.object_cases (changes_ne_nil hp hno hv m) hcategory
    obtain rfl : target' = target :=
      Except.ok.inj (htarget'.tableClass.symm.trans htarget.tableClass)
    rcases hside with ⟨-, k, hk, hrelation⟩ | ⟨g, hother⟩
    · refine ⟨k, _, hk, hrelation, rfl, rfl, ?_, rfl⟩
      rw [← m.site_field]
      rfl
    · rw [hown] at hother
      cases hother
  · refine ⟨rfl, rfl, rfl, Or.inr ⟨g.objectKey, rfl, rfl, ?_⟩⟩
    obtain ⟨name, hname', hcounterpart, hpoints, hnone, -⟩ := Site.keySide_eq_other_iff.mp hother
    obtain ⟨v', rfl, faces⟩ := exists_counterpart hv m hbelongs hname' hcounterpart
    exact faces.hasKey hp hno hv hpoints (Or.inl hnone)

/-- Without errors a list relation has a key: a field of the target that refers to the own class. -/
theorem list_linked (hp : Prepared index) (hno : Diagnostic.hasErrors (visited index).2 = false)
    {i : Nat} {f : FieldDraft} {r : ListRelation} (hf : f ∈ (visited index).1.fieldsAt i)
    (hr : f.relation = some (.list r)) :
    ∃ owner target, Holds index i f owner target ∧ r.targetClass = target.entity.className ∧
      r.targetModuleAlias = target.entity.moduleAlias ∧ r.targetTable = target.table ∧
      HasKey (visited index).1 target.position r.foreignKeyField fun k => k.parentTable = owner.table := by
  obtain ⟨v, hv, u, m, rfl, rfl, hrelate⟩ := exists_relate hp hf hr rfl
  obtain ⟨t, target, htarget, hside⟩ := (Site.link_resolve _).list_of_mem hrelate
  have hbelongs := (htarget.resolved hp hv m).1
  refine ⟨v.owner, target, m.holds hp hno hv rfl htarget.noParent hbelongs, ?_⟩
  rcases hside with ⟨name, key, hname', hkey, rfl⟩ | ⟨happend, rfl⟩
  · refine ⟨rfl, rfl, rfl, ?_⟩
    obtain ⟨g, hcounterpart, hg⟩ := Site.counterpartKey_eq_ok_iff.mp hkey
    obtain ⟨v', rfl, faces⟩ := exists_counterpart hv m hbelongs hname' hcounterpart
    have hlist : v.declared.type.category ≠ .entity := by
      rw [← m.site_field]
      exact htarget.category_ne
    rcases hg with ⟨hpoints, rfl⟩ | ⟨-, hparent, rfl⟩
    · exact faces.hasKey hp hno hv hpoints (Or.inr hlist)
    · exact faces.hasKey_of_parent hp hno hparent
  · refine ⟨rfl, rfl, rfl, (v.site index u).hiddenKey, _, ?_, rfl, rfl⟩
    exact m.find?_key happend rfl rfl

/-- Without errors exactly one of two fields that hold objects of each other's classes, under one name, names
the key. -/
theorem key_decided (hp : Prepared index) (hno : Diagnostic.hasErrors (visited index).2 = false)
    {v v' : Visit} (hv : v ∈ Visit.ofIndex index) (hv' : v' ∈ Visit.ofIndex index) (hapart : v'.Apart v)
    (hname : v.option.name.map (·.value) = v'.option.name.map (·.value)) (hnamed : v.option.name ≠ none)
    (hpoints : v.declared.type.pointsTo v'.owner.entity = true)
    (hpoints' : v'.declared.type.pointsTo v.owner.entity = true) :
    v.option.field.isSome ≠ v'.option.field.isSome := by
  intro hboth
  obtain ⟨u, m⟩ := exists_moment hp.ready v hv
  obtain ⟨target, htarget, hside⟩ :=
    m.object_cases (changes_ne_nil hp hno hv m) (category_of_pointsTo hpoints)
  obtain rfl : target = v'.owner := by
    have hclass := hp.tableClass_of_pointsTo (s := v.site index u) rfl (Visit.belongs hv') hpoints
    rw [← m.site_field, htarget.tableClass] at hclass
    exact Except.ok.inj hclass
  -- Whatever the visit finds under the name is the other field.
  have hfound : ∀ (name : Spanned String) (g : FieldDraft), v.option.name = some name →
      (v.site index u).counterpart v'.owner name = .ok g →
        g.type = v'.declared.type ∧ g.keyFieldName?.isSome = v'.option.field.isSome := by
    intro name g hsome hg
    have hback : g.optioned? = v'.declared.optioned? := by
      refine m.counterpart_unique hv' ?_ hapart hg
      rw [← hname, hsome, Option.map_some]
    have hoption := (Visit.mem_ofIndex.mp hv').2.2.2
    refine ⟨(FieldDraft.eq_of_optioned? hback.symm hoption).2.1.symm, ?_⟩
    rw [FieldDraft.keyFieldName?_of_optioned? hback, Visit.keyFieldName?_declared hv', Option.isSome_map]
  rcases hside with ⟨hown, -⟩ | ⟨g, hother⟩
  · rcases Site.keySide_eq_own_iff.mp hown with hnone | ⟨name, g, hsome, hg, hcase⟩
    · exact hnamed hnone
    · obtain ⟨htype, hkey⟩ := hfound name g hsome hg
      rcases hcase with ⟨-, hfield, hnone⟩ | ⟨hnot, -⟩
      · rw [hnone, ← hboth] at hkey
        rw [Visit.site_option] at hfield
        rw [hfield] at hkey
        cases hkey
      · rw [htype, Visit.site_owner, hpoints'] at hnot
        cases hnot
  · obtain ⟨name, hsome, hg, -, hnone, hkey⟩ := Site.keySide_eq_other_iff.mp hother
    obtain ⟨-, hkey'⟩ := hfound name g hsome hg
    rw [Visit.site_option] at hnone
    rw [hkey', ← hboth, hnone] at hkey
    cases hkey

/-! ### The types of keys -/

/-- A foreign key refers to the primary key of a class, and has its type up to nullability. -/
theorem foreignKey_typed (ht : Typed index) {i : Nat} {f : FieldDraft} {r : ForeignKeyRelation}
    (hf : f ∈ (visited index).1.fieldsAt i) (hr : f.relation = some (.foreignKey r)) :
    r.referencedField = "id" ∧ ∃ parent : TableClass, parent.Belongs index ∧ r.parentTable = parent.table ∧
      ∃ id, (visited index).1.find? parent.position "id" = some id ∧
        f.type.withNullable false = id.type.withNullable false := by
  have hw := consistent_visited ht
  obtain ⟨hid, parent, hparent, htable, id, hfind, htype⟩ := (hw.fields i f hf).key r hr
  obtain ⟨id', hfind', htype'⟩ := hw.keeps _ _ _ hfind
  exact ⟨hid, parent, hparent, htable, id', hfind', by rw [htype, htype']⟩

end Linked

end RelationResolution

end EntitySchema
