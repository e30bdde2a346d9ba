import Mathlib.Data.List.Basic
import Mathlib.Tactic.Common
import EntitySchema.Proofs.Relations.Keys

/-!
# The two sides of a relation

The fields of a named relation are visited at different moments, and each looks for the other one.  What
a field is looked for by — its name, its type and its relation option — never changes, so the two visits
agree on who belongs together: the counterpart of a field has this field as its only possible counterpart
(`exists_counterpart`).  That is why a one-to-one relation whose key is undecided is reported by one of
the two sides, and why every visit without an issue makes changes (`changes_ne_nil`).
-/

namespace EntitySchema

namespace FieldDraft

/-- Fields that say the same about their relations name the same key. -/
lemma keyFieldName?_of_optioned? {f g : FieldDraft} (h : f.optioned? = g.optioned?) :
    f.keyFieldName? = g.keyFieldName? := by
  unfold optioned? at h
  unfold keyFieldName?
  cases hf : f.relationOption <;> cases hg : g.relationOption <;> simp_all

/-- Fields that say the same about a relation have the same name, type and option. -/
lemma eq_of_optioned? {f g : FieldDraft} {o : RelationOption} (h : f.optioned? = g.optioned?)
    (hf : f.relationOption = some o) :
    f.name = g.name ∧ f.type = g.type ∧ g.relationOption = some o := by
  unfold optioned? at h
  cases hg : g.relationOption <;> simp_all

end FieldDraft

namespace RelationResolution

/-- What the entities are like if nothing has been reported about names: their keys are unique, and a
field that declares a relation is the first one of its name. -/
structure Prepared (index : EntityIndex) : Prop extends Typed index where
  keys : index.entities.Pairwise fun e e' => e.key ≠ e'.key
  names : ∀ e ∈ index.entities, e.RelationsLead

/-- A moment among all visits. -/
abbrev MomentOf (index : EntityIndex) : Visit → Workspace → Prop :=
  Moment index (initial index) (Visit.ofIndex index)

section Prepared

variable {index : EntityIndex}

lemma Visit.belongs {v : Visit} (hv : v ∈ Visit.ofIndex index) : v.owner.Belongs index :=
  ⟨(Visit.mem_ofIndex.mp hv).1, (Visit.mem_ofIndex.mp hv).2.1⟩

/-- At the beginning all visits can be made if no field has a relation and a field that declares one is the first
one of its name. -/
lemma ready_initial (hunrelated : ∀ e ∈ index.entities, ∀ f ∈ e.fields, f.relation = none)
    (hlead : ∀ e ∈ index.entities, e.RelationsLead) : Ready index (initial index) (Visit.ofIndex index) where
  length_eq := by simp [Workspace.ofEntities]
  option v hv := (Visit.mem_ofIndex.mp hv).2.2.2
  unrelated v hv := by
    obtain ⟨he, -, hf, -⟩ := Visit.mem_ofIndex.mp hv
    exact hunrelated _ (List.mem_of_getElem? he) _ hf
  found v hv := by
    obtain ⟨he, -, hf, ho⟩ := Visit.mem_ofIndex.mp hv
    rw [Workspace.find?, fieldsAt_initial he]
    refine (hlead _ (List.mem_of_getElem? he)).find?_eq hf ?_
    rw [ho]
    exact Option.some_ne_none _
  apart := Visit.apart_ofEntities hlead

lemma Prepared.ready (hp : Prepared index) : Ready index (initial index) (Visit.ofIndex index) :=
  ready_initial hp.unrelated hp.names

/-- Two elements that no pairwise relation tells apart stand at one position. -/
lemma eq_of_pairwise {α : Type} {R : α → α → Prop} {l : List α} (h : l.Pairwise R) {i j : Nat} {a b : α}
    (hi : l[i]? = some a) (hj : l[j]? = some b) (hab : ¬ R a b) (hba : ¬ R b a) : i = j := by
  obtain ⟨hi', rfl⟩ := List.getElem?_eq_some_iff.mp hi
  obtain ⟨hj', rfl⟩ := List.getElem?_eq_some_iff.mp hj
  rw [List.pairwise_iff_getElem] at h
  rcases Nat.lt_trichotomy i j with hlt | heq | hlt
  · exact absurd (h i j hi' hj' hlt) hab
  · exact heq
  · exact absurd (h j i hj' hi' hlt) hba

/-- Entities with one key stand at one position. -/
lemma Prepared.position_eq_of_key (hp : Prepared index) {i j : Nat} {e e' : Entity}
    (hi : index.entities[i]? = some e) (hj : index.entities[j]? = some e') (h : e.key = e'.key) : i = j :=
  eq_of_pairwise hp.keys hi hj (fun hne => hne h) fun hne => hne h.symm

/-- A type that stands for a class with a table is looked up to this class. -/
lemma Prepared.tableClass_of_pointsTo (hp : Prepared index) {s : Site} (hs : s.index = index)
    {c : TableClass} (hc : c.Belongs index) {t : TypeDef} (h : t.pointsTo c.entity = true) :
    s.tableClass t = .ok c := by
  simp only [TypeDef.pointsTo, Bool.and_eq_true, beq_iff_eq] at h
  obtain ⟨⟨hcategory, hname⟩, halias⟩ := h
  rw [Site.tableClass_eq_ok_iff, hs]
  refine ⟨?_, hc.table⟩
  have hfind : index.find? c.entity.moduleAlias c.entity.className = some ⟨c.position, c.entity⟩ := by
    rw [EntityIndex.find?_eq_first]
    refine EntityIndex.first_eq_some_of_unique hc.entity (by simp [Entity.key]) ?_
    intro j e he hkey
    exact hp.position_eq_of_key he hc.entity (by simpa [Entity.key] using hkey)
  simp [EntityIndex.findClass?, hcategory, halias, hname, hfind, Entity.kind_of_table? hc.table]

/-- What a well formed type is looked up to is what it stands for. -/
lemma Prepared.pointsTo_of_tableClass (hp : Prepared index) {s : Site} (hs : s.index = index)
    {c : TableClass} {t : TypeDef} (ht : t.WellFormed (TypeDef.IsReference index.entities))
    (h : s.tableClass t = .ok c) : c.Belongs index ∧ t.pointsTo c.entity = true := by
  obtain ⟨hclass, htable⟩ := Site.tableClass_eq_ok_iff.mp h
  rw [hs] at hclass
  obtain ⟨hcategory, -, hget, a, ha, hkey⟩ := EntityIndex.findClass?_eq_some hclass
  refine ⟨⟨hget, htable⟩, ?_⟩
  obtain ⟨e, he, nullable, -, rfl⟩ := TypeDef.isReference_of_category ht hcategory
  obtain rfl : e.moduleAlias = a := Option.some.inj ha
  -- The entity that the type has been made from has the key of the class.
  obtain ⟨i, hi⟩ := List.mem_iff_getElem?.mp he
  obtain rfl := hp.position_eq_of_key hi hget hkey.symm
  obtain rfl : e = c.entity := Option.some.inj (hi.symm.trans hget)
  simp [TypeDef.pointsTo, TypeResolution.referenceTo]

/-! ### Who belongs together -/

/-- What the other side of a named relation can be depends only on what the fields of its class say about
their relations. -/
lemma Site.counterparts_optioned? (s : Site) (target : TableClass) (name : String) :
    (s.counterparts target name).filterMap FieldDraft.optioned? =
      ((s.workspace.fieldsAt target.position).filterMap FieldDraft.optioned?).filter
        fun d => d.2.2.name.map (·.value) == some name &&
          !(target.position == s.owner.position && d.1 == s.field.name) := by
  rw [Site.counterparts, List.filterMap_filter, List.filter_filterMap]
  refine List.filterMap_congr fun f _ => ?_
  cases ho : f.relationOption with
  | none => simp [FieldDraft.optioned?, FieldDraft.relationName?, ho]
  | some o => simp [FieldDraft.optioned?, FieldDraft.relationName?, ho, Site.isSelf, Option.filter]

/-- What the other side of a named relation can be, as far as a class declares it. -/
def Visit.partners (index : EntityIndex) (v : Visit) (position : Nat) (name : String) :
    List (String × TypeDef × RelationOption) :=
  (((initial index).fieldsAt position).filterMap FieldDraft.optioned?).filter
    fun d => d.2.2.name.map (·.value) == some name &&
      !(position == v.owner.position && d.1 == v.declared.name)

/-- Whom a visit can find does not depend on its moment. -/
lemma Moment.counterparts_optioned? {v : Visit} {u : Workspace} (m : MomentOf index v u)
    (target : TableClass) (name : String) :
    ((v.site index u).counterparts target name).filterMap FieldDraft.optioned? =
      v.partners index target.position name := by
  rw [Visit.partners, ← m.before.options_eq target.position, Site.counterparts_optioned?, m.site_field]
  rfl

/-- A visited field says its name, its type and its option. -/
lemma Visit.optioned?_declared {v : Visit} (hv : v ∈ Visit.ofIndex index) :
    v.declared.optioned? = some (v.declared.name, v.declared.type, v.option) := by
  simp [FieldDraft.optioned?, (Visit.mem_ofIndex.mp hv).2.2.2]

/-- If a visit finds a counterpart in a class, it is the field of the class that shares the name of the
relation. -/
lemma Moment.counterpart_unique {v v' : Visit} (hv' : v' ∈ Visit.ofIndex index) {u : Workspace}
    (m : MomentOf index v u) {name : Spanned String} (hname : v'.option.name.map (·.value) = some name.value)
    (hapart : v'.Apart v) {g : FieldDraft} (hg : (v.site index u).counterpart v'.owner name = .ok g) :
    g.optioned? = v'.declared.optioned? := by
  rw [Site.counterpart_eq_ok_iff] at hg
  obtain ⟨he, -, hf, -⟩ := Visit.mem_ofIndex.mp hv'
  have hpartner : (v'.declared.name, v'.declared.type, v'.option) ∈
      v.partners index v'.owner.position name.value := by
    refine List.mem_filter.mpr ⟨?_, ?_⟩
    · rw [fieldsAt_initial he]
      exact List.mem_filterMap.mpr ⟨v'.declared, hf, Visit.optioned?_declared hv'⟩
    · simp only [hname, Bool.and_eq_true, Bool.not_eq_true', Bool.and_eq_false_iff, beq_self_eq_true,
        beq_eq_false_iff_ne, ne_eq, true_and]
      by_cases hpos : v'.owner.position = v.owner.position
      · exact Or.inr (hapart hpos)
      · exact Or.inl hpos
  rw [← m.counterparts_optioned? v'.owner name.value, hg, List.filterMap_cons, List.filterMap_nil]
    at hpartner
  rw [Visit.optioned?_declared hv']
  cases ho : g.optioned? with
  | none => simp [ho] at hpartner
  | some x =>
    simp only [ho, List.mem_singleton] at hpartner
    rw [hpartner]

/-- A visit that belongs to the counterpart of a field, for which the field is the only possible
counterpart. -/
structure Faces (index : EntityIndex) (v v' : Visit) (g : FieldDraft) : Prop where
  mem : v' ∈ Visit.ofIndex index
  optioned : v'.declared.optioned? = g.optioned?
  named : v'.option.name ≠ none
  back : ∀ u', MomentOf index v' u' → ∀ name h, v'.option.name = some name →
    (v'.site index u').counterpart v.owner name = .ok h → h.optioned? = v.declared.optioned?

/-- The counterpart of a field is visited too, and finds the field if it finds any. -/
theorem exists_counterpart {v : Visit} (hv : v ∈ Visit.ofIndex index) {u : Workspace}
    (m : MomentOf index v u) {target : TableClass} (htarget : target.Belongs index)
    {name : Spanned String} (hname : v.option.name = some name) {g : FieldDraft}
    (hg : (v.site index u).counterpart target name = .ok g) :
    ∃ v', v'.owner = target ∧ Faces index v v' g := by
  rw [Site.counterpart_eq_ok_iff] at hg
  have hpartners := m.counterparts_optioned? target name.value
  have hgmem : g ∈ (v.site index u).counterparts target name.value := by simp [hg]
  -- The counterpart has a relation option with the name of the relation.
  obtain ⟨o, ho, honame⟩ : ∃ o, g.relationOption = some o ∧ o.name.map (·.value) = some name.value := by
    have hrelation := (List.mem_filter.mp hgmem).2
    simp only [FieldDraft.relationName?, Bool.and_eq_true, beq_iff_eq] at hrelation
    exact Option.bind_eq_some_iff.mp hrelation.1
  have hdata : g.optioned? = some (g.name, g.type, o) := by
    simp [FieldDraft.optioned?, ho]
  rw [hg, List.filterMap_cons, hdata, List.filterMap_nil] at hpartners
  have hpartner : (g.name, g.type, o) ∈ v.partners index target.position name.value := by
    rw [← hpartners]
    exact List.mem_singleton_self _
  obtain ⟨hdeclared, hother⟩ := List.mem_filter.mp hpartner
  rw [fieldsAt_initial htarget.entity] at hdeclared
  obtain ⟨d, hd, hdoption⟩ := List.mem_filterMap.mp hdeclared
  -- So a field of the class says the same about its relation, and it is visited.
  obtain ⟨hdname, hdtype, hdo⟩ := FieldDraft.eq_of_optioned? (hdata.trans hdoption.symm) ho
  refine ⟨⟨target, d, o⟩, rfl, ?_, hdoption.trans hdata.symm, ?_, ?_⟩
  · exact Visit.mem_ofIndex.mpr ⟨htarget.entity, htarget.table, hd, hdo⟩
  · rintro (hnone : o.name = none)
    rw [hnone] at honame
    cases honame
  · intro u' m' name' h hname' hh
    have hvalue : name.value = name'.value := by
      rw [show o.name = some name' from hname'] at honame
      exact (Option.some.inj honame).symm
    refine m'.counterpart_unique hv (by rw [hname, Option.map_some, hvalue]) ?_ hh
    -- The counterpart is another field, so the field is another one than the counterpart.
    intro hpos
    simp only [Bool.and_eq_true, Bool.not_eq_true', Bool.and_eq_false_iff, beq_eq_false_iff_ne,
      ne_eq] at hother
    rcases hother.2 with hne | hne
    · exact absurd hpos.symm hne
    · exact fun hsame => hne (hdname.trans hsame.symm)

/-- The key that a visited field names is the one of its option. -/
lemma Visit.keyFieldName?_declared {v : Visit} (hv : v ∈ Visit.ofIndex index) :
    v.declared.keyFieldName? = v.option.field.map (·.value) := by
  simp [FieldDraft.keyFieldName?, (Visit.mem_ofIndex.mp hv).2.2.2]

/-- The type of a visited field is well formed. -/
lemma Prepared.wellFormed (hp : Prepared index) {v : Visit} (hv : v ∈ Visit.ofIndex index) :
    v.declared.type.WellFormed (TypeDef.IsReference index.entities) := by
  obtain ⟨he, -, hf, -⟩ := Visit.mem_ofIndex.mp hv
  exact hp.types _ (List.mem_of_getElem? he) _ hf

/-- The class of an object field belongs to the index, and the type of the field stands for it. -/
lemma Site.ObjectTarget.resolved (hp : Prepared index) {v : Visit} (hv : v ∈ Visit.ofIndex index)
    {u : Workspace} (m : MomentOf index v u) {target : TableClass}
    (h : (v.site index u).ObjectTarget target) :
    target.Belongs index ∧ v.declared.type.pointsTo target.entity = true := by
  have htarget := h.tableClass
  rw [m.site_field] at htarget
  exact hp.pointsTo_of_tableClass (s := v.site index u) rfl (hp.wellFormed hv) htarget

/-- The class of the elements of a list field belongs to the index, and the type of the elements stands for
it. -/
lemma Site.ListTarget.resolved (hp : Prepared index) {v : Visit} (hv : v ∈ Visit.ofIndex index)
    {u : Workspace} (m : MomentOf index v u) {t : TypeDef} {target : TableClass}
    (h : (v.site index u).ListTarget t target) :
    target.Belongs index ∧ v.declared.type.listElement? = some t ∧ t.pointsTo target.entity = true := by
  have helement := h.element
  rw [m.site_field] at helement
  have htype := TypeDef.wellFormed_listElement? (hp.wellFormed hv) helement
  obtain ⟨hbelongs, hpoints⟩ := hp.pointsTo_of_tableClass (s := v.site index u) rfl htype h.tableClass
  exact ⟨hbelongs, helement, hpoints⟩

section Faces

variable {v v' : Visit} {g : FieldDraft}

lemma Faces.name_eq (f : Faces index v v' g) : v'.declared.name = g.name :=
  (FieldDraft.eq_of_optioned? f.optioned (Visit.mem_ofIndex.mp f.mem).2.2.2).1

lemma Faces.type_eq (f : Faces index v v' g) : v'.declared.type = g.type :=
  (FieldDraft.eq_of_optioned? f.optioned (Visit.mem_ofIndex.mp f.mem).2.2.2).2.1

lemma Faces.option_eq (f : Faces index v v' g) : g.relationOption = some v'.option :=
  (FieldDraft.eq_of_optioned? f.optioned (Visit.mem_ofIndex.mp f.mem).2.2.2).2.2

lemma Faces.keyFieldName?_eq (f : Faces index v v' g) :
    g.keyFieldName? = v'.option.field.map (·.value) :=
  (FieldDraft.keyFieldName?_of_optioned? f.optioned).symm.trans (Visit.keyFieldName?_declared f.mem)

/-- If the counterpart of an object field holds the key itself, it names it, and the field does not. -/
lemma Faces.keySide_own (f : Faces index v v' g) (hv : v ∈ Visit.ofIndex index) {u' : Workspace}
    (m' : MomentOf index v' u') (hpoints : v.declared.type.pointsTo v'.owner.entity = true)
    (hside : (v'.site index u').keySide v.owner = .ok .own) :
    v'.option.field.isSome ∧ v.option.field = none := by
  obtain ⟨he, -, hf, hvo⟩ := Visit.mem_ofIndex.mp hv
  rcases Site.keySide_eq_own_iff.mp hside with hnone | ⟨name, h, hname, hcounterpart, hh⟩
  · exact absurd hnone f.named
  have hback := f.back u' m' name h hname hcounterpart
  have htype : v.declared.type = h.type := (FieldDraft.eq_of_optioned? hback.symm hvo).2.1
  rcases hh with ⟨-, hfield, hkey⟩ | ⟨hnot, -⟩
  · rw [FieldDraft.keyFieldName?_of_optioned? hback, Visit.keyFieldName?_declared hv] at hkey
    exact ⟨hfield, by simpa using hkey⟩
  · rw [← htype, Visit.site_owner, hpoints] at hnot
    cases hnot

/-- If the counterpart of a field leaves the key to the other side, the field names it and holds an
object. -/
lemma Faces.keySide_other (f : Faces index v v' g) (hv : v ∈ Visit.ofIndex index) {u' : Workspace}
    (m' : MomentOf index v' u') {h : FieldDraft}
    (hside : (v'.site index u').keySide v.owner = .ok (.other h)) :
    v'.option.field = none ∧ v.option.field.isSome ∧
      v.declared.type.pointsTo v'.owner.entity = true := by
  obtain ⟨he, -, hf, hvo⟩ := Visit.mem_ofIndex.mp hv
  obtain ⟨name, hname, hcounterpart, hpoints, hfield, hkey⟩ := Site.keySide_eq_other_iff.mp hside
  have hback := f.back u' m' name h hname hcounterpart
  have htype : v.declared.type = h.type := (FieldDraft.eq_of_optioned? hback.symm hvo).2.1
  rw [FieldDraft.keyFieldName?_of_optioned? hback, Visit.keyFieldName?_declared hv] at hkey
  refine ⟨hfield, by simpa using hkey, ?_⟩
  rw [htype]
  exact hpoints

/-- The class that the counterpart is resolved to is the class of the field. -/
lemma Faces.target_eq (f : Faces index v v' g) (hp : Prepared index) (hv : v ∈ Visit.ofIndex index)
    (hpoints : g.type.pointsTo v.owner.entity = true) {u' : Workspace} (m' : MomentOf index v' u')
    {target : TableClass} (htarget : (v'.site index u').ObjectTarget target) : target = v.owner := by
  have hclass := hp.tableClass_of_pointsTo (s := v'.site index u') rfl (Visit.belongs hv) hpoints
  have htype : (v'.site index u').field.type = g.type := by
    rw [m'.site_field, f.type_eq]
  rw [← htype, htarget.tableClass] at hclass
  exact Except.ok.inj hclass

end Faces

/-! ### What a moment leaves behind -/

section Moment

variable {v : Visit} {u : Workspace}

/-- A field that is related at a moment has the relation at last. -/
lemma Moment.find?_relate (m : MomentOf index v u) {i : Nat} {n : String} {d : FieldDraft} {r : RelationDef}
    (hd : u.find? i n = some d) (hc : Change.relate i n r ∈ (v.site index u).resolve.changes) :
    (visited index).1.find? i n = some (d.relate r) :=
  m.after.find?_of_relation (Workspace.find?_applyAll_relate m.fresh hd hc).2 rfl

/-- A key that is added at a moment is there at last. -/
lemma Moment.find?_key (m : MomentOf index v u) {c : Change} {k : FieldDraft}
    (hc : c ∈ (v.site index u).resolve.changes) (hk : c.key? = some k) {r : RelationDef}
    (hr : k.relation = some r) : (visited index).1.find? c.position k.name = some k :=
  m.after.find?_of_relation (Workspace.find?_applyAll_key m.fresh hc hk) hr

/-- A list is no object. -/
lemma Site.ListTarget.category_ne {s : Site} {t : TypeDef} {target : TableClass}
    (h : s.ListTarget t target) : s.field.type.category ≠ .entity := by
  intro hcategory
  have helement := h.element
  simp [TypeDef.listElement?, hcategory] at helement

/-- The key of an object field in its own class is the one that its counterpart expects. -/
lemma Moment.ownKeyName_eq (m : MomentOf index v u) (hv : v ∈ Visit.ofIndex index) :
    (v.site index u).ownKeyName = v.declared.objectKey := by
  rw [FieldDraft.objectKey, Visit.keyFieldName?_declared hv, Site.ownKeyName, Site.addedKeyName,
    m.site_field]
  rfl

/-- An object field that is linked has its key in its own class, or leaves it to its counterpart. -/
lemma Moment.object_cases (m : MomentOf index v u) (hne : (v.site index u).resolve.changes ≠ [])
    (hcategory : v.declared.type.category = .entity) :
    ∃ target, (v.site index u).ObjectTarget target ∧
      (((v.site index u).keySide target = .ok .own ∧
          ∃ k, (visited index).1.find? v.owner.position (v.site index u).ownKeyName = some k ∧
            k.relation = some (.foreignKey ((v.site index u).keyRelation target))) ∨
        ∃ g, (v.site index u).keySide target = .ok (.other g)) := by
  have hfield := m.site_field
  have hlink := Site.link_resolve (v.site index u)
  have hrelate := fun i n d r => m.find?_relate (i := i) (n := n) (d := d) (r := r)
  have hadded := fun c k => m.find?_key (c := c) (k := k)
  generalize (v.site index u).resolve.changes = cs at hlink hne hrelate hadded
  cases hlink with
  | nothing => exact absurd rfl hne
  | parent hparent hscalar =>
    rw [hfield, hcategory] at hscalar
    cases hscalar
  | listNamed htarget | listHidden htarget =>
    rw [← hfield] at hcategory
    exact absurd hcategory htarget.category_ne
  | other htarget hside => exact ⟨_, htarget, Or.inr ⟨_, hside⟩⟩
  | @ownField target key existing htarget hside hkey hfind =>
    refine ⟨target, htarget, Or.inl ⟨hside, ?_⟩⟩
    rw [Site.ownKeyName, hkey]
    exact ⟨_, hrelate _ _ _ _ hfind List.mem_cons_self, rfl⟩
  | @ownAdded target htarget hside hkey hnew =>
    refine ⟨target, htarget, Or.inl ⟨hside, (v.site index u).addedKey target, ?_, rfl⟩⟩
    rw [Site.ownKeyName, hkey]
    exact hadded _ _ List.mem_cons_self rfl rfl

/-- A field with a parent table that is linked is a scalar, the table has a class, and the field is a key that
refers to the table. -/
lemma Moment.parent_cases (m : MomentOf index v u) (hne : (v.site index u).resolve.changes ≠ [])
    {p : Spanned String} (hparent : v.option.parent = some p) :
    v.declared.type.category = .scalar ∧ (∃ l, index.findTable? p.value = some l) ∧
      (visited index).1.find? v.owner.position v.declared.name =
        some (v.declared.relate (.foreignKey ((v.site index u).parentRelation p.value))) := by
  have hfield := m.site_field
  have hlink := Site.link_resolve (v.site index u)
  have hrelate := fun r => m.find?_relate (r := r) m.found
  generalize (v.site index u).resolve.changes = cs at hlink hne hrelate
  cases hlink with
  | nothing => exact absurd rfl hne
  | @parent q l hq hscalar htable =>
    obtain rfl : p = q := Option.some.inj (hparent.symm.trans hq)
    rw [hfield] at hscalar hrelate
    exact ⟨hscalar, ⟨l, htable⟩, hrelate _ (List.mem_singleton_self _)⟩
  | ownField htarget | ownAdded htarget | other htarget | listNamed htarget | listHidden htarget =>
    have hnone : v.option.parent = none := htarget.noParent
    rw [hparent] at hnone
    cases hnone

end Moment

/-! ### Nothing is silent -/

lemma category_of_pointsTo {t : TypeDef} {e : Entity} (h : t.pointsTo e = true) : t.category = .entity := by
  simp only [TypeDef.pointsTo, Bool.and_eq_true, beq_iff_eq] at h
  exact h.1.1

/-- An undecided relation is reported by one of the two sides. -/
lemma not_undecided (hp : Prepared index) (hno : Diagnostic.hasErrors (visited index).2 = false)
    {v : Visit} (hv : v ∈ Visit.ofIndex index) {u : Workspace} (m : MomentOf index v u)
    {target : TableClass} {name : Spanned String} {g : FieldDraft} :
    ¬ (v.site index u).Undecided target name g := by
  intro h
  have hfield := m.site_field
  obtain ⟨htarget, hpoints⟩ := h.isObject.resolved hp hv m
  obtain ⟨v', rfl, f⟩ := exists_counterpart hv m htarget h.isNamed h.isPaired
  obtain ⟨u', m'⟩ := exists_moment hp.ready v' f.mem
  have hboth : v.option.field.isSome = v'.option.field.isSome := by
    have hboth := h.both
    rwa [f.keyFieldName?_eq, Option.isSome_map] at hboth
  have hcategory : (v'.site index u').field.type.category = .entity := by
    rw [m'.site_field, f.type_eq]
    exact category_of_pointsTo h.pointsTo
  have hunresolved : (v'.site index u').field.type.containsUnresolved = false := by
    rw [m'.site_field]
    exact TypeDef.containsUnresolved_eq_false (hp.wellFormed f.mem)
  rcases Site.changes_ne_nil_of_issues_eq_nil (m'.silent hno) hunresolved with hne | ⟨target', name', g', h'⟩
  · -- The other side would have decided which of the two holds the key.
    rw [m'.site_field] at hcategory
    obtain ⟨target', htarget', hside⟩ := m'.object_cases hne hcategory
    obtain rfl := f.target_eq hp hv h.pointsTo m' htarget'
    rcases hside with ⟨hown, -⟩ | ⟨g', hother⟩
    · obtain ⟨hsome, hnone⟩ := f.keySide_own hv m' hpoints hown
      simp [hsome, hnone] at hboth
    · obtain ⟨hnone, hsome, -⟩ := f.keySide_other hv m' hother
      simp [hsome, hnone] at hboth
  · -- Both sides would leave the report to the other one.
    obtain rfl := f.target_eq hp hv h.pointsTo m' h'.isObject
    have hback := f.back u' m' name' g' h'.isNamed h'.isPaired
    have hname : g'.name = v.declared.name :=
      (FieldDraft.eq_of_optioned? hback.symm (Visit.mem_ofIndex.mp hv).2.2.2).1.symm
    have hlater := h.later
    have hlater' := h'.later
    rw [hfield, ← f.name_eq] at hlater
    rw [m'.site_field, hname] at hlater'
    rcases Text.le_total (v.owner.entity.className ++ "." ++ v.declared.name)
      (v'.owner.entity.className ++ "." ++ v'.declared.name) with hle | hle
    · exact hlater hle
    · exact hlater' hle

/-- If there are no errors, every visit makes changes. -/
theorem changes_ne_nil (hp : Prepared index) (hno : Diagnostic.hasErrors (visited index).2 = false)
    {v : Visit} (hv : v ∈ Visit.ofIndex index) {u : Workspace} (m : MomentOf index v u) :
    (v.site index u).resolve.changes ≠ [] := by
  have hunresolved : (v.site index u).field.type.containsUnresolved = false := by
    rw [m.site_field]
    exact TypeDef.containsUnresolved_eq_false (hp.wellFormed hv)
  rcases Site.changes_ne_nil_of_issues_eq_nil (m.silent hno) hunresolved with hne | ⟨target, name, g, h⟩
  · exact hne
  · exact absurd h (not_undecided hp hno hv m)

end Prepared

end RelationResolution

end EntitySchema
