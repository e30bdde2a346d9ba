import Mathlib.Data.List.Basic
import Mathlib.Tactic.Common
import EntitySchema.Proofs.Relations.Run
import EntitySchema.Proofs.Types.WellFormed

/-!
# What keys refer to, and which fields are stored

Two facts hold of every field at every moment, whatever is linked and in whichever order (`Admissible`).  A
key refers to the primary key of a class with a table and has its type up to nullability; and a field that
is not stored was declared so, or holds objects.  Every change of a link keeps them (`consistent_apply`,
`Site.Link.allSound`), so they hold when all relations have been resolved (`consistent_visited`).
-/

namespace EntitySchema

namespace RelationResolution

/-- What the entities are like when relations are resolved: fields have no relations yet, their types are
well formed, and every class with a table has a primary key. -/
structure Typed (index : EntityIndex) : Prop where
  unrelated : ∀ e ∈ index.entities, ∀ f ∈ e.fields, f.relation = none
  types : ∀ e ∈ index.entities, ∀ f ∈ e.fields, f.type.WellFormed (TypeDef.IsReference index.entities)
  id : ∀ e ∈ index.entities, e.table?.isSome →
    ∃ f, e.fields.find? (·.name == "id") = some f ∧ FieldDraft.isIdType f.type = true

/-- A class with a table of the index. -/
structure TableClass.Belongs (index : EntityIndex) (c : TableClass) : Prop where
  entity : index.entities[c.position]? = some c.entity
  table : c.entity.table? = some c.table

/-- The workspace before any relation is resolved. -/
abbrev initial (index : EntityIndex) : Workspace :=
  .ofEntities index.entities

/-- The workspace and the diagnostics after all visits. -/
def visited (index : EntityIndex) : Workspace × List Diagnostic :=
  runAll index (initial index) (Visit.ofIndex index)

/-- Resolving relations is making all visits. -/
theorem resolve_eq (index : EntityIndex) :
    resolve index = ((visited index).1.build index.entities, (visited index).2) := by
  simp only [resolve, visited, initial, Visit.ofIndex, resolveFrom_eq_runAll]

section Keys

variable {index : EntityIndex}

/-- Every entity is there with its fields as they are at last. -/
lemma getElem?_resolve (index : EntityIndex) (i : Nat) :
    (resolve index).1[i]? = index.entities[i]?.map fun e => e.withFields ((visited index).1.fieldsAt i) := by
  have hlength : (visited index).1.fields.length = index.entities.length := by
    simp [visited, Workspace.ofEntities]
  rw [resolve_eq, Workspace.build, List.getElem?_zipWith]
  cases he : index.entities[i]? with
  | none => simp
  | some e =>
    have hi : i < (visited index).1.fields.length := by
      rw [hlength]
      exact (List.getElem?_eq_some_iff.mp he).1
    simp [Workspace.fieldsAt, hi]

lemma TableClass.Belongs.mem {c : TableClass} (h : c.Belongs index) : c.entity ∈ index.entities :=
  List.mem_of_getElem? h.entity

/-- The fields at a position are those of the entity. -/
lemma fieldsAt_initial {i : Nat} {e : Entity} (h : index.entities[i]? = some e) :
    (initial index).fieldsAt i = e.fields := by
  simp [Workspace.ofEntities, Workspace.fieldsAt, List.getD_eq_getElem?_getD, h]

/-- A field at a position is a field of an entity. -/
lemma exists_of_mem_fieldsAt {i : Nat} {f : FieldDraft} (h : f ∈ (initial index).fieldsAt i) :
    ∃ e, index.entities[i]? = some e ∧ e ∈ index.entities ∧ f ∈ e.fields := by
  cases he : index.entities[i]? with
  | none => simp [Workspace.ofEntities, Workspace.fieldsAt, List.getD_eq_getElem?_getD, he] at h
  | some e =>
    rw [fieldsAt_initial he] at h
    exact ⟨e, rfl, List.mem_of_getElem? he, h⟩

/-- The primary key of a class that fields refer to: it is found, and it has one of two types. -/
lemma Typed.exists_id (ht : Typed index) {c : TableClass} (hc : c.Belongs index) :
    ∃ id, (initial index).find? c.position "id" = some id ∧
      ∃ nullable, id.type = TypeDef.scalar "int" nullable ∨ id.type = TypeDef.scalar "UuidValue" nullable := by
  obtain ⟨id, hid, hidType⟩ := ht.id c.entity hc.mem (by rw [hc.table]; rfl)
  have htype := ht.types c.entity hc.mem id (List.mem_of_find?_eq_some hid)
  refine ⟨id, ?_, TypeDef.eq_scalar_of_isIdType htype hidType⟩
  rw [Workspace.find?, fieldsAt_initial hc.entity]
  exact hid

/-- A key refers to the primary key of a class with a table, and has its type up to nullability. -/
def RefersTo (index : EntityIndex) (t : TypeDef) (r : ForeignKeyRelation) : Prop :=
  r.referencedField = "id" ∧ ∃ parent : TableClass, parent.Belongs index ∧ r.parentTable = parent.table ∧
    ∃ id, (initial index).find? parent.position "id" = some id ∧
      t.withNullable false = id.type.withNullable false

/-- The primary key that is found has a scalar type. -/
lemma Typed.category_of_find? (ht : Typed index) {c : TableClass} (hc : c.Belongs index) {id : FieldDraft}
    (hid : (initial index).find? c.position "id" = some id) : id.type.category = .scalar := by
  obtain ⟨id', hid', nullable, hscalar⟩ := ht.exists_id hc
  obtain rfl := Option.some.inj (hid.symm.trans hid')
  rcases hscalar with hscalar | hscalar
  · rw [hscalar]
    rfl
  · rw [hscalar]
    rfl

/-- A key has the type of a primary key, which is a scalar. -/
lemma RefersTo.category_eq (ht : Typed index) {t : TypeDef} {r : ForeignKeyRelation}
    (h : RefersTo index t r) : t.category = .scalar := by
  obtain ⟨-, parent, hparent, -, id, hid, htype⟩ := h
  have hcategory : (t.withNullable false).category = (id.type.withNullable false).category := by rw [htype]
  exact hcategory.trans (ht.category_of_find? hparent hid)

/-- What holds of every field of an entity at every moment. -/
structure Admissible (index : EntityIndex) (i : Nat) (f : FieldDraft) : Prop where
  wellFormed : f.type.WellFormed (TypeDef.IsReference index.entities)
  key : ∀ r, f.relation = some (.foreignKey r) → RefersTo index f.type r
  stored : f.shouldPersist = false →
    (∃ d ∈ (initial index).fieldsAt i, d.name = f.name ∧ d.shouldPersist = false ∧ d.origin = f.origin) ∨
      (f.type.category ≠ .scalar ∧ f.relation ≠ none)

/-- What holds of the workspace at every moment. -/
structure Consistent (index : EntityIndex) (w : Workspace) : Prop where
  keeps : (initial index).Keeps w
  shadowed : ∀ P, (∀ i, FieldDraft.Shadowed P ((initial index).fieldsAt i)) →
    ∀ i, FieldDraft.Shadowed P (w.fieldsAt i)
  fields : ∀ i, ∀ f ∈ w.fieldsAt i, Admissible index i f

/-- A change that gives a relation only to a field that fits it, and adds only keys that are admissible,
under new names. -/
structure Sound (index : EntityIndex) (w : Workspace) (c : Change) : Prop where
  relate : ∀ i n r, c = .relate i n r → ∃ d, w.find? i n = some d ∧
    (∀ k, r = .foreignKey k → RefersTo index d.type k ∧ (d.relation = none ∨ d.type.category = .scalar)) ∧
    (r.foreignKey? = none → d.type.category ≠ .scalar)
  key : ∀ k, c.key? = some k → w.find? c.position k.name = none ∧ Admissible index c.position k

/-- Changes each of which is sound when it is made. -/
def AllSound (index : EntityIndex) : Workspace → List Change → Prop
  | _, [] => True
  | w, c :: cs => Sound index w c ∧ AllSound index (w.apply c) cs

/-- A sound change leaves the workspace consistent. -/
lemma consistent_apply {w : Workspace} {c : Change} (hw : Consistent index w) (hc : Sound index w c) :
    Consistent index (w.apply c) where
  keeps := hw.keeps.trans (Workspace.keeps_apply fun k hk => (hc.key k hk).1)
  shadowed P hP := Workspace.shadowed_apply (fun k hk => (hc.key k hk).1) (hw.shadowed P hP)
  fields i f hf := by
    rcases Workspace.mem_fieldsAt_apply hf with hf | ⟨d, r, hd, rfl, rfl⟩ | ⟨rfl, hk⟩
    · exact hw.fields i f hf
    · obtain ⟨d', hd', hkey, hholds⟩ := hc.relate i d.name r rfl
      obtain rfl := Option.some.inj (hd.symm.trans hd')
      have hadmissible := hw.fields i d (Workspace.mem_of_find? hd)
      refine ⟨hadmissible.wellFormed, ?_, ?_⟩
      · intro k hk
        exact (hkey k (Option.some.inj hk)).1
      · intro hstored
        cases hr : r.foreignKey? with
        | none => exact Or.inr ⟨hholds hr, Option.some_ne_none r⟩
        | some k =>
          -- A key is stored if the field was, and a field that holds objects is no key.
          have hr' : r = .foreignKey k := by
            cases r <;> cases hr
            rfl
          have hunstored : d.shouldPersist = false := by
            simpa [FieldDraft.relate, hr] using hstored
          rcases hadmissible.stored hunstored with hdeclared | ⟨hcategory, hrelation⟩
          · exact Or.inl hdeclared
          · rcases (hkey k hr').2 with hnone | hscalar
            · exact absurd hnone hrelation
            · exact absurd hscalar hcategory
    · exact (hc.key f hk).2

lemma consistent_applyAll {w : Workspace} {cs : List Change} (hw : Consistent index w)
    (hcs : AllSound index w cs) : Consistent index (w.applyAll cs) := by
  induction cs generalizing w with
  | nil => exact hw
  | cons c cs ih => exact ih (consistent_apply hw hcs.1) hcs.2

/-! ### Links are sound -/

/-- The type of a primary key does not change. -/
lemma Consistent.idType_eq {w : Workspace} (hw : Consistent index w) {i : Nat} {id : FieldDraft}
    (hid : (initial index).find? i "id" = some id) : w.idType i = id.type.withNullable false := by
  obtain ⟨id', hid', htype⟩ := hw.keeps i "id" id hid
  simp [Workspace.idType, hid', htype]

/-- A field with the type of the primary key of a class can refer to it. -/
lemma Consistent.refersTo (ht : Typed index) {w : Workspace} (hw : Consistent index w) {c : TableClass}
    (hc : c.Belongs index) {t : TypeDef} (hwf : t.WellFormed (TypeDef.IsReference index.entities))
    (hsame : t.sameBase (w.idType c.position) = true) {r : ForeignKeyRelation}
    (hr : r.referencedField = "id") (hparent : r.parentTable = c.table) : RefersTo index t r := by
  obtain ⟨id, hid, nullable, hidType⟩ := ht.exists_id hc
  rw [hw.idType_eq hid] at hsame
  have heq := TypeDef.eq_of_sameBase hwf ⟨false, ?_⟩ hsame
  · exact ⟨hr, c, hc, hparent, id, hid, heq⟩
  · rcases hidType with hidType | hidType
    · exact Or.inl (by rw [hidType]; rfl)
    · exact Or.inr (by rw [hidType]; rfl)

/-- A key that is added with the type of the primary key of a class is admissible. -/
lemma Consistent.admissible_key (ht : Typed index) {w : Workspace} (hw : Consistent index w)
    {c : TableClass} (hc : c.Belongs index) {i : Nat} {k : FieldDraft} {nullable : Bool}
    {r : ForeignKeyRelation} (htype : k.type = (w.idType c.position).withNullable nullable)
    (hrelation : k.relation = some (.foreignKey r)) (hr : r.referencedField = "id")
    (hparent : r.parentTable = c.table) (hstored : k.shouldPersist = true) : Admissible index i k := by
  obtain ⟨id, hid, nullable', hidType⟩ := ht.exists_id hc
  rw [hw.idType_eq hid] at htype
  refine ⟨?_, ?_, ?_⟩
  · rw [htype]
    rcases hidType with hidType | hidType
    · rw [hidType]
      exact TypeDef.WellFormed.scalar (show builtin? "int" = some .scalar by decide)
    · rw [hidType]
      exact TypeDef.WellFormed.scalar (show builtin? "UuidValue" = some .scalar by decide)
  · intro r' hr'
    obtain rfl : r = r' := by
      rw [hrelation] at hr'
      cases hr'
      rfl
    refine ⟨hr, c, hc, hparent, id, hid, ?_⟩
    rw [htype]
    rfl
  · intro hunstored
    rw [hstored] at hunstored
    cases hunstored

lemma belongs_of_tableClass {s : Site} {t : TypeDef} {target : TableClass}
    (h : s.tableClass t = .ok target) : target.Belongs s.index := by
  obtain ⟨hclass, htable⟩ := Site.tableClass_eq_ok_iff.mp h
  exact ⟨(EntityIndex.findClass?_eq_some hclass).2.2.1, htable⟩

/-- A list is a container. -/
lemma Site.ListTarget.category_eq {s : Site} {t : TypeDef} {target : TableClass}
    (h : s.ListTarget t target) : s.field.type.category = .container := by
  have helement := h.element
  unfold TypeDef.listElement? at helement
  split at helement
  · rename_i hlist
    simp only [Bool.and_eq_true, beq_iff_eq] at hlist
    exact hlist.1
  · cases helement

/-- Relating the field that holds objects is sound. -/
lemma sound_relate_holder {w : Workspace} {i : Nat} {n : String} {d : FieldDraft} {r : RelationDef}
    (hd : w.find? i n = some d) (hr : r.foreignKey? = none) (hcategory : d.type.category ≠ .scalar) :
    Sound index w (.relate i n r) where
  relate i' n' r' h := by
    cases h
    refine ⟨d, hd, ?_, fun _ => hcategory⟩
    rintro k rfl
    cases hr
  key k hk := by cases hk

/-- Relating a field that can refer to a primary key is sound. -/
lemma sound_relate_key {w : Workspace} {i : Nat} {n : String} {d : FieldDraft} {r : ForeignKeyRelation}
    (hd : w.find? i n = some d) (hr : RefersTo index d.type r)
    (hfree : d.relation = none ∨ d.type.category = .scalar) :
    Sound index w (.relate i n (.foreignKey r)) where
  relate i' n' r' h := by
    cases h
    refine ⟨d, hd, ?_, fun hnone => by cases hnone⟩
    intro k hk
    cases hk
    exact ⟨hr, hfree⟩
  key k hk := by cases hk

/-- Adding an admissible key under a new name is sound. -/
lemma sound_add {w : Workspace} {c : Change} {k : FieldDraft} (hc : c.key? = some k)
    (hnew : w.find? c.position k.name = none) (hk : Admissible index c.position k) : Sound index w c where
  relate i n r h := by
    rw [h] at hc
    cases hc
  key k' hk' := by
    rw [hc] at hk'
    cases hk'
    exact ⟨hnew, hk⟩

/-- Linking a relation of a field that is found makes sound changes. -/
lemma Site.Link.allSound (ht : Typed index) {s : Site} (hindex : s.index = index) {cs : List Change}
    (h : s.Link cs) (hw : Consistent index s.workspace) (howner : s.owner.Belongs index)
    (hfind : s.workspace.find? s.owner.position s.field.name = some s.field) :
    AllSound index s.workspace cs := by
  have hfield := hw.fields _ _ (Workspace.mem_of_find? hfind)
  -- The field is still found when a key has been linked or added before.
  have hholder : ∀ c r, Sound index s.workspace c → RelationDef.foreignKey? r = none →
      s.field.type.category ≠ .scalar →
        Sound index (s.workspace.apply c) (.relate s.owner.position s.field.name r) := by
    intro c r hc hr hcategory
    obtain ⟨d, hd, htype⟩ :=
      Workspace.keeps_apply (fun k hk => (hc.key k hk).1) _ _ _ hfind
    exact sound_relate_holder hd hr (by rw [htype]; exact hcategory)
  cases h with
  | nothing => trivial
  | @parent p l hparent hscalar htable htype hnull =>
    rw [hindex] at htable
    obtain ⟨hget, hltable⟩ := EntityIndex.findTable?_eq_some htable
    have hbelongs : TableClass.Belongs index ⟨l.position, l.entity, p.value⟩ := ⟨hget, hltable⟩
    have hrefers : RefersTo index s.field.type (s.parentRelation p.value) :=
      hw.refersTo ht hbelongs hfield.wellFormed htype rfl rfl
    exact ⟨sound_relate_key hfind hrefers (Or.inr hscalar), trivial⟩
  | @ownField target key existing htarget hside hkey hfindKey hoption hrelation htype hnull =>
    have hbelongs := belongs_of_tableClass htarget.tableClass
    rw [hindex] at hbelongs
    have hexisting := hw.fields _ _ (Workspace.mem_of_find? hfindKey)
    have hrefers : RefersTo index existing.type (s.keyRelation target) :=
      hw.refersTo ht hbelongs hexisting.wellFormed htype rfl rfl
    have hsound := sound_relate_key hfindKey hrefers (Or.inl hrelation)
    exact ⟨hsound, hholder _ _ hsound rfl (by rw [htarget.category]; decide), trivial⟩
  | @ownAdded target htarget hside hkey hnew =>
    have hbelongs := belongs_of_tableClass htarget.tableClass
    rw [hindex] at hbelongs
    have hsound : Sound index s.workspace
        (.insertAfter s.owner.position s.field.name (s.addedKey target)) :=
      sound_add rfl hnew (hw.admissible_key ht hbelongs rfl rfl rfl rfl rfl)
    exact ⟨hsound, hholder _ _ hsound rfl (by rw [htarget.category]; decide), trivial⟩
  | @other target g htarget hside =>
    exact ⟨sound_relate_holder hfind rfl (by rw [htarget.category]; decide), trivial⟩
  | listNamed htarget =>
    exact ⟨sound_relate_holder hfind rfl (by rw [htarget.category_eq]; decide), trivial⟩
  | @listHidden t target htarget hname hnew =>
    have hsound : Sound index s.workspace (.append target.position s.hiddenKey) :=
      sound_add rfl hnew (hw.admissible_key ht howner rfl rfl rfl rfl rfl)
    exact ⟨hsound, hholder _ _ hsound rfl (by rw [htarget.category_eq]; decide), trivial⟩

/-- A field with a relation is not shadowed. -/
lemma Consistent.relationsLead (ht : Typed index) {w : Workspace} (hw : Consistent index w) (i : Nat) :
    FieldDraft.Shadowed (·.relation = none) (w.fieldsAt i) := by
  refine hw.shadowed _ (fun j => FieldDraft.shadowed_of_forall fun g hg => ?_) i
  obtain ⟨e, -, he, hge⟩ := exists_of_mem_fieldsAt hg
  exact ht.unrelated e he g hge

/-- A field with a relation is found by its name. -/
lemma Consistent.find?_of_relation (ht : Typed index) {w : Workspace} (hw : Consistent index w) {i : Nat}
    {f : FieldDraft} (hf : f ∈ w.fieldsAt i) {r : RelationDef} (hr : f.relation = some r) :
    w.find? i f.name = some f :=
  (hw.relationsLead ht i).find?_eq hf fun hnone => by
    rw [hr] at hnone
    cases hnone

/-- A scalar that is not stored has been declared so. -/
lemma Consistent.declared_of_scalar {w : Workspace} (hw : Consistent index w) {i : Nat} {f : FieldDraft}
    (hf : f ∈ w.fieldsAt i) (hscalar : f.type.category = .scalar) (hstored : f.shouldPersist = false) :
    ∃ d ∈ (initial index).fieldsAt i, d.name = f.name ∧ d.shouldPersist = false ∧ d.origin = f.origin := by
  rcases (hw.fields i f hf).stored hstored with hdeclared | ⟨hcategory, -⟩
  · exact hdeclared
  · exact absurd hscalar hcategory

/-! ### All visits -/

/-- At the beginning the workspace is consistent. -/
lemma Typed.consistent (ht : Typed index) : Consistent index (initial index) where
  keeps := Workspace.Keeps.refl _
  shadowed P hP := hP
  fields i f hf := by
    obtain ⟨e, -, he, hfe⟩ := exists_of_mem_fieldsAt hf
    refine ⟨ht.types e he f hfe, ?_, fun hstored => Or.inl ⟨f, hf, rfl, hstored, rfl⟩⟩
    intro r hr
    rw [ht.unrelated e he f hfe] at hr
    cases hr

/-- A visit is about a field that is found by its name, which is the declared one: there was one, and it is kept. -/
lemma find?_site_of_keeps {w : Workspace} (hw : (initial index).Keeps w) {v : Visit}
    (hv : v ∈ Visit.ofIndex index) :
    w.find? v.owner.position v.declared.name = some (v.site index w).field ∧
      (v.site index w).field.name = v.declared.name := by
  obtain ⟨he, -, hf, -⟩ := Visit.mem_ofIndex.mp hv
  have hdeclared : ((initial index).find? v.owner.position v.declared.name).isSome := by
    rw [Workspace.find?, fieldsAt_initial he, List.find?_isSome]
    exact ⟨v.declared, hf, by simp⟩
  obtain ⟨d, hd⟩ := Option.isSome_iff_exists.mp hdeclared
  obtain ⟨d', hd', -⟩ := hw _ _ _ hd
  rw [hd', Visit.site_field hd']
  exact ⟨rfl, Workspace.name_of_find? hd'⟩

lemma Consistent.find?_declared {w : Workspace} (hw : Consistent index w) {v : Visit}
    (hv : v ∈ Visit.ofIndex index) :
    w.find? v.owner.position v.declared.name = some (v.site index w).field :=
  (find?_site_of_keeps hw.keeps hv).1

/-- The field has the declared name. -/
lemma Consistent.name_site {w : Workspace} (hw : Consistent index w) {v : Visit}
    (hv : v ∈ Visit.ofIndex index) : (v.site index w).field.name = v.declared.name :=
  (find?_site_of_keeps hw.keeps hv).2

/-- A visit is about a field that is found by its name. -/
lemma Consistent.find?_site {w : Workspace} (hw : Consistent index w) {v : Visit}
    (hv : v ∈ Visit.ofIndex index) :
    w.find? v.owner.position (v.site index w).field.name = some (v.site index w).field := by
  rw [hw.name_site hv]
  exact hw.find?_declared hv

/-- A visit makes sound changes. -/
lemma Consistent.allSound (ht : Typed index) {w : Workspace} (hw : Consistent index w) {v : Visit}
    (hv : v ∈ Visit.ofIndex index) : AllSound index w (v.site index w).resolve.changes := by
  obtain ⟨he, htable, -, -⟩ := Visit.mem_ofIndex.mp hv
  exact Site.Link.allSound ht (s := v.site index w) rfl (Site.link_resolve _) hw ⟨he, htable⟩ (hw.find?_site hv)

/-- What every visit of a consistent workspace keeps, visits after each other keep. -/
lemma runAll_induction (ht : Typed index) {P : Workspace → Prop}
    (hvisit : ∀ w, ∀ v ∈ Visit.ofIndex index, Consistent index w → P w →
      P (w.applyAll (v.site index w).resolve.changes)) {w : Workspace} {vs : List Visit}
    (hvs : ∀ v ∈ vs, v ∈ Visit.ofIndex index) (hw : Consistent index w) (hP : P w) :
    P (runAll index w vs).1 := by
  induction vs generalizing w with
  | nil => exact hP
  | cons v vs ih =>
    have hv := hvs v List.mem_cons_self
    have hnext := consistent_applyAll hw (hw.allSound ht hv)
    exact ih (fun v' hv' => hvs v' (List.mem_cons_of_mem v hv')) hnext (hvisit w v hv hw hP)

/-- What holds at the beginning and is kept by every visit of a consistent workspace holds when all relations have
been resolved. -/
theorem visited_induction (ht : Typed index) {P : Workspace → Prop} (hinitial : P (initial index))
    (hvisit : ∀ w, ∀ v ∈ Visit.ofIndex index, Consistent index w → P w →
      P (w.applyAll (v.site index w).resolve.changes)) : P (visited index).1 :=
  runAll_induction ht hvisit (fun _ hv => hv) ht.consistent hinitial

/-- When all relations have been resolved, the workspace is consistent. -/
theorem consistent_visited (ht : Typed index) : Consistent index (visited index).1 :=
  visited_induction ht ht.consistent fun _ _ hv hw _ => consistent_applyAll hw (hw.allSound ht hv)

end Keys

end RelationResolution

end EntitySchema
