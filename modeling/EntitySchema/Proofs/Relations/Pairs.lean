import Mathlib.Data.List.Basic
import Mathlib.Tactic.Common
import EntitySchema.Proofs.Relations.Definitions

/-!
# Pairs of fields

A named relation is meant to pair two fields.  A field that holds an object or a list looks for its
`Counterpart` when it is visited, and has one if there are no errors (`hasCounterpart_of_visit`); a field
with a parent table looks for none.  A counterpart is under the relation name itself, so the one that it has
in turn can only be the field again (`Counterpart.symm`).  Hence all fields are paired if and only if those
with parent tables have counterparts (`paired_compile`).
-/

namespace EntitySchema

/-- The parent table that a field declares. -/
def FieldDraft.parentTable? (f : FieldDraft) : Option String :=
  f.relationOption.bind fun o => o.parent.map (·.value)

/-- A field refers to the class of its object, to the class of the elements of its list, and to the class
with its parent table. -/
inductive FieldDraft.RefersTo (f : FieldDraft) (t : Entity) : Prop
  | object (hpoints : f.type.pointsTo t = true)
  | element {x : TypeDef} (helement : f.type.listElement? = some x) (hpoints : x.pointsTo t = true)
  | parent {table : String} (hparent : f.parentTable? = some table) (htable : t.table? = some table)

/-- The fields of an entity under a relation name, other than the field `f` of `e`. -/
def Entity.othersNamed (t : Entity) (name : String) (e : Entity) (f : FieldDraft) : List FieldDraft :=
  t.fields.filter fun g => g.relationName? == some name && !(t.key == e.key && g.name == f.name)

/-- A field of an entity under a relation name. -/
structure NamedField (index : EntityIndex) (name : String) (e : Entity) (f : FieldDraft) : Prop where
  entity : e ∈ index.entities
  field : f ∈ e.fields
  named : f.relationName? = some name

/-- The field `f` of `e` refers to `t`, where `g` is the only other field under the relation name, and `g`
refers back. -/
structure Counterpart (name : String) (e : Entity) (f : FieldDraft) (t : Entity) (g : FieldDraft) :
    Prop where
  refers : f.RefersTo t
  only : t.othersNamed name e f = [g]
  back : g.RefersTo e

/-- A field has a counterpart. -/
def HasCounterpart (index : EntityIndex) (name : String) (e : Entity) (f : FieldDraft) : Prop :=
  ∃ t ∈ index.entities, ∃ g, Counterpart name e f t g

/-- A field and another one are the counterparts of each other. -/
def Paired (index : EntityIndex) (name : String) (e : Entity) (f : FieldDraft) : Prop :=
  ∃ t ∈ index.entities, ∃ g, Counterpart name e f t g ∧ Counterpart name t g e f

section Counterpart

variable {index : EntityIndex} {name : String} {e t : Entity} {f g h : FieldDraft}

lemma Entity.mem_othersNamed :
    g ∈ t.othersNamed name e f ↔
      g ∈ t.fields ∧ g.relationName? = some name ∧ (t.key = e.key → g.name ≠ f.name) := by
  simp [Entity.othersNamed, List.mem_filter, Decidable.imp_iff_not_or]

/-- What a field refers to depends on its type and its relation option. -/
lemma FieldDraft.RefersTo.congr (hf : f.RefersTo t) (htype : f.type = g.type)
    (hoption : f.relationOption = g.relationOption) : g.RefersTo t := by
  cases hf with
  | object hpoints => exact .object (htype ▸ hpoints)
  | element helement hpoints => exact .element (htype ▸ helement) hpoints
  | parent hparent htable =>
    refine .parent ?_ htable
    rw [← hparent, FieldDraft.parentTable?, FieldDraft.parentTable?, hoption]

/-- A counterpart is another field of its class under the relation name. -/
lemma Counterpart.mem (hg : Counterpart name e f t g) :
    g ∈ t.fields ∧ g.relationName? = some name ∧ (t.key = e.key → g.name ≠ f.name) := by
  rw [← Entity.mem_othersNamed, hg.only]
  exact List.mem_singleton_self g

/-- A counterpart takes part in the relation. -/
lemma Counterpart.namedField (hg : Counterpart name e f t g) (ht : t ∈ index.entities) :
    NamedField index name t g :=
  ⟨ht, hg.mem.1, hg.mem.2.1⟩

/-- If the counterpart of a field has a counterpart, it is the field. -/
theorem Counterpart.symm (hg : Counterpart name e f t g) (hf : NamedField index name e f)
    (hh : Counterpart name t g e h) : Counterpart name t g e f := by
  have hmem : f ∈ e.othersNamed name t g := by
    refine Entity.mem_othersNamed.mpr ⟨hf.field, hf.named, fun hkey => ?_⟩
    exact (hg.mem.2.2 hkey.symm).symm
  rw [hh.only, List.mem_singleton] at hmem
  rw [hmem]
  exact hh

end Counterpart

namespace RelationResolution

section Visits

variable {index : EntityIndex}

/-! ### What a field refers to -/

/-- A type stands for one entity. -/
lemma Prepared.eq_of_pointsTo (hp : Prepared index) {x : TypeDef} {e e' : Entity}
    (he : e ∈ index.entities) (he' : e' ∈ index.entities) (h : x.pointsTo e = true)
    (h' : x.pointsTo e' = true) : e' = e := by
  obtain ⟨i, hi⟩ := List.mem_iff_getElem?.mp he
  obtain ⟨j, hj⟩ := List.mem_iff_getElem?.mp he'
  simp only [TypeDef.pointsTo, Bool.and_eq_true, beq_iff_eq] at h h'
  have halias : e.moduleAlias = e'.moduleAlias := Option.some.inj (h.2.symm.trans h'.2)
  have hkey : e.key = e'.key := by
    rw [Entity.key, Entity.key, ← h.1.2, ← h'.1.2, halias]
  obtain rfl := hp.position_eq_of_key hi hj hkey
  exact Option.some.inj (hj.symm.trans hi)

/-- The fields that a visit can find are the other ones under the name. -/
lemma Prepared.partners_eq (hp : Prepared index) {v : Visit} (hv : v ∈ Visit.ofIndex index)
    {target : TableClass} (htarget : target.Belongs index) (name : String) :
    v.partners index target.position name =
      (target.entity.othersNamed name v.owner.entity v.declared).filterMap FieldDraft.optioned? := by
  have howner := (Visit.belongs hv).entity
  -- Positions and keys tell entities apart in the same way.
  have hsame : (target.position == v.owner.position) = (target.entity.key == v.owner.entity.key) := by
    rw [Bool.eq_iff_iff, beq_iff_eq, beq_iff_eq]
    constructor
    · intro hposition
      have hget := htarget.entity
      rw [hposition, howner] at hget
      rw [Option.some.inj hget]
    · exact hp.position_eq_of_key htarget.entity howner
  rw [Visit.partners, fieldsAt_initial htarget.entity, Entity.othersNamed, List.filter_filterMap,
    List.filterMap_filter]
  refine List.filterMap_congr fun f _ => ?_
  cases ho : f.relationOption with
  | none => simp [FieldDraft.optioned?, FieldDraft.relationName?, ho]
  | some o => simp [FieldDraft.optioned?, FieldDraft.relationName?, ho, hsame, Option.filter]

/-- A table belongs to one entity. -/
lemma eq_of_table? (htables : index.entities.Pairwise fun e e' => ∀ t, e.table? = some t → e'.table? ≠ some t)
    {table : String} {e e' : Entity} (he : e ∈ index.entities) (he' : e' ∈ index.entities)
    (h : e.table? = some table) (h' : e'.table? = some table) : e' = e := by
  obtain ⟨i, hi⟩ := List.mem_iff_getElem?.mp he
  obtain ⟨j, hj⟩ := List.mem_iff_getElem?.mp he'
  obtain rfl := eq_of_pairwise htables hi hj (fun hne => hne _ h h') fun hne => hne _ h' h
  exact Option.some.inj (hj.symm.trans hi)

/-- A field refers to one class, if it is a scalar where it has a parent table. -/
lemma Prepared.eq_of_refersTo (hp : Prepared index)
    (htables : index.entities.Pairwise fun e e' => ∀ t, e.table? = some t → e'.table? ≠ some t)
    {f : FieldDraft} (hscalar : ∀ table, f.parentTable? = some table → f.type.category = .scalar)
    {t t' : Entity} (ht : t ∈ index.entities) (ht' : t' ∈ index.entities) (h : f.RefersTo t)
    (h' : f.RefersTo t') : t' = t := by
  have hlist : ∀ x, f.type.listElement? = some x → f.type.category = .container := by
    intro x hx
    simp only [TypeDef.listElement?, Option.ite_none_right_eq_some, Bool.and_eq_true, beq_iff_eq] at hx
    exact hx.1.1
  cases h with
  | object hpoints =>
    have hcategory := category_of_pointsTo hpoints
    cases h' with
    | object hpoints' => exact hp.eq_of_pointsTo ht ht' hpoints hpoints'
    | element helement' => simp [hlist _ helement'] at hcategory
    | parent hparent' => simp [hscalar _ hparent'] at hcategory
  | element helement hpoints =>
    have hcategory := hlist _ helement
    cases h' with
    | object hpoints' => simp [category_of_pointsTo hpoints'] at hcategory
    | element helement' hpoints' =>
      obtain rfl := Option.some.inj (helement.symm.trans helement')
      exact hp.eq_of_pointsTo ht ht' hpoints hpoints'
    | parent hparent' => simp [hscalar _ hparent'] at hcategory
  | parent hparent htable =>
    have hcategory := hscalar _ hparent
    cases h' with
    | object hpoints' => simp [category_of_pointsTo hpoints'] at hcategory
    | element helement' => simp [hlist _ helement'] at hcategory
    | parent hparent' htable' =>
      obtain rfl := Option.some.inj (hparent.symm.trans hparent')
      exact eq_of_table? htables ht ht' htable htable'

/-! ### Counterparts -/

section Visit

variable {v : Visit}

/-- If all elements of a list have a value and the values are a single one, so are the elements. -/
lemma eq_singleton_of_filterMap {α β : Type} {p : α → Option β} {l : List α} {b : β}
    (h : ∀ a ∈ l, p a ≠ none) (hl : l.filterMap p = [b]) : ∃ a, l = [a] ∧ p a = some b := by
  obtain ⟨l₁, a, l₂, rfl, hbefore, ha, hafter⟩ := List.filterMap_eq_cons_iff.mp hl
  have hnil₁ : l₁ = [] := List.eq_nil_iff_forall_not_mem.mpr fun x hx =>
    h x (List.mem_append_left _ hx) (hbefore x hx)
  have hnil₂ : l₂ = [] := List.eq_nil_iff_forall_not_mem.mpr fun x hx =>
    h x (List.mem_append_right _ (List.mem_cons_of_mem a hx)) (List.filterMap_eq_nil_iff.mp hafter x hx)
  exact ⟨a, by rw [hnil₁, hnil₂, List.nil_append], ha⟩

/-- The field that a visit finds is a declared one, and no other one in its class is under the name. -/
lemma Moment.exists_other {u : Workspace} (m : MomentOf index v u) (hp : Prepared index)
    (hv : v ∈ Visit.ofIndex index) {target : TableClass} (htarget : target.Belongs index)
    {name : Spanned String} (hname : v.option.name = some name) {g : FieldDraft}
    (hg : (v.site index u).counterpart target name = .ok g) :
    ∃ d, target.entity.othersNamed name.value v.owner.entity v.declared = [d] ∧ g.type = d.type ∧
      g.relationOption = d.relationOption := by
  obtain ⟨v', -, faces⟩ := exists_counterpart hv m htarget hname hg
  have hdata : g.optioned? = some (g.name, g.type, v'.option) := by
    simp [FieldDraft.optioned?, faces.option_eq]
  -- Every field under the name has a relation option.
  have hoptioned : ∀ d ∈ target.entity.othersNamed name.value v.owner.entity v.declared,
      d.optioned? ≠ none := by
    intro d hd hnone
    obtain ⟨-, hdname, -⟩ := Entity.mem_othersNamed.mp hd
    obtain ⟨o, ho, -⟩ := Option.bind_eq_some_iff.mp hdname
    simp [FieldDraft.optioned?, ho] at hnone
  have hpartners := m.counterparts_optioned? target name.value
  rw [Site.counterpart_eq_ok_iff.mp hg, hp.partners_eq hv htarget, List.filterMap_cons, hdata,
    List.filterMap_nil] at hpartners
  obtain ⟨d, hd, hddata⟩ := eq_singleton_of_filterMap hoptioned hpartners.symm
  obtain ⟨-, htype, hoption⟩ := FieldDraft.eq_of_optioned? (hdata.trans hddata.symm) faces.option_eq
  exact ⟨d, hd, htype, faces.option_eq.trans hoption.symm⟩

/-- A visited field with a parent table is a scalar, and a class has the table. -/
lemma Prepared.parent_of_visit (hp : Prepared index) (hno : Diagnostic.hasErrors (visited index).2 = false)
    (hv : v ∈ Visit.ofIndex index) {table : String} (hparent : v.declared.parentTable? = some table) :
    v.declared.type.category = .scalar ∧ ∃ l, index.findTable? table = some l := by
  rw [FieldDraft.parentTable?, (Visit.mem_ofIndex.mp hv).2.2.2, Option.bind_some] at hparent
  obtain ⟨p, hp', rfl⟩ := Option.map_eq_some_iff.mp hparent
  obtain ⟨u, m⟩ := exists_moment hp.ready v hv
  obtain ⟨hscalar, htable, -⟩ := m.parent_cases (changes_ne_nil hp hno hv m) hp'
  exact ⟨hscalar, htable⟩

/-- A visited field of a named relation without a parent table finds a field that refers back. -/
lemma Moment.exists_answer {u : Workspace} (m : MomentOf index v u) (hp : Prepared index)
    (hno : Diagnostic.hasErrors (visited index).2 = false) (hv : v ∈ Visit.ofIndex index)
    (hparent : v.option.parent = none) {name : Spanned String} (hname : v.option.name = some name) :
    ∃ target g, target.Belongs index ∧ v.declared.RefersTo target.entity ∧
      (v.site index u).counterpart target name = .ok g ∧ g.RefersTo v.owner.entity := by
  have hlink := Site.link_resolve (v.site index u)
  have hne := changes_ne_nil hp hno hv m
  generalize (v.site index u).resolve.changes = cs at hlink hne
  cases hlink with
  | nothing => exact absurd rfl hne
  | parent hsome =>
    rw [Visit.site_option, hparent] at hsome
    cases hsome
  | ownField htarget hside | ownAdded htarget hside =>
    obtain ⟨hbelongs, hpoints⟩ := htarget.resolved hp hv m
    rcases Site.keySide_eq_own_iff.mp hside with hnone | ⟨name', g, hname', hg, hback⟩
    · rw [Visit.site_option, hname] at hnone
      cases hnone
    · obtain rfl : name = name' := Option.some.inj (hname.symm.trans hname')
      refine ⟨_, g, hbelongs, .object hpoints, hg, ?_⟩
      rcases hback with ⟨hback, -⟩ | ⟨-, hback⟩
      · exact .object hback
      · obtain ⟨x, hx, hback⟩ := (Option.any_eq_true _ _).mp hback
        exact .element hx hback
  | other htarget hside =>
    obtain ⟨hbelongs, hpoints⟩ := htarget.resolved hp hv m
    obtain ⟨name', hname', hg, hback, -⟩ := Site.keySide_eq_other_iff.mp hside
    obtain rfl : name = name' := Option.some.inj (hname.symm.trans hname')
    exact ⟨_, _, hbelongs, .object hpoints, hg, .object hback⟩
  | listNamed htarget hname' hkey =>
    obtain ⟨hbelongs, helement, hpoints⟩ := htarget.resolved hp hv m
    obtain ⟨g, hg, hback⟩ := Site.counterpartKey_eq_ok_iff.mp hkey
    obtain rfl := Option.some.inj (hname.symm.trans hname')
    refine ⟨_, g, hbelongs, .element helement hpoints, hg, ?_⟩
    rcases hback with ⟨hback, -⟩ | ⟨-, hback, -⟩
    · exact .object hback
    · -- The other field has the table of the class as its parent.
      obtain ⟨p, hp', htable⟩ := (Option.any_eq_true _ _).mp hback
      obtain ⟨o, ho, hop⟩ := Option.bind_eq_some_iff.mp hp'
      have hparent' : g.parentTable? = some p.value := by
        rw [FieldDraft.parentTable?, ho, Option.bind_some, hop, Option.map_some]
      refine .parent hparent' ?_
      rw [(Visit.belongs hv).table, eq_of_beq htable, Visit.site_owner]
  | listHidden htarget hnone =>
    rw [Visit.site_option, hname] at hnone
    cases hnone

/-- Without errors a visited field of a named relation without a parent table has a counterpart. -/
theorem hasCounterpart_of_visit (hp : Prepared index)
    (hno : Diagnostic.hasErrors (visited index).2 = false) (hv : v ∈ Visit.ofIndex index)
    (hparent : v.declared.parentTable? = none) {name : String}
    (hname : v.declared.relationName? = some name) :
    HasCounterpart index name v.owner.entity v.declared := by
  have hoption := (Visit.mem_ofIndex.mp hv).2.2.2
  rw [FieldDraft.parentTable?, hoption, Option.bind_some, Option.map_eq_none_iff] at hparent
  rw [FieldDraft.relationName?, hoption, Option.bind_some] at hname
  obtain ⟨n, hn, rfl⟩ := Option.map_eq_some_iff.mp hname
  obtain ⟨u, m⟩ := exists_moment hp.ready v hv
  obtain ⟨target, g, htarget, hrefers, hg, hback⟩ := m.exists_answer hp hno hv hparent hn
  obtain ⟨d, honly, htype, hoption⟩ := m.exists_other hp hv htarget hn hg
  exact ⟨target.entity, List.mem_of_getElem? htarget.entity, d, hrefers, honly, hback.congr htype hoption⟩

end Visit

end Visits

end RelationResolution

namespace Compilation

section Pairs

variable {project : ModuleSource} {dependencies : List ModuleSource} {given : List Diagnostic}
  {name : String} {e t : Entity} {f g : FieldDraft}

/-- A field of a named relation without a parent table has a counterpart. -/
lemma Accepted.hasCounterpart (h : Accepted project dependencies)
    (hlead : ∀ e ∈ (declarations project dependencies).entities, e.LiteralsLead)
    (hf : NamedField (declarations project dependencies).typed name e f) (hparent : f.parentTable? = none) :
    HasCounterpart (declarations project dependencies).typed name e f := by
  obtain ⟨v, hv, rfl, rfl, -⟩ := exists_visit h hf.entity hf.field hf.named
  exact RelationResolution.hasCounterpart_of_visit (h.prepared hlead) h.linked hv hparent hf.named

/-- A field of a named relation refers to one class. -/
lemma Accepted.refersTo_iff (h : Accepted project dependencies)
    (hlead : ∀ e ∈ (declarations project dependencies).entities, e.LiteralsLead)
    (hf : NamedField (declarations project dependencies).typed name e f) :
    ∃ t ∈ (declarations project dependencies).typed.entities,
      ∀ t' ∈ (declarations project dependencies).typed.entities, f.RefersTo t' ↔ t' = t := by
  have hp := h.prepared hlead
  obtain ⟨v, hv, rfl, rfl, -⟩ := exists_visit h hf.entity hf.field hf.named
  obtain ⟨t, ht, hrefers⟩ : ∃ t ∈ (declarations project dependencies).typed.entities,
      v.declared.RefersTo t := by
    cases hparent : v.declared.parentTable? with
    | none =>
      obtain ⟨t, ht, g, hg⟩ := h.hasCounterpart hlead hf hparent
      exact ⟨t, ht, hg.refers⟩
    | some table =>
      obtain ⟨-, l, hl⟩ := hp.parent_of_visit h.linked hv hparent
      obtain ⟨hget, htable⟩ := EntityIndex.findTable?_eq_some hl
      exact ⟨l.entity, List.mem_of_getElem? hget, .parent hparent htable⟩
  refine ⟨t, ht, fun t' ht' => ⟨fun hrefers' => ?_, ?_⟩⟩
  · have hscalar : ∀ table, v.declared.parentTable? = some table → v.declared.type.category = .scalar :=
      fun table hparent => (hp.parent_of_visit h.linked hv hparent).1
    exact hp.eq_of_refersTo h.unique.2 hscalar ht ht' hrefers hrefers'
  · rintro rfl
    exact hrefers

/-- If the counterpart of a field has a counterpart, the two are the counterparts of each other. -/
lemma Accepted.counterpart_symm (h : Accepted project dependencies)
    (hlead : ∀ e ∈ (declarations project dependencies).entities, e.LiteralsLead)
    (hf : NamedField (declarations project dependencies).typed name e f)
    (ht : t ∈ (declarations project dependencies).typed.entities) (hg : Counterpart name e f t g)
    (hback : HasCounterpart (declarations project dependencies).typed name t g) :
    Counterpart name t g e f := by
  obtain ⟨e', he', f', hf'⟩ := hback
  -- The counterpart refers to the class of the field and to no other one.
  obtain ⟨e₀, -, honly⟩ := h.refersTo_iff hlead (hg.namedField ht)
  obtain rfl : e' = e := by
    rw [(honly e' he').mp hf'.refers, (honly e hf.entity).mp hg.back]
  exact hg.symm hf hf'

/-- In a compilation without errors, in which a field that is named like a literal and declares a relation is
the first one of its name, every field of a named relation refers to one class.  If it has no parent table,
it has a counterpart there; and it is the counterpart of its counterpart, unless that one has a parent table
and no counterpart.  So all fields of named relations are paired if and only if those with parent tables have
counterparts. -/
theorem paired_compile (hno : (compile project dependencies given).hasErrors = false)
    (hlead : ∀ e ∈ (declarations project dependencies).entities, e.LiteralsLead) :
    (∀ name e f, NamedField (declarations project dependencies).typed name e f →
      (∃ t ∈ (declarations project dependencies).typed.entities,
        ∀ t' ∈ (declarations project dependencies).typed.entities, f.RefersTo t' ↔ t' = t) ∧
      (f.parentTable? = none → HasCounterpart (declarations project dependencies).typed name e f) ∧
      ∀ t ∈ (declarations project dependencies).typed.entities, ∀ g, Counterpart name e f t g →
        (g.parentTable? = none ∨ HasCounterpart (declarations project dependencies).typed name t g) →
          Counterpart name t g e f) ∧
    ((∀ name e f, NamedField (declarations project dependencies).typed name e f →
        Paired (declarations project dependencies).typed name e f) ↔
      ∀ name e f, NamedField (declarations project dependencies).typed name e f → f.parentTable? ≠ none →
        HasCounterpart (declarations project dependencies).typed name e f) := by
  have h := accepted_of_hasErrors hno
  refine ⟨fun name e f hf => ⟨h.refersTo_iff hlead hf, h.hasCounterpart hlead hf, ?_⟩, ?_, ?_⟩
  · intro t ht g hg hback
    refine h.counterpart_symm hlead hf ht hg ?_
    rcases hback with hparent | hback
    · exact h.hasCounterpart hlead (hg.namedField ht) hparent
    · exact hback
  · intro hpaired name e f hf _
    obtain ⟨t, ht, g, hg, -⟩ := hpaired name e f hf
    exact ⟨t, ht, g, hg⟩
  · intro hparents name e f hf
    have hall : ∀ e f, NamedField (declarations project dependencies).typed name e f →
        HasCounterpart (declarations project dependencies).typed name e f := by
      intro e f hf
      by_cases hparent : f.parentTable? = none
      · exact h.hasCounterpart hlead hf hparent
      · exact hparents name e f hf hparent
    obtain ⟨t, ht, g, hg⟩ := hall e f hf
    exact ⟨t, ht, g, hg, h.counterpart_symm hlead hf ht hg (hall t g (hg.namedField ht))⟩

/-- Posts with the post that they answer, under a relation name that no other field has. -/
def answers : ModuleSource :=
  sampleModule "answers"
    ["class: Post", "table: post", "fields:",
      "  answered: int?, relation(name=thread, parent=post)"]

/-- The lead of an employee is paired, and the post that a post answers is not, without any error. -/
theorem paired_compile_staff :
    (∃ e f, NamedField (declarations staff []).typed "team" e f ∧ f.name = "lead" ∧
      Paired (declarations staff []).typed "team" e f) ∧
    (compile answers [] []).hasErrors = false ∧
      ∃ e f, NamedField (declarations answers []).typed "thread" e f ∧
        ¬ Paired (declarations answers []).typed "thread" e f := by
  refine ⟨?_, by decide +kernel, ?_⟩
  · have hlead : ∀ e ∈ (declarations staff []).entities, e.LiteralsLead :=
      fun e he => Entity.literalsLead_of_nodup (nodup_staff e he)
    have hparents : ∀ e ∈ (declarations staff []).typed.entities, ∀ f ∈ e.fields,
        f.parentTable? = none := by
      decide +kernel
    obtain ⟨e, he, f, hf, hname, hfield⟩ : ∃ e ∈ (declarations staff []).typed.entities, ∃ f ∈ e.fields,
        f.relationName? = some "team" ∧ f.name = "lead" := by
      decide +kernel
    have hnamed : NamedField (declarations staff []).typed "team" e f := ⟨he, hf, hname⟩
    refine ⟨e, f, hnamed, hfield, (paired_compile hasErrors_staff hlead).2.mpr ?_ "team" e f hnamed⟩
    exact fun _ e f hf hparent => absurd (hparents e hf.entity f hf.field) hparent
  · obtain ⟨e, he, f, hf, hname, hnone⟩ : ∃ e ∈ (declarations answers []).typed.entities, ∃ f ∈ e.fields,
        f.relationName? = some "thread" ∧
          ∀ t ∈ (declarations answers []).typed.entities, (t.othersNamed "thread" e f).isEmpty = true := by
      decide +kernel
    refine ⟨e, f, ⟨he, hf, hname⟩, ?_⟩
    rintro ⟨t, ht, g, hg, -⟩
    have hempty := hnone t ht
    rw [hg.only] at hempty
    cases hempty

end Pairs

end Compilation

end EntitySchema
