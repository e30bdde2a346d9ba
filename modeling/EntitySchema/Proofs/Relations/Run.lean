import Mathlib.Data.List.Basic
import Mathlib.Tactic.Common
import EntitySchema.Proofs.Relations.Changes

/-!
# What resolving all relations does

The fields with relation options are visited one after the other (`resolveFrom_eq_runAll`).  Where every
such field is the first one of its name, every visit finds its field as it was declared, and the changes it
makes are fresh.  So for every visit there is a `Moment`: a workspace that the first one has
grown into, in which the field is still as declared, and whose changes have grown into the last workspace.
Every relation in the last workspace was written at one of these moments (`written_runAll`).
-/

namespace EntitySchema

/-- A field that declares a relation is the first one of its name. -/
def Entity.RelationsLead (e : Entity) : Prop :=
  FieldDraft.Shadowed (·.relationOption = none) e.fields

namespace RelationResolution

/-! ### Visits -/

/-- A field that declares a relation, and its class. -/
structure Visit where
  owner : TableClass
  declared : FieldDraft
  option : RelationOption

namespace Visit

/-- What the relation is resolved against in a workspace. -/
def site (index : EntityIndex) (v : Visit) (w : Workspace) : Site :=
  ⟨index, w, v.owner, (w.find? v.owner.position v.declared.name).getD v.declared, v.option⟩

/-- The visits of fields of a class. -/
def ofFields (owner : TableClass) (fields : List FieldDraft) : List Visit :=
  fields.filterMap fun f => f.relationOption.map fun o => ⟨owner, f, o⟩

/-- The visits of an entity at a position. -/
def ofEntity (position : Nat) (e : Entity) : List Visit :=
  e.table?.elim [] fun table => ofFields ⟨position, e, table⟩ e.fields

/-- The visits of entities from a position on. -/
def ofEntities (position : Nat) : List Entity → List Visit
  | [] => []
  | e :: es =>
    (e.table?.elim [] fun table => ofFields ⟨position, e, table⟩ e.fields) ++ ofEntities (position + 1) es

/-- The visits of all classes with a table. -/
def ofIndex (index : EntityIndex) : List Visit :=
  ofEntities 0 index.entities

/-- Two visits are about different fields. -/
def Apart (v v' : Visit) : Prop :=
  v.owner.position = v'.owner.position → v.declared.name ≠ v'.declared.name

@[simp] lemma site_workspace (index : EntityIndex) (v : Visit) (w : Workspace) :
    (v.site index w).workspace = w := rfl

@[simp] lemma site_owner (index : EntityIndex) (v : Visit) (w : Workspace) :
    (v.site index w).owner = v.owner := rfl

@[simp] lemma site_option (index : EntityIndex) (v : Visit) (w : Workspace) :
    (v.site index w).option = v.option := rfl

/-- A visit is about the field that has its name. -/
lemma site_field {index : EntityIndex} {v : Visit} {w : Workspace} {f : FieldDraft}
    (h : w.find? v.owner.position v.declared.name = some f) : (v.site index w).field = f := by
  simp [site, h]

lemma mem_ofFields {owner : TableClass} {fields : List FieldDraft} {v : Visit} :
    v ∈ ofFields owner fields ↔
      v.owner = owner ∧ v.declared ∈ fields ∧ v.declared.relationOption = some v.option := by
  obtain ⟨owner', declared, option⟩ := v
  simp only [ofFields, List.mem_filterMap, Option.map_eq_some_iff, mk.injEq]
  constructor
  · rintro ⟨f, hf, o, ho, rfl, rfl, rfl⟩
    exact ⟨rfl, hf, ho⟩
  · rintro ⟨rfl, hf, ho⟩
    exact ⟨declared, hf, option, ho, rfl, rfl, rfl⟩

lemma mem_ofEntity {n : Nat} {e : Entity} {v : Visit} :
    v ∈ ofEntity n e ↔
      v.owner.position = n ∧ v.owner.entity = e ∧ e.table? = some v.owner.table ∧ v.declared ∈ e.fields ∧
        v.declared.relationOption = some v.option := by
  unfold ofEntity
  cases ht : e.table? with
  | none => simp
  | some table =>
    rw [Option.elim_some, mem_ofFields]
    constructor
    · rintro ⟨howner, hf, ho⟩
      rw [howner]
      exact ⟨rfl, rfl, rfl, hf, ho⟩
    · rintro ⟨hpos, hentity, htable, hf, ho⟩
      obtain rfl := Option.some.inj htable
      rw [← hpos, ← hentity]
      exact ⟨rfl, hentity ▸ hf, ho⟩

lemma ofEntities_cons (n : Nat) (e : Entity) (es : List Entity) :
    ofEntities n (e :: es) = ofEntity n e ++ ofEntities (n + 1) es := rfl

lemma mem_ofEntities {n : Nat} {es : List Entity} {v : Visit} :
    v ∈ ofEntities n es ↔
      ∃ i, v.owner.position = n + i ∧ es[i]? = some v.owner.entity ∧
        v.owner.entity.table? = some v.owner.table ∧ v.declared ∈ v.owner.entity.fields ∧
          v.declared.relationOption = some v.option := by
  induction es generalizing n with
  | nil => simp [ofEntities]
  | cons e es ih =>
    rw [ofEntities_cons, List.mem_append, mem_ofEntity, ih]
    constructor
    · rintro (⟨hpos, rfl, h⟩ | ⟨i, hpos, hget, h⟩)
      · exact ⟨0, hpos, rfl, h⟩
      · exact ⟨i + 1, by omega, by simpa using hget, h⟩
    · rintro ⟨i, hpos, hget, h⟩
      cases i with
      | zero =>
        obtain rfl : e = v.owner.entity := Option.some.inj hget
        exact Or.inl ⟨hpos, rfl, h⟩
      | succ i => exact Or.inr ⟨i, by omega, by simpa using hget, h⟩

/-- The visits are those of the fields with relation options of classes with a table. -/
theorem mem_ofIndex {index : EntityIndex} {v : Visit} :
    v ∈ ofIndex index ↔
      index.entities[v.owner.position]? = some v.owner.entity ∧
        v.owner.entity.table? = some v.owner.table ∧ v.declared ∈ v.owner.entity.fields ∧
          v.declared.relationOption = some v.option := by
  rw [ofIndex, mem_ofEntities]
  constructor
  · rintro ⟨i, hpos, h⟩
    obtain rfl : v.owner.position = i := by omega
    exact h
  · exact fun h => ⟨v.owner.position, by omega, h⟩

/-- Fields that are the first ones of their names are visited once. -/
lemma apart_ofFields {owner : TableClass} {fields : List FieldDraft}
    (h : FieldDraft.Shadowed (·.relationOption = none) fields) :
    (ofFields owner fields).Pairwise Apart := by
  refine List.pairwise_filterMap.mpr (h.imp ?_)
  intro f g hfg v hv v' hv' _ hname
  obtain ⟨o, ho, rfl⟩ := Option.map_eq_some_iff.mp hv
  obtain ⟨o', ho', rfl⟩ := Option.map_eq_some_iff.mp hv'
  rw [hfg hname] at ho'
  cases ho'

lemma apart_ofEntities {n : Nat} {es : List Entity} (h : ∀ e ∈ es, e.RelationsLead) :
    (ofEntities n es).Pairwise Apart := by
  induction es generalizing n with
  | nil => exact List.Pairwise.nil
  | cons e es ih =>
    refine List.pairwise_append.mpr ⟨?_, ih fun e' he' => h e' (List.mem_cons_of_mem e he'), ?_⟩
    · cases e.table? with
      | none => exact List.Pairwise.nil
      | some table => exact apart_ofFields (h e List.mem_cons_self)
    · -- The classes behind the first one have other positions.
      intro v hv v' hv' hpos
      obtain ⟨i, hi, -⟩ := mem_ofEntities.mp hv'
      have hn := (mem_ofEntity.mp hv).1
      omega

end Visit

/-- Resolves the relations of visits, one after the other. -/
def runAll (index : EntityIndex) (w : Workspace) : List Visit → Workspace × List Diagnostic
  | [] => (w, [])
  | v :: vs =>
    let outcome := (v.site index w).resolve
    let rest := runAll index (w.applyAll outcome.changes) vs
    (rest.1, outcome.issues.map v.owner.entity.diagnostic ++ rest.2)

/-- Visits keep the number of entities. -/
@[simp] lemma length_runAll (index : EntityIndex) (w : Workspace) (vs : List Visit) :
    (runAll index w vs).1.fields.length = w.fields.length := by
  induction vs generalizing w with
  | nil => rfl
  | cons v vs ih => rw [runAll, ih, Workspace.length_applyAll]

lemma runAll_append (index : EntityIndex) (w : Workspace) (vs vs' : List Visit) :
    runAll index w (vs ++ vs') =
      ((runAll index (runAll index w vs).1 vs').1,
        (runAll index w vs).2 ++ (runAll index (runAll index w vs).1 vs').2) := by
  induction vs generalizing w with
  | nil => rfl
  | cons v vs ih => simp [runAll, ih]

lemma runAll_ofFields (index : EntityIndex) (owner : TableClass) (w : Workspace)
    (fields : List FieldDraft) :
    runAll index w (Visit.ofFields owner fields) =
      ((resolveFields index owner w fields).1,
        (resolveFields index owner w fields).2.map owner.entity.diagnostic) := by
  induction fields generalizing w with
  | nil => rfl
  | cons f fields ih =>
    cases ho : f.relationOption with
    | none => simp [Visit.ofFields, ho, resolveFields, ← ih]
    | some o =>
      have hcons : Visit.ofFields owner (f :: fields) = ⟨owner, f, o⟩ :: Visit.ofFields owner fields := by
        simp [Visit.ofFields, ho]
      simp [hcons, runAll, ih, resolveFields, ho, Visit.site]

/-- Resolving the relations of entities is making their visits. -/
theorem resolveFrom_eq_runAll (index : EntityIndex) (w : Workspace) (n : Nat) (es : List Entity) :
    resolveFrom index w n es = runAll index w (Visit.ofEntities n es) := by
  induction es generalizing w n with
  | nil => rfl
  | cons e es ih =>
    cases ht : e.table? with
    | none => simp [resolveFrom, Visit.ofEntities, ht, ih]
    | some table => simp [resolveFrom, Visit.ofEntities, ht, ih, runAll_append, runAll_ofFields]

/-! ### All visits -/

/-- Visits that can be made: every field is found as it was declared, and none is visited twice. -/
structure Ready (index : EntityIndex) (w : Workspace) (vs : List Visit) : Prop where
  length_eq : w.fields.length = index.entities.length
  option : ∀ v ∈ vs, v.declared.relationOption = some v.option
  unrelated : ∀ v ∈ vs, v.declared.relation = none
  found : ∀ v ∈ vs, w.find? v.owner.position v.declared.name = some v.declared
  apart : vs.Pairwise Visit.Apart

section Ready

variable {index : EntityIndex} {w : Workspace} {v : Visit} {vs : List Visit}

/-- The first visit makes fresh changes. -/
lemma Ready.allFresh (h : Ready index w (v :: vs)) : w.AllFresh (v.site index w).resolve.changes := by
  have hfound := h.found v List.mem_cons_self
  have hfield : (v.site index w).field = v.declared := Visit.site_field hfound
  have hoption := h.option v List.mem_cons_self
  refine Site.Link.allFresh (s := v.site index w) (Site.link_resolve _) h.length_eq ?_ ?_ ?_
  · rw [hfield]
    exact hfound
  · rw [hfield]
    exact h.unrelated v List.mem_cons_self
  · rw [hfield, hoption]
    exact Option.some_ne_none _

/-- After the first visit the other ones can be made. -/
lemma Ready.next (h : Ready index w (v :: vs)) :
    Ready index (w.applyAll (v.site index w).resolve.changes) vs where
  length_eq := (Workspace.grows_applyAll h.allFresh).length_eq.trans h.length_eq
  option v' hv' := h.option v' (List.mem_cons_of_mem v hv')
  unrelated v' hv' := h.unrelated v' (List.mem_cons_of_mem v hv')
  apart := (List.pairwise_cons.mp h.apart).2
  found v' hv' := by
    have hfound := h.found v' (List.mem_cons_of_mem v hv')
    refine Workspace.find?_applyAll_of_fresh h.allFresh hfound ?_
    rintro c hc r rfl
    obtain ⟨hpos, hname | ⟨d, hd, hoption⟩⟩ := Site.Link.of_relate_mem (Site.link_resolve _) hc
    · -- The visit would be about the same field.
      rw [Visit.site_field (h.found v List.mem_cons_self)] at hname
      exact (List.pairwise_cons.mp h.apart).1 v' hv' hpos.symm hname.symm
    · -- The field would declare no relation.
      rw [Visit.site_workspace, hfound] at hd
      cases hd
      rw [h.option v' (List.mem_cons_of_mem v hv')] at hoption
      cases hoption

/-- Making visits lets a workspace grow. -/
lemma grows_runAll (h : Ready index w vs) : w.Grows (runAll index w vs).1 := by
  induction vs generalizing w with
  | nil => exact Workspace.Grows.refl w
  | cons v vs ih => exact (Workspace.grows_applyAll h.allFresh).trans (ih h.next)

/-- The moment at which a field is visited. -/
structure Moment (index : EntityIndex) (w : Workspace) (vs : List Visit) (v : Visit) (u : Workspace) :
    Prop where
  before : w.Grows u
  found : u.find? v.owner.position v.declared.name = some v.declared
  fresh : u.AllFresh (v.site index u).resolve.changes
  after : (u.applyAll (v.site index u).resolve.changes).Grows (runAll index w vs).1
  silent : Diagnostic.hasErrors (runAll index w vs).2 = false → (v.site index u).resolve.issues = []

lemma Moment.site_field {u : Workspace} (m : Moment index w vs v u) :
    (v.site index u).field = v.declared :=
  Visit.site_field m.found

/-- The moment of the first visit is the beginning. -/
lemma Ready.moment (h : Ready index w (v :: vs)) : Moment index w (v :: vs) v w where
  before := Workspace.Grows.refl w
  found := h.found v List.mem_cons_self
  fresh := h.allFresh
  after := grows_runAll h.next
  silent hno := by
    simp only [runAll, Diagnostic.hasErrors_append, Bool.or_eq_false_iff] at hno
    exact Issue.eq_nil_of_hasErrors_eq_false (Site.allErrors_resolve _) hno.1

/-- A moment of the other visits is one of all visits. -/
lemma Moment.cons {v' : Visit} {u : Workspace} (h : Ready index w (v :: vs))
    (m : Moment index (w.applyAll (v.site index w).resolve.changes) vs v' u) :
    Moment index w (v :: vs) v' u where
  before := (Workspace.grows_applyAll h.allFresh).trans m.before
  found := m.found
  fresh := m.fresh
  after := m.after
  silent hno := by
    simp only [runAll, Diagnostic.hasErrors_append, Bool.or_eq_false_iff] at hno
    exact m.silent hno.2

/-- There is a moment for every visit. -/
theorem exists_moment (h : Ready index w vs) : ∀ v ∈ vs, ∃ u, Moment index w vs v u := by
  induction vs generalizing w with
  | nil => simp
  | cons v vs ih =>
    intro v' hv'
    rcases List.mem_cons.mp hv' with rfl | hv'
    · exact ⟨w, h.moment⟩
    · obtain ⟨u, m⟩ := ih h.next v' hv'
      exact ⟨u, m.cons h⟩

/-- Every relation was there before, or it was written at the moment of a visit. -/
theorem written_runAll (h : Ready index w vs) {i : Nat} {f : FieldDraft} {r : RelationDef}
    (hf : f ∈ (runAll index w vs).1.fieldsAt i) (hr : f.relation = some r) :
    f ∈ w.fieldsAt i ∨
      ∃ v ∈ vs, ∃ u, Moment index w vs v u ∧ ∃ c ∈ (v.site index u).resolve.changes, c.Writes i f r := by
  induction vs generalizing w with
  | nil => exact Or.inl hf
  | cons v vs ih =>
    rcases ih h.next hf with hf | ⟨v', hv', u, m, hc⟩
    · rcases Workspace.written_of_mem_applyAll h.allFresh hf hr with hf | hc
      · exact Or.inl hf
      · exact Or.inr ⟨v, List.mem_cons_self, w, h.moment, hc⟩
    · exact Or.inr ⟨v', List.mem_cons_of_mem v hv', u, m.cons h, hc⟩

end Ready

end RelationResolution

end EntitySchema
