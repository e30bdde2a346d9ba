import Mathlib.Data.List.Nodup
import Mathlib.Tactic.Common
import EntitySchema.Proofs.Types.Pass

/-!
# The two halves of a relation

A relation that has a key of its own consists of two halves: the field that holds objects, which says where the
key is (`FieldDraft.keyPlace?`), and the key, which says to which field of which class it belongs
(`FieldDraft.IsKeyOf`).  Resolving one relation writes both halves or neither (`Site.Link.loose_or_halves`), and
it never writes to a place that has a key already.  So the halves fit together at every moment (`Paired`), also
when relations have been refused: linking one relation keeps this (`Site.Link.paired`), and therefore all visits do
(`paired_visited`).  In the entities that come out, no key is without its field and no field without its key
(`coupled_resolve`).
-/

namespace EntitySchema

/-! ### Places of keys -/

/-- Where a key is looked for: a field of a class of a module. -/
structure KeyPlace where
  moduleAlias : String
  className : String
  field : String
  deriving DecidableEq

/-- The place of a field of an entity. -/
def Entity.keyPlace (e : Entity) (field : String) : KeyPlace :=
  ⟨e.moduleAlias, e.className, field⟩

/-- Where the key is that belongs to a relation: in the own class for an object relation that holds its key, and
in the class of the elements for a list relation with a hidden key.  All other relations share the key of another
field. -/
def RelationDef.keyPlace? (owner : Entity) : RelationDef → Option KeyPlace
  | .object r => r.foreignKeyField.map owner.keyPlace
  | .list r =>
    if r.implicitForeignKey then some ⟨r.targetModuleAlias, r.targetClass, r.foreignKeyField⟩ else none
  | .foreignKey _ => none

/-- Where the key is that belongs to a field. -/
def FieldDraft.keyPlace? (owner : Entity) (f : FieldDraft) : Option KeyPlace :=
  f.relation.bind (RelationDef.keyPlace? owner)

/-- A field is the key of a field of an entity. -/
def FieldDraft.IsKeyOf (k : FieldDraft) (owner : Entity) (f : FieldDraft) : Prop :=
  ∃ r, k.relation = some (.foreignKey r) ∧ r.relationField = some f.name ∧
    r.relationFieldOwner = some owner.className

@[simp] lemma Entity.keyPlace_withFields (e : Entity) (fs : List FieldDraft) (n : String) :
    (e.withFields fs).keyPlace n = e.keyPlace n := by
  simp [Entity.keyPlace]

@[simp] lemma FieldDraft.keyPlace?_withFields (e : Entity) (fs : List FieldDraft) (f : FieldDraft) :
    f.keyPlace? (e.withFields fs) = f.keyPlace? e := by
  have hplace : (e.withFields fs).keyPlace = e.keyPlace := funext fun n => Entity.keyPlace_withFields e fs n
  simp only [FieldDraft.keyPlace?]
  congr 1
  funext r
  cases r <;> simp [RelationDef.keyPlace?, hplace]

/-- A field with a place of its key has a relation, which is no key. -/
lemma FieldDraft.exists_of_keyPlace? {e : Entity} {f : FieldDraft} {p : KeyPlace} (h : f.keyPlace? e = some p) :
    ∃ r, f.relation = some r ∧ r.keyPlace? e = some p :=
  Option.bind_eq_some_iff.mp h

/-- A relation is loose if it has no key of its own and is no key that belongs to a field. -/
structure RelationDef.Loose (r : RelationDef) : Prop where
  holder : ∀ e, r.keyPlace? e = none
  key : ∀ k, r = .foreignKey k → k.relationField = none

/-! ### Names of fields -/

namespace FieldDraft

/-- Names are pairwise different just if no field is shadowed. -/
lemma nodup_names_iff {fs : List FieldDraft} :
    (fs.map (·.name)).Nodup ↔ Shadowed (fun _ => False) fs :=
  List.pairwise_map

end FieldDraft

namespace Workspace

/-- Fresh changes keep the names pairwise different. -/
lemma nodup_names_applyAll {w : Workspace} {cs : List Change} (h : w.AllFresh cs)
    (hw : ∀ i, ((w.fieldsAt i).map (·.name)).Nodup) (i : Nat) :
    (((w.applyAll cs).fieldsAt i).map (·.name)).Nodup := by
  induction cs generalizing w with
  | nil => exact hw i
  | cons c cs ih =>
    refine ih h.2 fun j => FieldDraft.nodup_names_iff.mpr ?_
    exact shadowed_apply (fun k hk => (h.1.key k hk).1) (fun j => FieldDraft.nodup_names_iff.mp (hw j)) j

/-- Changes of other entities leave an entity alone. -/
lemma fieldsAt_applyAll_of_ne {w : Workspace} {cs : List Change} {i : Nat} (h : ∀ c ∈ cs, c.position ≠ i) :
    (w.applyAll cs).fieldsAt i = w.fieldsAt i := by
  induction cs generalizing w with
  | nil => rfl
  | cons c cs ih =>
    rw [applyAll_cons, ih fun c' hc' => h c' (List.mem_cons_of_mem c hc'),
      fieldsAt_apply_of_ne w (h c List.mem_cons_self)]

/-- A field is found by its name where names are pairwise different. -/
lemma find?_of_mem {w : Workspace} {i : Nat} (hw : ((w.fieldsAt i).map (·.name)).Nodup) {f : FieldDraft}
    (hf : f ∈ w.fieldsAt i) : w.find? i f.name = some f :=
  (FieldDraft.nodup_names_iff.mp hw).find?_eq hf id

/-- A field with a relation stays where it is. -/
lemma Grows.mem_of_relation {w w' : Workspace} (h : w.Grows w') {i : Nat}
    (hw : ((w.fieldsAt i).map (·.name)).Nodup) {f : FieldDraft} (hf : f ∈ w.fieldsAt i) {r : RelationDef}
    (hr : f.relation = some r) : f ∈ w'.fieldsAt i :=
  mem_of_find? (h.find?_of_relation (find?_of_mem hw hf) hr)

end Workspace

/-! ### Changes that put a key -/

namespace Change

/-- A change that gives a field of the name the relation of a key, or adds a key of this name. -/
inductive PutsKey (name : String) (key : ForeignKeyRelation) (c : Change) : Prop
  | relate (h : c = .relate c.position name (.foreignKey key))
  | add {k : FieldDraft} (hk : c.key? = some k) (hname : k.name = name)
      (hrelation : k.relation = some (.foreignKey key))

section PutsKey

variable {w : Workspace} {c : Change} {name : String} {key : ForeignKeyRelation}

/-- The key is there after the change. -/
lemma PutsKey.found (h : c.PutsKey name key) (hc : c.Fresh w) :
    ∃ k, (w.apply c).find? c.position name = some k ∧ k.relation = some (.foreignKey key) := by
  cases h with
  | relate h =>
    obtain ⟨d, hd, -⟩ := hc.relate _ _ _ h
    refine ⟨d.relate (.foreignKey key), ?_, rfl⟩
    have hfind := Workspace.find?_apply_relate (.foreignKey key) hd
    rwa [← h] at hfind
  | add hk hname hrelation =>
    subst hname
    exact ⟨_, Workspace.find?_apply_key hc hk, hrelation⟩

/-- Before the change no field of the name has a relation. -/
lemma PutsKey.free (h : c.PutsKey name key) (hc : c.Fresh w) {d : FieldDraft}
    (hd : w.find? c.position name = some d) : d.relation = none := by
  cases h with
  | relate h =>
    obtain ⟨d', hd', hnone⟩ := hc.relate _ _ _ h
    rw [hd] at hd'
    rwa [Option.some.inj hd']
  | add hk hname hrelation =>
    subst hname
    rw [(hc.key _ hk).1] at hd
    cases hd

/-- The change writes nothing else. -/
lemma PutsKey.eq_of_writes (h : c.PutsKey name key) {i : Nat} {f : FieldDraft} {r : RelationDef}
    (hf : f.relation = some r) (hw : c.Writes i f r) : i = c.position ∧ f.name = name ∧ r = .foreignKey key := by
  cases h with
  | relate h =>
    rw [h, writes_relate_iff] at hw
    exact ⟨hw.1.symm, hw.2.1.symm, hw.2.2.symm⟩
  | add hk hname hrelation =>
    rcases hw with rfl | ⟨hposition, hk'⟩
    · cases hk
    · obtain rfl := Option.some.inj (hk.symm.trans hk')
      rw [hrelation] at hf
      exact ⟨hposition.symm, hname, (Option.some.inj hf).symm⟩

end PutsKey

end Change

namespace RelationResolution

/-! ### One relation -/

namespace Site

/-- A change that puts a key and a relation of the field, which fit together: the relation has its key at the
place of the change, and the key belongs to the field. -/
structure Halves (s : Site) (c : Change) (r : RelationDef) (x : Entity) (name : String)
    (key : ForeignKeyRelation) : Prop where
  entity : s.index.entities[c.position]? = some x
  hasTable : x.table?.isSome
  puts : c.PutsKey name key
  place : r.keyPlace? s.owner.entity = some (x.keyPlace name)
  field : key.relationField = some s.field.name
  owner : key.relationFieldOwner = some s.owner.entity.className

/-- Linking a relation writes a relation that is loose, or both halves, or nothing. -/
lemma Link.loose_or_halves {s : Site} {cs : List Change} (h : s.Link cs) (howner : s.owner.Belongs s.index) :
    cs = [] ∨
      (∃ r, cs = [.relate s.owner.position s.field.name r] ∧ r.Loose) ∨
      ∃ c r x name key, cs = [c, .relate s.owner.position s.field.name r] ∧ s.Halves c r x name key := by
  have htable : s.owner.entity.table?.isSome := by rw [howner.table]; rfl
  cases h with
  | nothing => exact Or.inl rfl
  | parent | other | listNamed =>
    refine Or.inr (Or.inl ⟨_, rfl, fun e => rfl, fun k hk => ?_⟩)
    cases hk <;> rfl
  | @ownField target key existing htarget hside hkey hfind =>
    exact Or.inr (Or.inr ⟨_, _, s.owner.entity, key.value, s.keyRelation target, rfl, howner.entity, htable,
      .relate rfl, rfl, rfl, rfl⟩)
  | @ownAdded target htarget hside hkey hnew =>
    exact Or.inr (Or.inr ⟨_, _, s.owner.entity, s.addedKeyName, s.keyRelation target, rfl, howner.entity, htable,
      .add rfl rfl rfl, rfl, rfl, rfl⟩)
  | @listHidden t target htarget hname hnew =>
    have hbelongs := RelationResolution.belongs_of_tableClass htarget.tableClass
    exact Or.inr (Or.inr ⟨_, _, target.entity, s.hiddenKeyName, s.hiddenKeyRelation, rfl, hbelongs.entity,
      by rw [hbelongs.table]; rfl, .add rfl rfl rfl, rfl, rfl, rfl⟩)

end Site

/-! ### Halves that fit together -/

section Paired

variable {index : EntityIndex} {w : Workspace}

/-- A field of the entity at a position, at a moment. -/
structure Occurs (index : EntityIndex) (w : Workspace) (i : Nat) (e : Entity) (f : FieldDraft) : Prop where
  entity : index.entities[i]? = some e
  field : f ∈ w.fieldsAt i

/-- Fields have different names, only classes with a table have got keys, and the halves of the relations fit
together: every place of a key has one, every key has the field that it belongs to, and no two fields have their
keys at one place. -/
structure Paired (index : EntityIndex) (w : Workspace) : Prop where
  names : ∀ i, ((w.fieldsAt i).map (·.name)).Nodup
  rest : ∀ i e, index.entities[i]? = some e → e.table? = none → w.fieldsAt i = e.fields
  key : ∀ i e f p, Occurs index w i e f → f.keyPlace? e = some p →
    ∃ j x k, Occurs index w j x k ∧ x.keyPlace k.name = p ∧ k.IsKeyOf e f
  holder : ∀ j x k r n, Occurs index w j x k → k.relation = some (.foreignKey r) → r.relationField = some n →
    ∃ i e f, Occurs index w i e f ∧ f.keyPlace? e = some (x.keyPlace k.name) ∧ k.IsKeyOf e f
  once : ∀ i e f i' e' f' p, Occurs index w i e f → Occurs index w i' e' f' → f.keyPlace? e = some p →
    f'.keyPlace? e' = some p → i = i' ∧ f = f'

/-- A field with a relation stays where it is. -/
lemma Occurs.grow {w' : Workspace} {i : Nat} {e : Entity} {f : FieldDraft} (h : Occurs index w i e f)
    (hw : Paired index w) (hgrows : w.Grows w') {r : RelationDef} (hr : f.relation = some r) :
    Occurs index w' i e f :=
  ⟨h.entity, hgrows.mem_of_relation (hw.names i) h.field hr⟩

/-- A field that had its key still has it. -/
lemma Paired.key_of_grows {w' : Workspace} (hw : Paired index w) (hgrows : w.Grows w') {i : Nat} {e : Entity}
    {f : FieldDraft} {p : KeyPlace} (hf : Occurs index w i e f) (hp : f.keyPlace? e = some p) :
    ∃ j x k, Occurs index w' j x k ∧ x.keyPlace k.name = p ∧ k.IsKeyOf e f := by
  obtain ⟨j, x, k, hk, hplace, r, hr, hof⟩ := hw.key i e f p hf hp
  exact ⟨j, x, k, hk.grow hw hgrows hr, hplace, r, hr, hof⟩

/-- A key that had its field still has it. -/
lemma Paired.holder_of_grows {w' : Workspace} (hw : Paired index w) (hgrows : w.Grows w') {j : Nat} {x : Entity}
    {k : FieldDraft} {r : ForeignKeyRelation} {n : String} (hk : Occurs index w j x k)
    (hr : k.relation = some (.foreignKey r)) (hn : r.relationField = some n) :
    ∃ i e f, Occurs index w' i e f ∧ f.keyPlace? e = some (x.keyPlace k.name) ∧ k.IsKeyOf e f := by
  obtain ⟨i, e, f, hf, hplace, hof⟩ := hw.holder j x k r n hk hr hn
  obtain ⟨rf, hrf, -⟩ := FieldDraft.exists_of_keyPlace? hplace
  exact ⟨i, e, f, hf.grow hw hgrows hrf, hplace, hof⟩

/-- No field has its key at a place where no field has a relation. -/
lemma Paired.keyPlace?_ne (hw : Paired index w)
    (hkeys : index.entities.Pairwise fun e e' => e.key ≠ e'.key) {j : Nat} {x : Entity}
    (hx : index.entities[j]? = some x) {name : String}
    (hfree : ∀ d, w.find? j name = some d → d.relation = none) {i : Nat} {e : Entity} {f : FieldDraft}
    (hf : Occurs index w i e f) : f.keyPlace? e ≠ some (x.keyPlace name) := by
  intro hplace
  obtain ⟨j', x', k, hk, hkplace, r, hr, -, -⟩ := hw.key i e f _ hf hplace
  simp only [Entity.keyPlace, KeyPlace.mk.injEq] at hkplace
  obtain ⟨halias, hclass, hname⟩ := hkplace
  have hkey : x'.key = x.key := by simp [Entity.key, halias, hclass]
  obtain rfl := eq_of_pairwise hkeys hk.entity hx (fun hne => hne hkey) fun hne => hne hkey.symm
  have hfind := Workspace.find?_of_mem (hw.names j') hk.field
  rw [hname] at hfind
  rw [hfree k hfind] at hr
  cases hr

/-- A relation that is loose leaves the halves as they are. -/
lemma Paired.relate_loose (hw : Paired index w) {i : Nat} {n : String} {r : RelationDef} (hr : r.Loose)
    (hfresh : w.AllFresh [.relate i n r])
    (hrest : ∀ j e, index.entities[j]? = some e → e.table? = none →
      (w.applyAll [.relate i n r]).fieldsAt j = e.fields) :
    Paired index (w.applyAll [.relate i n r]) := by
  have hgrows := Workspace.grows_applyAll hfresh
  have hold : ∀ j x f r', Occurs index (w.applyAll [.relate i n r]) j x f → f.relation = some r' →
      Occurs index w j x f ∨ r' = r := by
    intro j x f r' hf hr'
    rcases Workspace.written_of_mem_applyAll hfresh hf.field hr' with hmem | ⟨c, hc, hwrites⟩
    · exact Or.inl ⟨hf.entity, hmem⟩
    · obtain rfl := List.mem_singleton.mp hc
      exact Or.inr (Change.writes_relate_iff.mp hwrites).2.2.symm
  have hholder : ∀ j x f p, Occurs index (w.applyAll [.relate i n r]) j x f → f.keyPlace? x = some p →
      Occurs index w j x f := by
    intro j x f p hf hp
    obtain ⟨r', hr', hplace⟩ := FieldDraft.exists_of_keyPlace? hp
    rcases hold j x f r' hf hr' with hf | rfl
    · exact hf
    · rw [hr.holder x] at hplace
      cases hplace
  refine ⟨Workspace.nodup_names_applyAll hfresh hw.names, hrest, ?_, ?_, ?_⟩
  · intro j e f p hf hp
    exact hw.key_of_grows hgrows (hholder j e f p hf hp) hp
  · intro j x k r' m hk hr' hm
    rcases hold j x k _ hk hr' with hk | heq
    · exact hw.holder_of_grows hgrows hk hr' hm
    · rw [hr.key r' heq.symm] at hm
      cases hm
  · intro j e f j' e' f' p hf hf' hp hp'
    exact hw.once j e f j' e' f' p (hholder j e f p hf hp) (hholder j' e' f' p hf' hp') hp hp'

end Paired

/-! ### One visit -/

namespace Site

section Halves

variable {s : Site} {c : Change} {r : RelationDef} {x : Entity} {name : String} {key : ForeignKeyRelation}

/-- The workspace with both halves. -/
abbrev withHalves (s : Site) (c : Change) (r : RelationDef) : Workspace :=
  s.workspace.applyAll [c, .relate s.owner.position s.field.name r]

/-- The key is there. -/
lemma Halves.exists_key (h : s.Halves c r x name key)
    (hfresh : s.workspace.AllFresh [c, .relate s.owner.position s.field.name r]) :
    ∃ k, Occurs s.index (s.withHalves c r) c.position x k ∧ k.name = name ∧
      k.relation = some (.foreignKey key) := by
  obtain ⟨k, hfind, hrelation⟩ := h.puts.found hfresh.1
  have hafter := (Workspace.grows_applyAll hfresh.2).find?_of_relation hfind hrelation
  exact ⟨k, ⟨h.entity, Workspace.mem_of_find? hafter⟩, Workspace.name_of_find? hfind, hrelation⟩

/-- The field with its relation is there. -/
lemma occurs_field (howner : s.owner.Belongs s.index)
    (hfind : s.workspace.find? s.owner.position s.field.name = some s.field)
    (hfresh : s.workspace.AllFresh [c, .relate s.owner.position s.field.name r]) :
    Occurs s.index (s.withHalves c r) s.owner.position s.owner.entity (s.field.relate r) := by
  have hrelate : Change.relate s.owner.position s.field.name r ∈
      [c, .relate s.owner.position s.field.name r] := by simp
  exact ⟨howner.entity, Workspace.mem_of_find? (Workspace.find?_applyAll_relate hfresh hfind hrelate).2⟩

/-- A field with a relation was there before, or it is one of the halves. -/
lemma Halves.cases_of_occurs (h : s.Halves c r x name key)
    (hfresh : s.workspace.AllFresh [c, .relate s.owner.position s.field.name r]) {i : Nat} {e : Entity}
    {f : FieldDraft} {r' : RelationDef} (hf : Occurs s.index (s.withHalves c r) i e f)
    (hr' : f.relation = some r') :
    Occurs s.index s.workspace i e f ∨
      (i = c.position ∧ f.name = name ∧ r' = .foreignKey key) ∨
      (i = s.owner.position ∧ f.name = s.field.name ∧ r' = r) := by
  rcases Workspace.written_of_mem_applyAll hfresh hf.field hr' with hmem | ⟨c', hc', hwrites⟩
  · exact Or.inl ⟨hf.entity, hmem⟩
  · rcases List.mem_cons.mp hc' with rfl | hc'
    · exact Or.inr (Or.inl (h.puts.eq_of_writes hr' hwrites))
    · obtain rfl := List.mem_singleton.mp hc'
      obtain ⟨hi, hname, hrelation⟩ := Change.writes_relate_iff.mp hwrites
      exact Or.inr (Or.inr ⟨hi.symm, hname.symm, hrelation.symm⟩)

/-- A field that has a key was there before, or it is the half that has been written. -/
lemma Halves.cases_of_keyPlace? (h : s.Halves c r x name key) (howner : s.owner.Belongs s.index)
    (hfresh : s.workspace.AllFresh [c, .relate s.owner.position s.field.name r]) {i : Nat} {e : Entity}
    {f : FieldDraft} {p : KeyPlace} (hf : Occurs s.index (s.withHalves c r) i e f)
    (hp : f.keyPlace? e = some p) :
    Occurs s.index s.workspace i e f ∨
      (i = s.owner.position ∧ e = s.owner.entity ∧ f.name = s.field.name ∧ p = x.keyPlace name) := by
  obtain ⟨r', hr', hplace⟩ := FieldDraft.exists_of_keyPlace? hp
  rcases h.cases_of_occurs hfresh hf hr' with hold | ⟨-, -, rfl⟩ | ⟨rfl, hname, rfl⟩
  · exact Or.inl hold
  · cases hplace
  · obtain rfl := Option.some.inj (hf.entity.symm.trans howner.entity)
    rw [h.place] at hplace
    exact Or.inr ⟨rfl, rfl, hname, (Option.some.inj hplace).symm⟩

/-- Both halves together fit, and they leave the others as they are. -/
lemma Halves.paired (h : s.Halves c r x name key) (hw : Paired s.index s.workspace)
    (hkeys : s.index.entities.Pairwise fun e e' => e.key ≠ e'.key) (howner : s.owner.Belongs s.index)
    (hfind : s.workspace.find? s.owner.position s.field.name = some s.field)
    (hfresh : s.workspace.AllFresh [c, .relate s.owner.position s.field.name r])
    (hrest : ∀ j e, s.index.entities[j]? = some e → e.table? = none →
      (s.withHalves c r).fieldsAt j = e.fields) :
    Paired s.index (s.withHalves c r) := by
  have hgrows := Workspace.grows_applyAll hfresh
  have hnames := Workspace.nodup_names_applyAll hfresh hw.names
  -- Before, no field had its key at the place that gets one now.
  have hunused : ∀ i e f, Occurs s.index s.workspace i e f → f.keyPlace? e ≠ some (x.keyPlace name) :=
    fun i e f hf => hw.keyPlace?_ne hkeys h.entity (fun d hd => h.puts.free hfresh.1 hd) hf
  refine ⟨hnames, hrest, ?_, ?_, ?_⟩
  · intro i e f p hf hp
    rcases h.cases_of_keyPlace? howner hfresh hf hp with hold | ⟨rfl, rfl, hname, rfl⟩
    · exact hw.key_of_grows hgrows hold hp
    · obtain ⟨k, hk, hkname, hrelation⟩ := h.exists_key hfresh
      refine ⟨c.position, x, k, hk, by rw [hkname], key, hrelation, ?_, h.owner⟩
      rw [h.field, hname]
  · intro j y k rk n hk hrk hn
    rcases h.cases_of_occurs hfresh hk hrk with hold | ⟨rfl, hname, hkey⟩ | ⟨-, -, hrelation⟩
    · exact hw.holder_of_grows hgrows hold hrk hn
    · obtain rfl := Option.some.inj (h.entity.symm.trans hk.entity)
      refine ⟨_, _, _, occurs_field howner hfind hfresh, ?_, key, hrk.trans (congrArg some hkey), h.field, h.owner⟩
      rw [hname]
      exact h.place
    · -- The relation of the field is no key.
      have hplace := h.place
      rw [← hrelation] at hplace
      cases hplace
  · intro i e f i' e' f' p hf hf' hp hp'
    rcases h.cases_of_keyPlace? howner hfresh hf hp with hold | ⟨rfl, rfl, hname, rfl⟩
    · rcases h.cases_of_keyPlace? howner hfresh hf' hp' with hold' | ⟨-, -, -, rfl⟩
      · exact hw.once i e f i' e' f' p hold hold' hp hp'
      · exact absurd hp (hunused i e f hold)
    · rcases h.cases_of_keyPlace? howner hfresh hf' hp' with hold' | ⟨rfl, rfl, hname', -⟩
      · exact absurd hp' (hunused i' e' f' hold')
      · exact ⟨rfl, List.inj_on_of_nodup_map (hnames _) hf.field hf'.field (hname.trans hname'.symm)⟩

end Halves

/-- Linking a relation changes only classes with a table. -/
lemma Link.hasTable_of_mem {s : Site} {cs : List Change} (h : s.Link cs) (howner : s.owner.Belongs s.index)
    {c : Change} (hc : c ∈ cs) : ∃ x, s.index.entities[c.position]? = some x ∧ x.table?.isSome := by
  have hown : s.owner.entity.table?.isSome := by rw [howner.table]; rfl
  rcases h.loose_or_halves howner with rfl | ⟨r, rfl, -⟩ | ⟨c', r, x, name, key, rfl, hhalves⟩
  · cases hc
  · obtain rfl := List.mem_singleton.mp hc
    exact ⟨_, howner.entity, hown⟩
  · rcases List.mem_cons.mp hc with rfl | hc
    · exact ⟨x, hhalves.entity, hhalves.hasTable⟩
    · obtain rfl := List.mem_singleton.mp hc
      exact ⟨_, howner.entity, hown⟩

/-- Linking a relation leaves the halves of all relations fitting together. -/
lemma Link.paired {s : Site} {cs : List Change} (h : s.Link cs) (hw : Paired s.index s.workspace)
    (hkeys : s.index.entities.Pairwise fun e e' => e.key ≠ e'.key) (howner : s.owner.Belongs s.index)
    (hfind : s.workspace.find? s.owner.position s.field.name = some s.field)
    (hfresh : s.workspace.AllFresh cs) : Paired s.index (s.workspace.applyAll cs) := by
  have hrest : ∀ j e, s.index.entities[j]? = some e → e.table? = none →
      (s.workspace.applyAll cs).fieldsAt j = e.fields := by
    intro j e he hnone
    rw [Workspace.fieldsAt_applyAll_of_ne, hw.rest j e he hnone]
    rintro c hc rfl
    obtain ⟨x, hx, htable⟩ := h.hasTable_of_mem howner hc
    obtain rfl := Option.some.inj (hx.symm.trans he)
    simp [hnone] at htable
  rcases h.loose_or_halves howner with rfl | ⟨r, rfl, hloose⟩ | ⟨c, r, x, name, key, rfl, hhalves⟩
  · exact hw
  · exact hw.relate_loose hloose hfresh hrest
  · exact hhalves.paired hw hkeys howner hfind hfresh hrest

end Site

/-! ### All visits -/

section Visits

variable {index : EntityIndex} {w : Workspace} {vs : List Visit}

/-- Visits leave the halves of all relations fitting together. -/
theorem paired_runAll (hkeys : index.entities.Pairwise fun e e' => e.key ≠ e'.key) (hready : Ready index w vs)
    (hvs : ∀ v ∈ vs, v.owner.Belongs index) (hw : Paired index w) : Paired index (runAll index w vs).1 := by
  induction vs generalizing w with
  | nil => exact hw
  | cons v vs ih =>
    have hfind : w.find? v.owner.position (v.site index w).field.name = some (v.site index w).field := by
      have hfound := hready.found v List.mem_cons_self
      rwa [Visit.site_field hfound]
    have hstep : Paired index (w.applyAll (v.site index w).resolve.changes) :=
      Site.Link.paired (s := v.site index w) (Site.link_resolve _) hw hkeys (hvs v List.mem_cons_self) hfind
        hready.allFresh
    exact ih hready.next (fun v' hv' => hvs v' (List.mem_cons_of_mem v hv')) hstep

/-- At the beginning there are no halves. -/
lemma paired_initial (hunrelated : ∀ e ∈ index.entities, ∀ f ∈ e.fields, f.relation = none)
    (hnames : ∀ e ∈ index.entities, (e.fields.map (·.name)).Nodup) : Paired index (initial index) := by
  have hnone : ∀ i e f, Occurs index (initial index) i e f → f.relation = none := by
    intro i e f hf
    have hmem := hf.field
    rw [fieldsAt_initial hf.entity] at hmem
    exact hunrelated e (List.mem_of_getElem? hf.entity) f hmem
  have hplace : ∀ i e f p, Occurs index (initial index) i e f → f.keyPlace? e ≠ some p := by
    intro i e f p hf hp
    obtain ⟨r, hr, -⟩ := FieldDraft.exists_of_keyPlace? hp
    rw [hnone i e f hf] at hr
    cases hr
  refine ⟨fun i => ?_, fun i e he _ => fieldsAt_initial he, ?_, ?_, ?_⟩
  · cases he : index.entities[i]? with
    | none =>
      rw [Workspace.fieldsAt_eq_nil (by simpa [Workspace.ofEntities] using he)]
      exact List.nodup_nil
    | some e =>
      rw [fieldsAt_initial he]
      exact hnames e (List.mem_of_getElem? he)
  · exact fun i e f p hf hp => absurd hp (hplace i e f p hf)
  · intro j x k r n hk hr
    rw [hnone j x k hk] at hr
    cases hr
  · exact fun i e f i' e' f' p hf _ hp _ => absurd hp (hplace i e f p hf)

/-- When all relations have been resolved, their halves fit together. -/
theorem paired_visited (hkeys : index.entities.Pairwise fun e e' => e.key ≠ e'.key)
    (hunrelated : ∀ e ∈ index.entities, ∀ f ∈ e.fields, f.relation = none)
    (hnames : ∀ e ∈ index.entities, (e.fields.map (·.name)).Nodup) : Paired index (visited index).1 := by
  have hlead : ∀ e ∈ index.entities, e.RelationsLead := fun e he =>
    (FieldDraft.nodup_names_iff.mp (hnames e he)).imp fun hne hname => (hne hname).elim
  exact paired_runAll hkeys (ready_initial hunrelated hlead) (fun v hv => Visit.belongs hv)
    (paired_initial hunrelated hnames)

end Visits

/-! ### The entities at last -/

/-- The classes are different, their fields have different names, and the halves of the relations fit together:
every key that names the field it belongs to is the key of exactly one field, which is this one; and every field
that says where its key is has it there. -/
structure Coupled (es : List Entity) : Prop where
  classes : (es.map fun e => (e.moduleAlias, e.className)).Nodup
  names : ∀ e ∈ es, (e.fields.map (·.name)).Nodup
  holder : ∀ x ∈ es, ∀ k ∈ x.fields, ∀ r n, k.relation = some (.foreignKey r) → r.relationField = some n →
    ∃ e ∈ es, ∃ f ∈ e.fields, f.name = n ∧ r.relationFieldOwner = some e.className ∧
      f.keyPlace? e = some (x.keyPlace k.name) ∧
      ∀ e' ∈ es, ∀ f' ∈ e'.fields, f'.keyPlace? e' = some (x.keyPlace k.name) → e' = e ∧ f' = f
  key : ∀ e ∈ es, ∀ f ∈ e.fields, ∀ p, f.keyPlace? e = some p →
    ∃ x ∈ es, ∃ k ∈ x.fields, x.keyPlace k.name = p ∧ k.IsKeyOf e f

section Coupled

variable {index : EntityIndex}

/-- The fields of an entity at last are those of the workspace. -/
lemma Paired.fields_withFields {w : Workspace} (hw : Paired index w) {i : Nat} {e : Entity}
    (he : index.entities[i]? = some e) : (e.withFields (w.fieldsAt i)).fields = w.fieldsAt i := by
  cases htable : e.table? with
  | none => exact Entity.fields_withFields (by rw [hw.rest i e he htable])
  | some t => exact Entity.fields_withFields_of_table? (by rw [htable]; rfl)

/-- An entity at last is one of the index with the fields of the workspace. -/
lemma exists_of_mem_resolve {e' : Entity} (h : e' ∈ (resolve index).1) :
    ∃ i, ∃ e : Entity, index.entities[i]? = some e ∧ e' = e.withFields ((visited index).1.fieldsAt i) := by
  obtain ⟨i, hi⟩ := List.mem_iff_getElem?.mp h
  rw [getElem?_resolve, Option.map_eq_some_iff] at hi
  obtain ⟨e, he, rfl⟩ := hi
  exact ⟨i, e, he, rfl⟩

/-- A field of an entity at last is one of the workspace. -/
lemma exists_occurs {e' : Entity} (he' : e' ∈ (resolve index).1) {f : FieldDraft} (hf : f ∈ e'.fields) :
    ∃ i, ∃ e : Entity, e' = e.withFields ((visited index).1.fieldsAt i) ∧ Occurs index (visited index).1 i e f := by
  obtain ⟨i, e, he, rfl⟩ := exists_of_mem_resolve he'
  exact ⟨i, e, rfl, he, Entity.mem_fields_withFields hf⟩

/-- A field of the workspace is one of an entity at last. -/
lemma Occurs.mem_resolve (hw : Paired index (visited index).1) {i : Nat} {e : Entity} {f : FieldDraft}
    (h : Occurs index (visited index).1 i e f) :
    e.withFields ((visited index).1.fieldsAt i) ∈ (resolve index).1 ∧
      f ∈ (e.withFields ((visited index).1.fieldsAt i)).fields := by
  refine ⟨List.mem_of_getElem? (i := i) ?_, ?_⟩
  · rw [getElem?_resolve, h.entity, Option.map_some]
  · rw [hw.fields_withFields h.entity]
    exact h.field

/-- Resolving relations keeps the classes. -/
lemma map_resolve {α : Type} (p : Entity → α) (hp : ∀ (e : Entity) fs, p (e.withFields fs) = p e) :
    (resolve index).1.map p = index.entities.map p := by
  refine List.ext_getElem? fun i => ?_
  rw [List.getElem?_map, List.getElem?_map, getElem?_resolve, Option.map_map]
  exact congrArg (Option.map · _) (funext fun e => hp e _)

/-- Resolving relations couples the halves, whatever has been refused. -/
theorem coupled_resolve (hclasses : (index.entities.map fun e => (e.moduleAlias, e.className)).Nodup)
    (hkeys : index.entities.Pairwise fun e e' => e.key ≠ e'.key)
    (hunrelated : ∀ e ∈ index.entities, ∀ f ∈ e.fields, f.relation = none)
    (hnames : ∀ e ∈ index.entities, (e.fields.map (·.name)).Nodup) : Coupled (resolve index).1 := by
  have hw := paired_visited hkeys hunrelated hnames
  refine ⟨?_, ?_, ?_, ?_⟩
  · rwa [map_resolve _ fun e fs => by simp]
  · intro e' he'
    obtain ⟨i, e, he, rfl⟩ := exists_of_mem_resolve he'
    rw [hw.fields_withFields he]
    exact hw.names i
  · intro x' hx' k hk r n hr hn
    obtain ⟨j, x, rfl, hoccurs⟩ := exists_occurs hx' hk
    obtain ⟨i, e, f, hf, hplace, r', hr', hname, howner⟩ := hw.holder j x k r n hoccurs hr hn
    obtain rfl : r = r' := by
      rw [hr] at hr'
      cases hr'
      rfl
    obtain ⟨hmem, hfmem⟩ := hf.mem_resolve hw
    refine ⟨_, hmem, f, hfmem, ?_, by simpa using howner, by simpa using hplace, ?_⟩
    · exact Option.some.inj (hname.symm.trans hn)
    · intro e'' he'' f' hf' hplace'
      obtain ⟨i', e', rfl, hoccurs'⟩ := exists_occurs he'' hf'
      rw [FieldDraft.keyPlace?_withFields, Entity.keyPlace_withFields] at hplace'
      obtain ⟨rfl, rfl⟩ := hw.once i' e' f' i e f _ hoccurs' hf hplace' hplace
      obtain rfl := Option.some.inj (hoccurs'.entity.symm.trans hf.entity)
      exact ⟨rfl, rfl⟩
  · intro e' he' f hf p hp
    obtain ⟨i, e, rfl, hoccurs⟩ := exists_occurs he' hf
    rw [FieldDraft.keyPlace?_withFields] at hp
    obtain ⟨j, x, k, hk, hplace, r, hr, hname, howner⟩ := hw.key i e f p hoccurs hp
    obtain ⟨hmem, hkmem⟩ := hk.mem_resolve hw
    exact ⟨_, hmem, k, hkmem, by simpa using hplace, r, hr, hname, by simpa using howner⟩

/-- Relations of entities that have been read, with distinct classes and distinct names of fields, are resolved
so that no half is left alone, also when types or relations are refused. -/
theorem coupled_of_read {es : List Entity} (hread : ∀ e ∈ es, ∃ input, (Entity.ofDocument input).1 = some e)
    (hnames : ∀ e ∈ es, (e.fields.map (·.name)).Nodup)
    (hclasses : (es.map fun e => (e.moduleAlias, e.className)).Nodup) (aliases aliases' : List String) :
    Coupled (resolve ⟨(TypeResolution.resolve ⟨es, aliases⟩).1, aliases'⟩).1 := by
  have hdeclared : ∀ e ∈ es, e.Declared := by
    intro e he
    obtain ⟨input, hinput⟩ := hread e he
    exact Entity.declared_ofDocument hinput
  rw [TypeResolution.resolve_entities]
  refine coupled_resolve ?_ ?_ ?_ ?_
  · simpa [List.map_map, Function.comp_def] using hclasses
  · rw [List.pairwise_map]
    refine ((List.pairwise_map.mp hclasses).imp_of_mem fun {e e'} he he' hne hkey => hne ?_)
    rw [TypeResolution.key_typedEntity, TypeResolution.key_typedEntity] at hkey
    obtain ⟨halias, hclass⟩ := entityKey_inj (hdeclared e he).className (hdeclared e' he').className hkey
    rw [halias, hclass]
  · intro e' he' f' hf'
    obtain ⟨e, he, rfl⟩ := List.mem_map.mp he'
    rw [TypeResolution.fields_typedEntity] at hf'
    obtain ⟨f, hf, rfl⟩ := List.mem_map.mp hf'
    exact (hdeclared e he).unrelated f hf
  · intro e' he'
    obtain ⟨e, he, rfl⟩ := List.mem_map.mp he'
    rw [TypeResolution.fields_typedEntity]
    simpa [List.map_map, Function.comp_def] using hnames e he

end Coupled

/-- Authors with books, and books with a writer and with a reader whose key is no number. -/
def library : List Entity :=
  [["class: Author", "table: author", "fields:", "  books: List<Book>?, relation"],
    ["class: Book", "table: book", "fields:", "  writer: Author?, relation",
      "  reader: Author?, relation(field=title)", "  title: String"]].filterMap fun lines =>
      (Entity.ofDocument ⟨String.intercalate "\n" lines, "library.spy.yaml", "library", [], some "library"⟩).1

/-- The library with its relations, and what is reported about them. -/
def linkedLibrary : List Entity × List Diagnostic :=
  resolve ⟨(TypeResolution.resolve ⟨library, ["library"]⟩).1, ["library"]⟩

/-- The relation to a reader is refused; the two other ones have both halves. -/
theorem coupled_library :
    Diagnostic.hasErrors linkedLibrary.2 = true ∧
    linkedLibrary.1.map (·.fields.map (·.name)) =
      [["id", "books"], ["id", "writer", "writerId", "reader", "title", "_authorBooksAuthorId"]] ∧
    Coupled linkedLibrary.1 := by
  have hread : ∀ e ∈ library, ∃ input, (Entity.ofDocument input).1 = some e := by
    intro e he
    obtain ⟨lines, -, hlines⟩ := List.mem_filterMap.mp he
    exact ⟨_, hlines⟩
  -- In one evaluation the documents are read once.
  obtain ⟨hnames, hclasses, herrors, hfields⟩ : (∀ e ∈ library, (e.fields.map (·.name)).Nodup) ∧
      (library.map fun e => (e.moduleAlias, e.className)).Nodup ∧
      Diagnostic.hasErrors linkedLibrary.2 = true ∧
      linkedLibrary.1.map (·.fields.map (·.name)) =
        [["id", "books"], ["id", "writer", "writerId", "reader", "title", "_authorBooksAuthorId"]] := by
    decide +kernel
  exact ⟨herrors, hfields, coupled_of_read hread hnames hclasses _ _⟩

end RelationResolution

end EntitySchema
