import Mathlib.Data.List.Basic
import Mathlib.Tactic.Common
import EntitySchema.Proofs.Relations.Keys

/-!
# What resolving relations leaves alone

Whatever relations are resolved, and whether or not there are errors, the fields of every entity are those that it
had, in their order, with keys between them (`Interleaved`).  A field that was there gets a relation and nothing
else, except that it is not stored any more if the relation is that of an object or a list (`KeptField`); a key that
is added is stored, and no field had its name (`AddedKey`).  Every change of a link keeps this
(`framed_apply`, `Link.allGentle`), so it holds when all relations have been resolved (`framed_visited`).
-/

namespace EntitySchema

/-- A list of the kept items of another list, in their order, with added items between them. -/
inductive Interleaved {α β : Type} (Kept : α → β → Prop) (Added : β → Prop) : List α → List β → Prop
  | nil : Interleaved Kept Added [] []
  | keep {a : α} {b : β} {as : List α} {bs : List β} (h : Kept a b) (hrest : Interleaved Kept Added as bs) :
      Interleaved Kept Added (a :: as) (b :: bs)
  | add {b : β} {as : List α} {bs : List β} (h : Added b) (hrest : Interleaved Kept Added as bs) :
      Interleaved Kept Added as (b :: bs)

namespace Interleaved

section General

variable {α β γ δ : Type} {Kept : α → β → Prop} {Added : β → Prop} {as : List α} {bs : List β}

lemma refl {Kept : α → α → Prop} {Added : α → Prop} (h : ∀ a ∈ as, Kept a a) : Interleaved Kept Added as as := by
  induction as with
  | nil => exact .nil
  | cons a as ih => exact .keep (h a List.mem_cons_self) (ih fun a' ha' => h a' (List.mem_cons_of_mem a ha'))

/-- Every kept item is there. -/
lemma exists_kept (h : Interleaved Kept Added as bs) {a : α} (ha : a ∈ as) : ∃ b ∈ bs, Kept a b := by
  induction h with
  | nil => cases ha
  | @keep a' b as bs hkept hrest ih =>
    rcases List.mem_cons.mp ha with rfl | ha
    · exact ⟨b, List.mem_cons_self, hkept⟩
    · obtain ⟨b', hb', hkept'⟩ := ih ha
      exact ⟨b', List.mem_cons_of_mem b hb', hkept'⟩
  | @add b as bs hadded hrest ih =>
    obtain ⟨b', hb', hkept'⟩ := ih ha
    exact ⟨b', List.mem_cons_of_mem b hb', hkept'⟩

/-- Every item there is has been kept or added. -/
lemma kept_or_added (h : Interleaved Kept Added as bs) {b : β} (hb : b ∈ bs) : (∃ a ∈ as, Kept a b) ∨ Added b := by
  induction h with
  | nil => cases hb
  | @keep a b' as bs hkept hrest ih =>
    rcases List.mem_cons.mp hb with rfl | hb
    · exact .inl ⟨a, List.mem_cons_self, hkept⟩
    · exact (ih hb).imp_left fun ⟨a', ha', hkept'⟩ => ⟨a', List.mem_cons_of_mem a ha', hkept'⟩
  | @add b' as bs hadded hrest ih =>
    rcases List.mem_cons.mp hb with rfl | hb
    · exact .inr hadded
    · exact ih hb

/-- What is kept of images is kept of the items themselves. -/
lemma map {f : γ → α} {g : β → δ} {Kept' : γ → δ → Prop} {Added' : δ → Prop} {cs : List γ}
    (h : Interleaved Kept Added (cs.map f) bs) (hkept : ∀ c ∈ cs, ∀ b, Kept (f c) b → Kept' c (g b))
    (hadded : ∀ b, Added b → Added' (g b)) : Interleaved Kept' Added' cs (bs.map g) := by
  generalize has : cs.map f = as at h
  induction h generalizing cs with
  | nil =>
    rw [List.map_eq_nil_iff.mp has]
    exact .nil
  | keep h hrest ih =>
    obtain ⟨c, cs, rfl, rfl, rfl⟩ := List.map_eq_cons_iff.mp has
    exact .keep (hkept c List.mem_cons_self _ h) (ih (fun c' hc' => hkept c' (List.mem_cons_of_mem c hc')) rfl)
  | add h hrest ih => exact .add (hadded _ h) (ih hkept has)

/-- One more item is added at the end. -/
lemma append (h : Interleaved Kept Added as bs) {b : β} (hb : Added b) :
    Interleaved Kept Added as (bs ++ [b]) := by
  induction h with
  | nil => exact .add hb .nil
  | keep h hrest ih => exact .keep h ih
  | add h hrest ih => exact .add h ih

end General

variable {Kept : FieldDraft → FieldDraft → Prop} {Added : FieldDraft → Prop} {fs gs : List FieldDraft}

/-- A key is put behind a field. -/
lemma insertAfter (h : Interleaved Kept Added fs gs) (anchor : String) {k : FieldDraft} (hk : Added k) :
    Interleaved Kept Added fs (FieldDraft.insertAfter anchor k gs) := by
  induction h with
  | nil => exact .add hk .nil
  | keep h hrest ih =>
    rw [FieldDraft.insertAfter]
    split
    · exact .keep h (.add hk hrest)
    · exact .keep h ih
  | add h hrest ih =>
    rw [FieldDraft.insertAfter]
    split
    · exact .add h (.add hk hrest)
    · exact .add h ih

/-- The first field with a name is changed, if there is one. -/
lemma updateFirst (h : Interleaved Kept Added fs gs) {n : String} {change : FieldDraft → FieldDraft}
    (hkept : ∀ f d, gs.find? (·.name == n) = some d → Kept f d → Kept f (change d))
    (hadded : ∀ d, gs.find? (·.name == n) = some d → ¬ Added d) :
    Interleaved Kept Added fs (FieldDraft.updateFirst n change gs) := by
  induction h with
  | nil => exact .nil
  | @keep f g fs gs h hrest ih =>
    rw [FieldDraft.updateFirst]
    split
    · rename_i hname
      exact .keep (hkept f g (by rw [List.find?_cons, hname]) h) hrest
    · rename_i hname
      have hfind : (g :: gs).find? (·.name == n) = gs.find? (·.name == n) := by
        rw [List.find?_cons, (Bool.not_eq_true _).mp hname]
      exact .keep h (ih (fun f' d hd => hkept f' d (hfind.trans hd)) fun d hd => hadded d (hfind.trans hd))
  | @add g fs gs h hrest ih =>
    rw [FieldDraft.updateFirst]
    split
    · rename_i hname
      exact absurd h (hadded g (by rw [List.find?_cons, hname]))
    · rename_i hname
      have hfind : (g :: gs).find? (·.name == n) = gs.find? (·.name == n) := by
        rw [List.find?_cons, (Bool.not_eq_true _).mp hname]
      exact .add h (ih (fun f' d hd => hkept f' d (hfind.trans hd)) fun d hd => hadded d (hfind.trans hd))

end Interleaved

/-- The relation of a field that holds an object or a list. -/
def RelationDef.IsHolder (r : RelationDef) : Prop :=
  r.foreignKey? = none

namespace RelationResolution

/-! ### What becomes of a field -/

/-- The type of a field that can hold an object or a list. -/
def HoldsRows (index : EntityIndex) (t : TypeDef) : Prop :=
  t.category = .container ∨ ∃ l, index.findClass? t = some l

lemma HoldsRows.category_ne {index : EntityIndex} {t : TypeDef} (h : HoldsRows index t) : t.category ≠ .scalar := by
  rcases h with hcontainer | ⟨l, hclass⟩
  · rw [hcontainer]
    decide
  · rw [(EntityIndex.findClass?_eq_some hclass).1]
    decide

/-- The field as it was, or with a relation.  It is stored as before, unless it holds an object or a list. -/
structure KeptField (index : EntityIndex) (f g : FieldDraft) : Prop where
  same : g = { f with relation := g.relation, shouldPersist := g.shouldPersist }
  stored : g.shouldPersist = f.shouldPersist ∨ (g.shouldPersist = false ∧ ∃ r, g.relation = some r ∧ r.IsHolder)
  holds : ∀ r, g.relation = some r → r.IsHolder → HoldsRows index g.type

/-- A key under a name that none of the fields has. -/
structure AddedKey (fs : List FieldDraft) (k : FieldDraft) : Prop where
  origin : k.origin = .synthesized
  stored : k.shouldPersist = true
  key : ∃ r, k.relation = some (.foreignKey r)
  defaults : k.defaults = {}
  name : ∀ f ∈ fs, f.name ≠ k.name

section Frame

variable {index : EntityIndex}

lemma KeptField.refl {f : FieldDraft} (h : f.relation = none) : KeptField index f f where
  same := rfl
  stored := .inl rfl
  holds r hr := by
    rw [h] at hr
    cases hr

lemma KeptField.name {f g : FieldDraft} (h : KeptField index f g) : g.name = f.name := by
  rw [h.same]

/-- A field that has no relation yet, or one of a key, becomes a key; a field whose type can hold an object or a list
gets to hold it. -/
lemma KeptField.relate {f d : FieldDraft} (h : KeptField index f d) {r : RelationDef}
    (hkey : r.foreignKey?.isSome → d.relation = none ∨ d.type.category = .scalar)
    (hholds : r.IsHolder → HoldsRows index d.type) : KeptField index f (d.relate r) where
  same := by
    conv_lhs => rw [h.same]
    rfl
  stored := by
    cases hr : r.foreignKey? with
    | none => exact .inr ⟨by simp [FieldDraft.relate, hr], r, rfl, hr⟩
    | some k =>
      have hpersist : (d.relate r).shouldPersist = d.shouldPersist := by simp [FieldDraft.relate, hr]
      rw [hpersist]
      rcases h.stored with hsame | ⟨-, r', hr', hholds'⟩
      · exact .inl hsame
      · -- The field holds an object or a list, so it is not made a key.
        rcases hkey (by rw [hr]; rfl) with hnone | hscalar
        · rw [hnone] at hr'
          cases hr'
        · exact absurd hscalar (h.holds r' hr' hholds').category_ne
  holds r' hr' hholds' := by
    obtain rfl := Option.some.inj hr'
    exact hholds hholds'

/-- The fields of every entity are those that it had at the beginning, with keys between them. -/
structure Framed (index : EntityIndex) (w : Workspace) : Prop where
  keeps : (initial index).Keeps w
  fields : ∀ i, Interleaved (KeptField index) (AddedKey ((initial index).fieldsAt i)) ((initial index).fieldsAt i)
    (w.fieldsAt i)

/-- A change that relates only fields that were there, keys among them only if they hold nothing, and adds only
keys under new names. -/
structure Gentle (index : EntityIndex) (w : Workspace) (c : Change) : Prop where
  relate : ∀ i n r, c = .relate i n r → ∀ d, w.find? i n = some d →
    (d.relation = none ∨ ∃ f ∈ (initial index).fieldsAt i, f.name = n) ∧
      (r.foreignKey?.isSome → d.relation = none ∨ d.type.category = .scalar) ∧
      (r.IsHolder → HoldsRows index d.type)
  key : ∀ k, c.key? = some k → w.find? c.position k.name = none ∧ k.origin = .synthesized ∧
    k.shouldPersist = true ∧ k.defaults = {} ∧ ∃ r, k.relation = some (.foreignKey r)

/-- A gentle change leaves the frame. -/
lemma framed_apply {w : Workspace} {c : Change} (hw : Framed index w) (hc : Gentle index w c) :
    Framed index (w.apply c) where
  keeps := hw.keeps.trans (Workspace.keeps_apply fun k hk => (hc.key k hk).1)
  fields i := by
    by_cases hi : c.position = i
    swap
    · rw [Workspace.fieldsAt_apply_of_ne w hi]
      exact hw.fields i
    subst hi
    have hfields := hw.fields c.position
    by_cases hlt : c.position < w.fields.length
    swap
    · rw [Workspace.fieldsAt_eq_nil (w := w.apply c) (by rw [Workspace.length_apply]; exact Nat.le_of_not_lt hlt)]
      rwa [Workspace.fieldsAt_eq_nil (Nat.le_of_not_lt hlt)] at hfields
    rw [Workspace.fieldsAt_apply_self hlt]
    -- No field that was there has the name of a key.
    have hadded : ∀ k, c.key? = some k → AddedKey ((initial index).fieldsAt c.position) k := by
      intro k hk
      obtain ⟨hnew, horigin, hstored, hdefaults, hkey⟩ := hc.key k hk
      refine ⟨horigin, hstored, hkey, hdefaults, fun f hf hname => ?_⟩
      obtain ⟨g, hg, hrelated⟩ := hfields.exists_kept hf
      have hne := List.find?_eq_none.mp hnew g hg
      rw [hrelated.name, hname] at hne
      exact hne (beq_self_eq_true _)
    cases c with
    | relate p n r =>
      refine hfields.updateFirst (fun f d hd hrelated => ?_) fun d hd hkey => ?_
      · obtain ⟨-, hfree, hholds⟩ := hc.relate p n r rfl d hd
        exact hrelated.relate hfree hholds
      · obtain ⟨hnone | ⟨f, hf, hname⟩, -, -⟩ := hc.relate p n r rfl d hd
        · obtain ⟨k, hk⟩ := hkey.key
          rw [hnone] at hk
          cases hk
        · exact hkey.name f hf (hname.trans (Workspace.name_of_find? hd).symm)
    | insertAfter p a k => exact hfields.insertAfter a (hadded k rfl)
    | append p k => exact hfields.append (hadded k rfl)

/-! ### Links are gentle -/

/-- Changes each of which is gentle when it is made. -/
def AllGentle (index : EntityIndex) : Workspace → List Change → Prop
  | _, [] => True
  | w, c :: cs => Gentle index w c ∧ AllGentle index (w.apply c) cs

lemma framed_applyAll {w : Workspace} {cs : List Change} (hw : Framed index w) (hcs : AllGentle index w cs) :
    Framed index (w.applyAll cs) := by
  induction cs generalizing w with
  | nil => exact hw
  | cons c cs ih => exact ih (framed_apply hw hcs.1) hcs.2

/-- Relating a field that was there to what its type can hold is gentle. -/
lemma gentle_relate_holder {w : Workspace} {i : Nat} {n : String} {d : FieldDraft} {r : RelationDef}
    (hd : w.find? i n = some d) (hinitial : ∃ f ∈ (initial index).fieldsAt i, f.name = n) (hr : r.IsHolder)
    (hholds : HoldsRows index d.type) : Gentle index w (.relate i n r) where
  relate i' n' r' h d' hd' := by
    cases h
    obtain rfl := Option.some.inj (hd.symm.trans hd')
    refine ⟨.inr hinitial, fun hkey => ?_, fun _ => hholds⟩
    rw [hr] at hkey
    cases hkey
  key k hk := by cases hk

/-- So is relating a field that holds nothing to the row of another table. -/
lemma gentle_relate_key {w : Workspace} {i : Nat} {n : String} {d : FieldDraft} {r : ForeignKeyRelation}
    (hd : w.find? i n = some d) (hinitial : d.relation = none ∨ ∃ f ∈ (initial index).fieldsAt i, f.name = n)
    (hfree : d.relation = none ∨ d.type.category = .scalar) : Gentle index w (.relate i n (.foreignKey r)) where
  relate i' n' r' h d' hd' := by
    cases h
    obtain rfl := Option.some.inj (hd.symm.trans hd')
    exact ⟨hinitial, fun _ => hfree, fun hholds => by cases hholds⟩
  key k hk := by cases hk

/-- So is adding a key under a new name. -/
lemma gentle_add {w : Workspace} {c : Change} {k : FieldDraft} {r : ForeignKeyRelation} (hc : c.key? = some k)
    (hnew : w.find? c.position k.name = none) (horigin : k.origin = .synthesized) (hstored : k.shouldPersist = true)
    (hdefaults : k.defaults = {}) (hkey : k.relation = some (.foreignKey r)) : Gentle index w c where
  relate i n r h := by
    rw [h] at hc
    cases hc
  key k' hk' := by
    obtain rfl := Option.some.inj (hc.symm.trans hk')
    exact ⟨hnew, horigin, hstored, hdefaults, r, hkey⟩

/-- Linking a relation of a field that was there makes gentle changes. -/
lemma Site.Link.allGentle {s : Site} (hindex : s.index = index) {cs : List Change} (h : s.Link cs)
    (hfind : s.workspace.find? s.owner.position s.field.name = some s.field)
    (hinitial : ∃ f ∈ (initial index).fieldsAt s.owner.position, f.name = s.field.name) :
    AllGentle index s.workspace cs := by
  -- The field is still found when a key has been linked or added before.
  have hholder : ∀ c r, Gentle index s.workspace c → r.IsHolder → HoldsRows index s.field.type →
      Gentle index (s.workspace.apply c) (.relate s.owner.position s.field.name r) := by
    intro c r hc hr hholds
    obtain ⟨d, hd, htype⟩ := Workspace.keeps_apply (fun k hk => (hc.key k hk).1) _ _ _ hfind
    exact gentle_relate_holder hd hinitial hr (by rw [htype]; exact hholds)
  have hobject : ∀ target, s.ObjectTarget target → HoldsRows index s.field.type := by
    intro target htarget
    rw [← hindex]
    exact .inr ⟨_, (Site.tableClass_eq_ok_iff.mp htarget.tableClass).1⟩
  cases h with
  | nothing => trivial
  | parent hparent hscalar => exact ⟨gentle_relate_key hfind (.inr hinitial) (.inr hscalar), trivial⟩
  | @ownField target key existing htarget hside hkey hfindKey hoption hrelation =>
    have hgentle : Gentle index s.workspace
        (.relate s.owner.position key.value (.foreignKey (s.keyRelation target))) :=
      gentle_relate_key hfindKey (.inl hrelation) (.inl hrelation)
    exact ⟨hgentle, hholder _ _ hgentle rfl (hobject target htarget), trivial⟩
  | @ownAdded target htarget hside hkey hnew =>
    have hgentle : Gentle index s.workspace (.insertAfter s.owner.position s.field.name (s.addedKey target)) :=
      gentle_add rfl hnew rfl rfl rfl rfl
    exact ⟨hgentle, hholder _ _ hgentle rfl (hobject target htarget), trivial⟩
  | other htarget =>
    exact ⟨gentle_relate_holder hfind hinitial rfl (hobject _ htarget), trivial⟩
  | listNamed htarget =>
    exact ⟨gentle_relate_holder hfind hinitial rfl (.inl htarget.category_eq), trivial⟩
  | @listHidden t target htarget hname hnew =>
    have hgentle : Gentle index s.workspace (.append target.position s.hiddenKey) :=
      gentle_add rfl hnew rfl rfl rfl rfl
    exact ⟨hgentle, hholder _ _ hgentle rfl (.inl htarget.category_eq), trivial⟩

/-! ### All visits -/

/-- At the beginning, when no field has a relation, the fields are those of the beginning. -/
lemma framed_initial (h : ∀ e ∈ index.entities, ∀ f ∈ e.fields, f.relation = none) :
    Framed index (initial index) where
  keeps := Workspace.Keeps.refl _
  fields i := by
    refine Interleaved.refl fun f hf => KeptField.refl ?_
    obtain ⟨e, -, he, hfe⟩ := exists_of_mem_fieldsAt hf
    exact h e he f hfe

/-- A visit makes gentle changes. -/
lemma Framed.allGentle {w : Workspace} (hw : Framed index w) {v : Visit} (hv : v ∈ Visit.ofIndex index) :
    AllGentle index w (v.site index w).resolve.changes := by
  obtain ⟨hfind, hname⟩ := find?_site_of_keeps hw.keeps hv
  obtain ⟨he, -, hf, -⟩ := Visit.mem_ofIndex.mp hv
  have hindex : (v.site index w).index = index := rfl
  refine Site.Link.allGentle hindex (Site.link_resolve _) ?_ ⟨v.declared, ?_, hname.symm⟩
  · rw [hname]
    exact hfind
  · rw [Visit.site_owner, fieldsAt_initial he]
    exact hf

/-- Visits leave the frame, whether or not they can link their relations. -/
lemma framed_runAll {w : Workspace} {vs : List Visit} (hvs : ∀ v ∈ vs, v ∈ Visit.ofIndex index)
    (hw : Framed index w) : Framed index (runAll index w vs).1 := by
  induction vs generalizing w with
  | nil => exact hw
  | cons v vs ih =>
    have hnext := framed_applyAll hw (hw.allGentle (hvs v List.mem_cons_self))
    exact ih (fun v' hv' => hvs v' (List.mem_cons_of_mem v hv')) hnext

/-- When all relations have been resolved, the fields of every entity are those that it had, with keys between
them. -/
theorem framed_visited (h : ∀ e ∈ index.entities, ∀ f ∈ e.fields, f.relation = none) :
    Framed index (visited index).1 :=
  framed_runAll (fun _ hv => hv) (framed_initial h)

/-- Resolving relations leaves an entity as it is, but for the relations of its fields and the keys between them. -/
theorem getElem?_resolve_framed (h : ∀ e ∈ index.entities, ∀ f ∈ e.fields, f.relation = none) {i : Nat} {e : Entity}
    (he : index.entities[i]? = some e) :
    ∃ fs, (resolve index).1[i]? = some (e.withFields fs) ∧
      Interleaved (KeptField index) (AddedKey e.fields) e.fields (e.withFields fs).fields := by
  have hfields := (framed_visited h).fields i
  rw [fieldsAt_initial he] at hfields
  refine ⟨(visited index).1.fieldsAt i, by rw [getElem?_resolve, he, Option.map_some], ?_⟩
  obtain ⟨header, nameSpan, body⟩ := e
  cases body with
  | «class» c => exact hfields
  | exception fields => exact hfields
  | enum values serialized defaultValue => exact .nil

end Frame

end RelationResolution

end EntitySchema
