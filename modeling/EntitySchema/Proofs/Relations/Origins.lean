import Mathlib.Data.List.Basic
import Mathlib.Tactic.Common
import EntitySchema.Proofs.Relations.Keys

/-!
# Where fields come from

Resolving relations removes no field and renames none; it only adds keys.  So at every moment the declared
fields of a class stand in the order of its document, and whatever else is there has been there from the
beginning or is a key (`Accounted`).  One sound change keeps this (`accounted_apply`): a field that is a key
has a scalar type, so no object or list relation ever replaces its own.  What every such change keeps holds when
all relations have been resolved (`visited_of_changes`).
-/

namespace EntitySchema

namespace FieldDraft

/-- The names of the fields that stand in a document, in their order. -/
def declaredNames (fs : List FieldDraft) : List String :=
  (fs.filter (·.origin == .declared)).map (·.name)

@[simp] lemma declaredNames_append (fs gs : List FieldDraft) :
    declaredNames (fs ++ gs) = declaredNames fs ++ declaredNames gs := by
  simp [declaredNames]

lemma declaredNames_cons (f : FieldDraft) (fs : List FieldDraft) :
    declaredNames (f :: fs) = (if f.origin == .declared then [f.name] else []) ++ declaredNames fs := by
  cases h : f.origin == .declared <;> simp [declaredNames, h]

/-- A relation changes neither the name nor the origin of a field. -/
lemma declaredNames_updateFirst (n : String) (r : RelationDef) (fs : List FieldDraft) :
    declaredNames (updateFirst n (relate r) fs) = declaredNames fs := by
  induction fs with
  | nil => rfl
  | cons d ds ih =>
    rw [updateFirst]
    split
    · rw [declaredNames_cons, declaredNames_cons d]
      rfl
    · rw [declaredNames_cons, declaredNames_cons, ih]

/-- A key that is added has not been declared. -/
lemma declaredNames_insertAfter {a : String} {k : FieldDraft} (hk : k.origin = .synthesized)
    (fs : List FieldDraft) : declaredNames (insertAfter a k fs) = declaredNames fs := by
  have hkey : declaredNames [k] = [] := by simp [declaredNames, hk]
  induction fs with
  | nil => exact hkey
  | cons d ds ih =>
    rw [insertAfter]
    split
    · rw [declaredNames_cons, declaredNames_cons k, declaredNames_cons d, hk]
      rfl
    · rw [declaredNames_cons, declaredNames_cons, ih]

end FieldDraft

namespace RelationResolution

/-- A change that adds only keys, which no document declares. -/
def AddsKeys (c : Change) : Prop :=
  ∀ k, c.key? = some k → k.origin = .synthesized ∧ ∃ r, k.relation = some (.foreignKey r)

/-- Linking a relation adds only keys, which no document declares. -/
lemma Site.Link.addsKeys {s : Site} {cs : List Change} (h : s.Link cs) : ∀ c ∈ cs, AddsKeys c := by
  intro c hc k hk
  refine ⟨?_, h.isKey_of_mem hc hk⟩
  cases h with
  | nothing => cases hc
  | parent | other | listNamed =>
    obtain rfl := List.mem_singleton.mp hc
    cases hk
  | ownField =>
    rcases List.mem_cons.mp hc with rfl | hc
    · cases hk
    · obtain rfl := List.mem_singleton.mp hc
      cases hk
  | ownAdded | listHidden =>
    rcases List.mem_cons.mp hc with rfl | hc
    · cases hk
      rfl
    · obtain rfl := List.mem_singleton.mp hc
      cases hk

section Accounted

variable {index : EntityIndex}

/-! ### What every change keeps -/

/-- What every sound change that adds only keys keeps, changes after each other keep. -/
lemma applyAll_induction {P : Workspace → Prop}
    (hstep : ∀ w c, Consistent index w → P w → Sound index w c → AddsKeys c → P (w.apply c)) {w : Workspace}
    {cs : List Change} (hw : Consistent index w) (hP : P w) (hsound : AllSound index w cs)
    (hcs : ∀ c ∈ cs, AddsKeys c) : P (w.applyAll cs) := by
  induction cs generalizing w with
  | nil => exact hP
  | cons c cs ih =>
    have happly := hstep w c hw hP hsound.1 (hcs c List.mem_cons_self)
    exact ih (consistent_apply hw hsound.1) happly hsound.2 fun c' hc' => hcs c' (List.mem_cons_of_mem c hc')

/-- What holds at the beginning and is kept by every sound change that adds only keys holds when all relations
have been resolved. -/
theorem visited_of_changes (ht : Typed index) {P : Workspace → Prop} (hinitial : P (initial index))
    (hstep : ∀ w c, Consistent index w → P w → Sound index w c → AddsKeys c → P (w.apply c)) :
    P (visited index).1 := by
  refine visited_induction ht hinitial fun w v hv hw hP => ?_
  have hkeys := Site.Link.addsKeys (Site.link_resolve (v.site index w))
  exact applyAll_induction hstep hw hP (hw.allSound ht hv) hkeys

/-! ### All fields -/

/-- The declared fields stand as at the beginning, and every other field has been there at the beginning or
is a key. -/
structure Accounted (index : EntityIndex) (w : Workspace) : Prop where
  declared : ∀ i, FieldDraft.declaredNames (w.fieldsAt i) =
    FieldDraft.declaredNames ((initial index).fieldsAt i)
  added : ∀ i, ∀ f ∈ w.fieldsAt i, f.origin = .synthesized →
    (∃ d ∈ (initial index).fieldsAt i, d.origin = .synthesized ∧ d.name = f.name ∧ d.type = f.type ∧
      d.defaults = f.defaults) ∨
    ∃ r, f.relation = some (.foreignKey r)

/-- A change that adds only keys leaves the declared fields where they are. -/
lemma declaredNames_apply {w : Workspace} {c : Change} (hc : AddsKeys c) (i : Nat) :
    FieldDraft.declaredNames ((w.apply c).fieldsAt i) = FieldDraft.declaredNames (w.fieldsAt i) := by
  by_cases hi : c.position = i
  swap
  · rw [Workspace.fieldsAt_apply_of_ne w hi]
  subst hi
  by_cases hlt : c.position < w.fields.length
  swap
  · rw [Workspace.fieldsAt_eq_nil (Nat.le_of_not_lt hlt), Workspace.fieldsAt_eq_nil]
    rw [Workspace.length_apply]
    exact Nat.le_of_not_lt hlt
  rw [Workspace.fieldsAt_apply_self hlt]
  cases c with
  | relate p n r => exact FieldDraft.declaredNames_updateFirst n r _
  | insertAfter p a k => exact FieldDraft.declaredNames_insertAfter (hc k rfl).1 _
  | append p k => simp [Change.edit, FieldDraft.declaredNames, (hc k rfl).1]

/-- A sound change that adds only keys keeps account of the fields. -/
lemma accounted_apply (ht : Typed index) {w : Workspace} {c : Change} (hw : Consistent index w)
    (ha : Accounted index w) (hsound : Sound index w c) (hc : AddsKeys c) : Accounted index (w.apply c) where
  declared i := (declaredNames_apply hc i).trans (ha.declared i)
  added i f hf hadded := by
    rcases Workspace.mem_fieldsAt_apply hf with hf | ⟨d, r, hd, rfl, rfl⟩ | ⟨-, hk⟩
    · exact ha.added i f hf hadded
    · have hmem := Workspace.mem_of_find? hd
      rcases ha.added i d hmem hadded with hinitial | ⟨k, hkey⟩
      · exact Or.inl hinitial
      · -- The field is a scalar, so it gets the relation of a key again.
        have hscalar := ((hw.fields i d hmem).key k hkey).category_eq ht
        obtain ⟨d', hd', -, hholds⟩ := hsound.relate i d.name r rfl
        obtain rfl := Option.some.inj (hd.symm.trans hd')
        cases r with
        | foreignKey r => exact Or.inr ⟨r, rfl⟩
        | object | list => exact absurd hscalar (hholds rfl)
    · exact Or.inr (hc f hk).2

/-- When all relations have been resolved, every field is accounted for. -/
theorem accounted_visited (ht : Typed index) : Accounted index (visited index).1 := by
  refine visited_of_changes ht ⟨fun _ => rfl, fun i f hf hadded => ?_⟩ fun w c => accounted_apply ht
  exact Or.inl ⟨f, hf, hadded, rfl, rfl, rfl⟩

end Accounted

end RelationResolution

end EntitySchema
