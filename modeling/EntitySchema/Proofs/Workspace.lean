import Mathlib.Data.List.Basic
import Mathlib.Tactic.Common
import EntitySchema.Proofs.Shadowing
import EntitySchema.Resolution.Workspace

/-!
# How the fields of a workspace change

A change is *fresh* when it gives a relation to a field that has none, or adds a key under a name that
no field of the entity has.  A workspace `Grows` into another one when every field that is found by its
name is still found under it, unchanged or with its first relation, and the fields with relation options
stay what they are.  Fresh changes make a workspace grow (`grows_applyAll`), and every relation has been
written by one of the changes (`written_of_mem_applyAll`).  What holds of shadowed fields stays true under
any change that adds a key only under a new name (`shadowed_apply`).
-/

namespace EntitySchema

namespace FieldDraft

/-! ### Lookups after one change -/

@[simp] lemma relate_name (r : RelationDef) (f : FieldDraft) : (f.relate r).name = f.name := rfl

@[simp] lemma relate_type (r : RelationDef) (f : FieldDraft) : (f.relate r).type = f.type := rfl

@[simp] lemma relate_relation (r : RelationDef) (f : FieldDraft) :
    (f.relate r).relation = some r := rfl

@[simp] lemma relate_relationOption (r : RelationDef) (f : FieldDraft) :
    (f.relate r).relationOption = f.relationOption := rfl

/-- The name a lookup asks for is the name of what it finds. -/
lemma name_of_find? {l : List FieldDraft} {n : String} {f : FieldDraft}
    (h : l.find? (·.name == n) = some f) : f.name = n := by
  simpa using List.find?_some h

/-- Relating the field of a name changes what is found under this name. -/
lemma find?_updateFirst_self (n : String) (r : RelationDef) (l : List FieldDraft) :
    (updateFirst n (relate r) l).find? (·.name == n) = (l.find? (·.name == n)).map (relate r) := by
  induction l with
  | nil => rfl
  | cons d ds ih =>
    by_cases h : d.name == n
    · simp [updateFirst, h]
    · simp [updateFirst, h, ih]

/-- Relating the field of a name leaves the other names alone. -/
lemma find?_updateFirst_of_ne {m n : String} (hmn : m ≠ n) (r : RelationDef) (l : List FieldDraft) :
    (updateFirst n (relate r) l).find? (·.name == m) = l.find? (·.name == m) := by
  induction l with
  | nil => rfl
  | cons d ds ih =>
    by_cases h : d.name == n
    · have hd : d.name ≠ m := by
        rw [beq_iff_eq] at h
        rw [h]
        exact hmn.symm
      simp [updateFirst, h, hd]
    · simp only [updateFirst, h, Bool.false_eq_true, if_false, List.find?_cons, ih]

/-- A field of the changed list is a field of the list, or the one that has got the relation. -/
lemma mem_updateFirst {n : String} {r : RelationDef} {l : List FieldDraft} {x : FieldDraft}
    (h : x ∈ updateFirst n (relate r) l) :
    x ∈ l ∨ ∃ d, l.find? (·.name == n) = some d ∧ x = d.relate r := by
  induction l with
  | nil => exact Or.inl h
  | cons d ds ih =>
    by_cases hd : d.name == n
    · simp only [updateFirst, hd, if_true, List.mem_cons] at h
      rcases h with rfl | h
      · exact Or.inr ⟨d, by simp [hd], rfl⟩
      · exact Or.inl (List.mem_cons_of_mem d h)
    · simp only [updateFirst, hd, Bool.false_eq_true, if_false, List.mem_cons] at h
      rcases h with rfl | h
      · exact Or.inl List.mem_cons_self
      · rcases ih h with h | ⟨e, he, rfl⟩
        · exact Or.inl (List.mem_cons_of_mem d h)
        · exact Or.inr ⟨e, by simp [hd, he], rfl⟩

/-- Putting a key behind a field adds the key and nothing else. -/
lemma mem_insertAfter {a : String} {k x : FieldDraft} {l : List FieldDraft} :
    x ∈ insertAfter a k l ↔ x = k ∨ x ∈ l := by
  induction l with
  | nil => simp [insertAfter]
  | cons d ds ih =>
    by_cases hd : d.name == a
    · simp [insertAfter, hd, or_left_comm]
    · simp [insertAfter, hd, ih, or_left_comm]

/-- A key that is put behind a field is found if its name is new. -/
lemma find?_insertAfter_self {a : String} {k : FieldDraft} {l : List FieldDraft}
    (h : l.find? (·.name == k.name) = none) :
    (insertAfter a k l).find? (·.name == k.name) = some k := by
  induction l with
  | nil => simp [insertAfter]
  | cons d ds ih =>
    rw [List.find?_cons] at h
    cases hk : d.name == k.name with
    | true => simp [hk] at h
    | false =>
      rw [hk] at h
      by_cases hd : d.name == a
      · simp [insertAfter, hd, hk]
      · simp [insertAfter, hd, hk, ih h]

/-- Putting a key behind a field leaves the other names alone. -/
lemma find?_insertAfter_of_ne {a m : String} {k : FieldDraft} (hm : m ≠ k.name) (l : List FieldDraft) :
    (insertAfter a k l).find? (·.name == m) = l.find? (·.name == m) := by
  have hk : ¬ k.name = m := fun h => hm h.symm
  induction l with
  | nil => simp [insertAfter, hk]
  | cons d ds ih =>
    by_cases hd : d.name == a
    · simp [insertAfter, hd, hk, List.find?_cons]
    · simp only [insertAfter, hd, Bool.false_eq_true, if_false, List.find?_cons, ih]

/-! ### Shadowed fields after one change -/

/-- A field that is related is the first one of its name, so it is not shadowed. -/
lemma Shadowed.updateFirst {P : FieldDraft → Prop} {l : List FieldDraft} (h : Shadowed P l) (n : String)
    (r : RelationDef) : Shadowed P (updateFirst n (relate r) l) := by
  induction l with
  | nil => exact h
  | cons d ds ih =>
    obtain ⟨hd, hds⟩ := List.pairwise_cons.mp h
    by_cases hn : d.name = n
    · simp only [FieldDraft.updateFirst, hn, beq_self_eq_true, if_true]
      exact List.pairwise_cons.mpr ⟨fun g hg heq => hd g hg heq, hds⟩
    · simp only [FieldDraft.updateFirst, beq_iff_eq, hn, if_false]
      refine List.pairwise_cons.mpr ⟨fun g hg heq => ?_, ih hds⟩
      rcases mem_updateFirst hg with hg | ⟨x, hx, rfl⟩
      · exact hd g hg heq
      · have hx' : x.name = n := name_of_find? hx
        exact absurd (heq.trans hx') hn

/-- A key under a new name is not shadowed, and shadows nothing. -/
lemma Shadowed.insertAfter {P : FieldDraft → Prop} {l : List FieldDraft} (h : Shadowed P l) (a : String)
    {k : FieldDraft} (hnew : ∀ d ∈ l, d.name ≠ k.name) : Shadowed P (insertAfter a k l) := by
  induction l with
  | nil => exact List.pairwise_singleton _ _
  | cons d ds ih =>
    obtain ⟨hd, hds⟩ := List.pairwise_cons.mp h
    have hnewHead := hnew d List.mem_cons_self
    have hnewTail := fun x hx => hnew x (List.mem_cons_of_mem d hx)
    by_cases ha : d.name = a
    · simp only [FieldDraft.insertAfter, ha, beq_self_eq_true, if_true]
      refine List.pairwise_cons.mpr ⟨fun g hg heq => ?_, List.pairwise_cons.mpr ⟨fun g hg heq => ?_, hds⟩⟩
      · rcases List.mem_cons.mp hg with rfl | hg
        · exact absurd heq hnewHead
        · exact hd g hg heq
      · exact absurd heq.symm (hnewTail g hg)
    · simp only [FieldDraft.insertAfter, beq_iff_eq, ha, if_false]
      refine List.pairwise_cons.mpr ⟨fun g hg heq => ?_, ih hds hnewTail⟩
      rcases mem_insertAfter.mp hg with rfl | hg
      · exact absurd heq hnewHead
      · exact hd g hg heq

/-- The same at the end. -/
lemma Shadowed.append {P : FieldDraft → Prop} {l : List FieldDraft} (h : Shadowed P l) {k : FieldDraft}
    (hnew : ∀ d ∈ l, d.name ≠ k.name) : Shadowed P (l ++ [k]) := by
  refine List.pairwise_append.mpr ⟨h, List.pairwise_singleton _ _, fun f hf g hg heq => ?_⟩
  obtain rfl := List.mem_singleton.mp hg
  exact absurd heq (hnew f hf)

/-! ### Relation options -/

/-- What a field says about its relation: its name, its type and its relation option. -/
def optioned? (f : FieldDraft) : Option (String × TypeDef × RelationOption) :=
  f.relationOption.map fun o => (f.name, f.type, o)

@[simp] lemma optioned?_relate (r : RelationDef) (f : FieldDraft) :
    (f.relate r).optioned? = f.optioned? := rfl

/-- Relations leave the relation options alone. -/
lemma filterMap_optioned?_updateFirst (n : String) (r : RelationDef) (l : List FieldDraft) :
    (updateFirst n (relate r) l).filterMap optioned? = l.filterMap optioned? := by
  induction l with
  | nil => rfl
  | cons d ds ih =>
    by_cases hd : d.name == n
    · simp [updateFirst, hd, List.filterMap_cons]
    · simp [updateFirst, hd, List.filterMap_cons, ih]

/-- A key has no relation option. -/
lemma filterMap_optioned?_insertAfter {a : String} {k : FieldDraft} (hk : k.relationOption = none)
    (l : List FieldDraft) :
    (insertAfter a k l).filterMap optioned? = l.filterMap optioned? := by
  have hk' : k.optioned? = none := by simp [optioned?, hk]
  induction l with
  | nil => simp [insertAfter, hk']
  | cons d ds ih =>
    by_cases hd : d.name == a
    · simp [insertAfter, hd, List.filterMap_cons, hk']
    · simp [insertAfter, hd, List.filterMap_cons, ih]

/-- The field is the same, or it has got its first relation. -/
def Settles (f f' : FieldDraft) : Prop :=
  f' = f ∨ ∃ r, f.relation = none ∧ f' = f.relate r

lemma Settles.trans {f g h : FieldDraft} (hfg : f.Settles g) (hgh : g.Settles h) : f.Settles h := by
  rcases hfg with rfl | ⟨r, hf, rfl⟩
  · exact hgh
  · rcases hgh with rfl | ⟨r', hg, -⟩
    · exact Or.inr ⟨r, hf, rfl⟩
    · cases hg

/-- A relation is never replaced. -/
lemma Settles.eq_of_relation {f f' : FieldDraft} {r : RelationDef} (h : f.Settles f')
    (hr : f.relation = some r) : f' = f := by
  rcases h with rfl | ⟨r', hf, -⟩
  · rfl
  · rw [hr] at hf
    cases hf

end FieldDraft

/-! ### Fresh changes -/

namespace Change

/-- The position of the entity that a change is about. -/
def position : Change → Nat
  | .relate p _ _ => p
  | .insertAfter p _ _ => p
  | .append p _ => p

/-- What a change does to the fields of its entity. -/
def edit : Change → List FieldDraft → List FieldDraft
  | .relate _ name r => FieldDraft.updateFirst name (FieldDraft.relate r)
  | .insertAfter _ anchor key => FieldDraft.insertAfter anchor key
  | .append _ key => (· ++ [key])

/-- The key that a change adds, if it adds one. -/
def key? : Change → Option FieldDraft
  | .relate .. => none
  | .insertAfter _ _ key => some key
  | .append _ key => some key

/-- A change that replaces no relation and adds a key only under a new name. -/
structure Fresh (w : Workspace) (c : Change) : Prop where
  relate : ∀ p n r, c = .relate p n r → ∃ d, w.find? p n = some d ∧ d.relation = none
  inRange : c.position < w.fields.length
  key : ∀ k, c.key? = some k → w.find? c.position k.name = none ∧ k.relationOption = none
  keyRelation : ∀ k, c.key? = some k → k.relation.isSome

/-- The field of an entity to which a change has given its relation. -/
def Writes (c : Change) (i : Nat) (f : FieldDraft) (r : RelationDef) : Prop :=
  c = .relate i f.name r ∨ (c.position = i ∧ c.key? = some f)

@[simp] lemma writes_relate_iff {p i : Nat} {n : String} {f : FieldDraft} {r r' : RelationDef} :
    (Change.relate p n r').Writes i f r ↔ p = i ∧ n = f.name ∧ r' = r := by
  simp [Writes, key?]

@[simp] lemma writes_insertAfter_iff {p i : Nat} {a : String} {k f : FieldDraft} {r : RelationDef} :
    (Change.insertAfter p a k).Writes i f r ↔ p = i ∧ k = f := by
  simp [Writes, key?, position]

@[simp] lemma writes_append_iff {p i : Nat} {k f : FieldDraft} {r : RelationDef} :
    (Change.append p k).Writes i f r ↔ p = i ∧ k = f := by
  simp [Writes, key?, position]

end Change

namespace Workspace

lemma apply_eq (w : Workspace) (c : Change) : w.apply c = ⟨w.fields.modify c.position c.edit⟩ := by
  cases c <;> rfl

@[simp] lemma length_apply (w : Workspace) (c : Change) :
    (w.apply c).fields.length = w.fields.length := by
  simp [apply_eq]

/-- A change leaves the other entities alone. -/
lemma fieldsAt_apply_of_ne (w : Workspace) {c : Change} {i : Nat} (h : c.position ≠ i) :
    (w.apply c).fieldsAt i = w.fieldsAt i := by
  simp [apply_eq, fieldsAt, List.getD_eq_getElem?_getD, h]

/-- What a change does to the fields of its entity. -/
lemma fieldsAt_apply_self {w : Workspace} {c : Change} (h : c.position < w.fields.length) :
    (w.apply c).fieldsAt c.position = c.edit (w.fieldsAt c.position) := by
  simp [apply_eq, fieldsAt, List.getD_eq_getElem?_getD, h]

/-- Behind the last entity there are no fields. -/
lemma fieldsAt_eq_nil {w : Workspace} {i : Nat} (h : w.fields.length ≤ i) : w.fieldsAt i = [] := by
  simp [fieldsAt, List.getD_eq_getElem?_getD, List.getElem?_eq_none h]

/-- A field is found only at the position of an entity. -/
lemma lt_length_of_find? {w : Workspace} {i : Nat} {n : String} {f : FieldDraft}
    (h : w.find? i n = some f) : i < w.fields.length := by
  by_contra hi
  simp [find?, fieldsAt_eq_nil (Nat.le_of_not_lt hi)] at h

lemma name_of_find? {w : Workspace} {i : Nat} {n : String} {f : FieldDraft}
    (h : w.find? i n = some f) : f.name = n :=
  FieldDraft.name_of_find? h

lemma mem_of_find? {w : Workspace} {i : Nat} {n : String} {f : FieldDraft}
    (h : w.find? i n = some f) : f ∈ w.fieldsAt i :=
  List.mem_of_find?_eq_some h

/-- Relating a field changes what is found under its name. -/
lemma find?_apply_relate {w : Workspace} {i : Nat} {n : String} {f : FieldDraft} (r : RelationDef)
    (h : w.find? i n = some f) : (w.apply (.relate i n r)).find? i n = some (f.relate r) := by
  have hi : (Change.relate i n r).position < w.fields.length := lt_length_of_find? h
  have happly : (w.apply (.relate i n r)).fieldsAt i = _ := fieldsAt_apply_self hi
  unfold find? at h ⊢
  rw [happly]
  simp [Change.edit, Change.position, FieldDraft.find?_updateFirst_self, h]

/-- A fresh key is found under its name. -/
lemma find?_apply_key {w : Workspace} {c : Change} {k : FieldDraft} (hc : c.Fresh w)
    (hk : c.key? = some k) : (w.apply c).find? c.position k.name = some k := by
  have hnew := (hc.key k hk).1
  unfold find? at hnew ⊢
  rw [fieldsAt_apply_self hc.inRange]
  cases c with
  | relate p n r => cases hk
  | insertAfter p a k' =>
    cases hk
    exact FieldDraft.find?_insertAfter_self hnew
  | append p k' =>
    cases hk
    simp [Change.edit, hnew]

/-- A change that adds no key under a name that is there leaves every field alone that it does not
relate. -/
lemma find?_apply_of_new {w : Workspace} {c : Change}
    (hnew : ∀ k, c.key? = some k → w.find? c.position k.name = none) {i : Nat} {n : String}
    {f : FieldDraft} (hf : w.find? i n = some f) (hne : ∀ r, c ≠ .relate i n r) :
    (w.apply c).find? i n = some f := by
  by_cases hi : c.position = i
  swap
  · rw [find?, fieldsAt_apply_of_ne w hi]
    exact hf
  subst hi
  have hlt := lt_length_of_find? hf
  -- The name of a key is new, so it is not the name of the field.
  have hkey : ∀ k, c.key? = some k → n ≠ k.name := by
    rintro k hk rfl
    rw [hnew k hk] at hf
    cases hf
  unfold find? at hf ⊢
  rw [fieldsAt_apply_self hlt]
  cases c with
  | relate p m r =>
    have hnm : n ≠ m := by
      rintro rfl
      exact hne r rfl
    exact (FieldDraft.find?_updateFirst_of_ne hnm r _).trans hf
  | insertAfter p a k => exact (FieldDraft.find?_insertAfter_of_ne (hkey k rfl) _).trans hf
  | append p k =>
    simp only [Change.edit, Change.position, List.find?_append] at hf ⊢
    rw [hf, Option.some_or]

/-- A fresh change leaves every field alone that it does not relate. -/
lemma find?_apply_of_fresh {w : Workspace} {c : Change} (hc : c.Fresh w) {i : Nat} {n : String}
    {f : FieldDraft} (hf : w.find? i n = some f) (hne : ∀ r, c ≠ .relate i n r) :
    (w.apply c).find? i n = some f :=
  find?_apply_of_new (fun k hk => (hc.key k hk).1) hf hne

/-- What a field says about its relation after a fresh change. -/
lemma options_apply {w : Workspace} {c : Change} (hc : c.Fresh w) (i : Nat) :
    ((w.apply c).fieldsAt i).filterMap FieldDraft.optioned? =
      (w.fieldsAt i).filterMap FieldDraft.optioned? := by
  by_cases hi : c.position = i
  swap
  · rw [fieldsAt_apply_of_ne w hi]
  subst hi
  rw [fieldsAt_apply_self hc.inRange]
  cases c with
  | relate p n r => exact FieldDraft.filterMap_optioned?_updateFirst n r _
  | insertAfter p a k => exact FieldDraft.filterMap_optioned?_insertAfter (hc.key k rfl).2 _
  | append p k => simp [Change.edit, FieldDraft.optioned?, (hc.key k rfl).2]

/-- A field after a change was there before, or the change has written it. -/
lemma mem_fieldsAt_apply {w : Workspace} {c : Change} {i : Nat} {f : FieldDraft}
    (hf : f ∈ (w.apply c).fieldsAt i) :
    f ∈ w.fieldsAt i ∨
      (∃ d r, w.find? i d.name = some d ∧ c = .relate i d.name r ∧ f = d.relate r) ∨
      (c.position = i ∧ c.key? = some f) := by
  by_cases hi : c.position = i
  swap
  · rw [fieldsAt_apply_of_ne w hi] at hf
    exact Or.inl hf
  subst hi
  by_cases hlt : c.position < w.fields.length
  swap
  · -- There is no entity at the position, and nothing is changed.
    rw [fieldsAt_eq_nil (w := w.apply c) (by rw [length_apply]; exact Nat.le_of_not_lt hlt)] at hf
    cases hf
  rw [fieldsAt_apply_self hlt] at hf
  cases c with
  | relate p n r =>
    rcases FieldDraft.mem_updateFirst hf with hf | ⟨d, hd, rfl⟩
    · exact Or.inl hf
    · obtain rfl := FieldDraft.name_of_find? hd
      exact Or.inr (Or.inl ⟨d, r, hd, rfl, rfl⟩)
  | insertAfter p a k =>
    rcases FieldDraft.mem_insertAfter.mp hf with rfl | hf
    · exact Or.inr (Or.inr ⟨rfl, rfl⟩)
    · exact Or.inl hf
  | append p k =>
    rcases List.mem_append.mp hf with hf | hf
    · exact Or.inl hf
    · rw [List.mem_singleton] at hf
      exact Or.inr (Or.inr ⟨rfl, by rw [hf]; rfl⟩)

/-- A field without a relation was there before. -/
lemma mem_fieldsAt_of_unrelated {w : Workspace} {c : Change} (hc : c.Fresh w) {i : Nat} {f : FieldDraft}
    (hf : f ∈ (w.apply c).fieldsAt i) (hr : f.relation = none) : f ∈ w.fieldsAt i := by
  rcases mem_fieldsAt_apply hf with hf | ⟨d, r, -, -, rfl⟩ | ⟨-, hk⟩
  · exact hf
  · cases hr
  · have := hc.keyRelation f hk
    simp [hr] at this

/-- A change that adds a key only under a new name keeps what holds of shadowed fields. -/
lemma shadowed_apply {P : FieldDraft → Prop} {w : Workspace} {c : Change}
    (hnew : ∀ k, c.key? = some k → w.find? c.position k.name = none)
    (h : ∀ i, FieldDraft.Shadowed P (w.fieldsAt i)) (i : Nat) :
    FieldDraft.Shadowed P ((w.apply c).fieldsAt i) := by
  by_cases hi : c.position = i
  swap
  · rw [fieldsAt_apply_of_ne w hi]
    exact h i
  subst hi
  by_cases hlt : c.position < w.fields.length
  swap
  · rw [fieldsAt_eq_nil (w := w.apply c) (by rw [length_apply]; exact Nat.le_of_not_lt hlt)]
    exact List.Pairwise.nil
  rw [fieldsAt_apply_self hlt]
  have hother : ∀ k, c.key? = some k → ∀ d ∈ w.fieldsAt c.position, d.name ≠ k.name := by
    intro k hk d hd
    have hnone := List.find?_eq_none.mp (hnew k hk) d hd
    simpa using hnone
  cases c with
  | relate p n r => exact (h p).updateFirst n r
  | insertAfter p a k => exact (h p).insertAfter a (hother k rfl)
  | append p k => exact (h p).append (hother k rfl)

/-- What is found under a name before is found afterwards, with the same type. -/
def Keeps (w w' : Workspace) : Prop :=
  ∀ i n f, w.find? i n = some f → ∃ f', w'.find? i n = some f' ∧ f'.type = f.type

lemma Keeps.refl (w : Workspace) : w.Keeps w :=
  fun _ _ f hf => ⟨f, hf, rfl⟩

lemma Keeps.trans {u v w : Workspace} (huv : u.Keeps v) (hvw : v.Keeps w) : u.Keeps w := by
  intro i n f hf
  obtain ⟨g, hg, hfg⟩ := huv i n f hf
  obtain ⟨h, hh, hgh⟩ := hvw i n g hg
  exact ⟨h, hh, hgh.trans hfg⟩

/-- A change that adds no key under a name that is there keeps what is found. -/
lemma keeps_apply {w : Workspace} {c : Change}
    (hnew : ∀ k, c.key? = some k → w.find? c.position k.name = none) : w.Keeps (w.apply c) := by
  intro i n f hf
  by_cases hrel : ∃ r, c = .relate i n r
  · obtain ⟨r, rfl⟩ := hrel
    exact ⟨f.relate r, find?_apply_relate r hf, rfl⟩
  · exact ⟨f, find?_apply_of_new hnew hf fun r hr => hrel ⟨r, hr⟩, rfl⟩

/-! ### Growth -/

/-- Every field that is found is still found, unchanged or with its first relation; a field without
relation is not new; and the fields with relation options stay what they are. -/
structure Grows (w w' : Workspace) : Prop where
  length_eq : w'.fields.length = w.fields.length
  options_eq : ∀ i, (w'.fieldsAt i).filterMap FieldDraft.optioned? =
    (w.fieldsAt i).filterMap FieldDraft.optioned?
  find : ∀ i n f, w.find? i n = some f → ∃ f', w'.find? i n = some f' ∧ f.Settles f'
  unrelated : ∀ i, ∀ f ∈ w'.fieldsAt i, f.relation = none → f ∈ w.fieldsAt i

lemma Grows.refl (w : Workspace) : w.Grows w :=
  ⟨rfl, fun _ => rfl, fun _ _ f hf => ⟨f, hf, Or.inl rfl⟩, fun _ _ hf _ => hf⟩

lemma Grows.trans {u v w : Workspace} (huv : u.Grows v) (hvw : v.Grows w) : u.Grows w := by
  refine ⟨hvw.length_eq.trans huv.length_eq, fun i => (hvw.options_eq i).trans (huv.options_eq i), ?_,
    fun i f hf hr => huv.unrelated i f (hvw.unrelated i f hf hr) hr⟩
  intro i n f hf
  obtain ⟨g, hg, hfg⟩ := huv.find i n f hf
  obtain ⟨h, hh, hgh⟩ := hvw.find i n g hg
  exact ⟨h, hh, hfg.trans hgh⟩

/-- A field that has a relation stays as it is. -/
lemma Grows.find?_of_relation {w w' : Workspace} (h : w.Grows w') {i : Nat} {n : String}
    {f : FieldDraft} {r : RelationDef} (hf : w.find? i n = some f) (hr : f.relation = some r) :
    w'.find? i n = some f := by
  obtain ⟨f', hf', hs⟩ := h.find i n f hf
  rwa [hs.eq_of_relation hr] at hf'

/-- A fresh change makes a workspace grow. -/
lemma grows_apply {w : Workspace} {c : Change} (hc : c.Fresh w) : w.Grows (w.apply c) := by
  refine ⟨length_apply w c, options_apply hc, ?_, fun i f hf hr => mem_fieldsAt_of_unrelated hc hf hr⟩
  intro i n f hf
  by_cases hrel : ∃ r, c = .relate i n r
  · obtain ⟨r, rfl⟩ := hrel
    obtain ⟨d, hd, hnone⟩ := hc.relate i n r rfl
    rw [hf] at hd
    obtain rfl := Option.some.inj hd
    exact ⟨f.relate r, find?_apply_relate r hf, Or.inr ⟨r, hnone, rfl⟩⟩
  · exact ⟨f, find?_apply_of_fresh hc hf fun r hr => hrel ⟨r, hr⟩, Or.inl rfl⟩

/-! ### Several changes -/

/-- Changes each of which is fresh when it is made. -/
def AllFresh : Workspace → List Change → Prop
  | _, [] => True
  | w, c :: cs => c.Fresh w ∧ AllFresh (w.apply c) cs

@[simp] lemma applyAll_cons (w : Workspace) (c : Change) (cs : List Change) :
    w.applyAll (c :: cs) = (w.apply c).applyAll cs := rfl

/-- Changes keep the number of entities. -/
@[simp] lemma length_applyAll (w : Workspace) (cs : List Change) :
    (w.applyAll cs).fields.length = w.fields.length := by
  induction cs generalizing w with
  | nil => rfl
  | cons c cs ih => rw [applyAll_cons, ih, length_apply]

/-- Fresh changes make a workspace grow. -/
lemma grows_applyAll {w : Workspace} {cs : List Change} (h : w.AllFresh cs) :
    w.Grows (w.applyAll cs) := by
  induction cs generalizing w with
  | nil => exact Grows.refl w
  | cons c cs ih => exact (grows_apply h.1).trans (ih h.2)

/-- Fresh changes leave every field alone that they do not relate. -/
lemma find?_applyAll_of_fresh {w : Workspace} {cs : List Change} (h : w.AllFresh cs) {i : Nat}
    {n : String} {f : FieldDraft} (hf : w.find? i n = some f)
    (hne : ∀ c ∈ cs, ∀ r, c ≠ .relate i n r) : (w.applyAll cs).find? i n = some f := by
  induction cs generalizing w with
  | nil => exact hf
  | cons c cs ih =>
    have hf' := find?_apply_of_fresh h.1 hf (hne c List.mem_cons_self)
    exact ih h.2 hf' fun c' hc' => hne c' (List.mem_cons_of_mem c hc')

/-- A field that one of several fresh changes relates had no relation before, and it has the relation of
the change afterwards. -/
lemma find?_applyAll_relate {w : Workspace} {cs : List Change} (h : w.AllFresh cs) {i : Nat}
    {n : String} {f : FieldDraft} {r : RelationDef} (hf : w.find? i n = some f)
    (hc : Change.relate i n r ∈ cs) :
    f.relation = none ∧ (w.applyAll cs).find? i n = some (f.relate r) := by
  induction cs generalizing w f with
  | nil => cases hc
  | cons c cs ih =>
    rcases List.mem_cons.mp hc with rfl | hc
    · obtain ⟨d, hd, hnone⟩ := h.1.relate i n r rfl
      rw [hf] at hd
      obtain rfl := Option.some.inj hd
      exact ⟨hnone, (grows_applyAll h.2).find?_of_relation (find?_apply_relate r hf) rfl⟩
    · obtain ⟨g, hg, hs⟩ := (grows_apply h.1).find i n f hf
      obtain ⟨hnone, hfind⟩ := ih h.2 hg hc
      -- Had the field got a relation by now, the change would not be fresh.
      rcases hs with rfl | ⟨r', -, rfl⟩
      · exact ⟨hnone, hfind⟩
      · cases hnone

/-- A key that one of several fresh changes adds is found afterwards. -/
lemma find?_applyAll_key {w : Workspace} {cs : List Change} (h : w.AllFresh cs) {c : Change}
    {k : FieldDraft} (hc : c ∈ cs) (hk : c.key? = some k) :
    (w.applyAll cs).find? c.position k.name = some k := by
  induction cs generalizing w with
  | nil => cases hc
  | cons c' cs ih =>
    rcases List.mem_cons.mp hc with rfl | hc
    · obtain ⟨r, hr⟩ := Option.isSome_iff_exists.mp (h.1.keyRelation k hk)
      exact (grows_applyAll h.2).find?_of_relation (find?_apply_key h.1 hk) hr
    · exact ih h.2 hc

/-- A field with a relation after fresh changes was there before, or one of the changes has written
its relation. -/
lemma written_of_mem_applyAll {w : Workspace} {cs : List Change} (h : w.AllFresh cs) {i : Nat}
    {f : FieldDraft} {r : RelationDef} (hf : f ∈ (w.applyAll cs).fieldsAt i)
    (hr : f.relation = some r) : f ∈ w.fieldsAt i ∨ ∃ c ∈ cs, c.Writes i f r := by
  induction cs generalizing w with
  | nil => exact Or.inl hf
  | cons c cs ih =>
    rcases ih h.2 hf with hf | ⟨c', hc', hw⟩
    swap
    · exact Or.inr ⟨c', List.mem_cons_of_mem c hc', hw⟩
    rcases mem_fieldsAt_apply hf with hf | ⟨d, r', -, rfl, rfl⟩ | hk
    · exact Or.inl hf
    · obtain rfl := Option.some.inj hr
      exact Or.inr ⟨_, List.mem_cons_self, Or.inl rfl⟩
    · exact Or.inr ⟨c, List.mem_cons_self, Or.inr hk⟩

end Workspace

end EntitySchema
