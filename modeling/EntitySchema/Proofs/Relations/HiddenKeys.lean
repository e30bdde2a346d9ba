import Mathlib.Data.List.Basic
import Mathlib.Tactic.Common
import EntitySchema.Proofs.Relations.Keys

/-!
# Hidden keys stand apart

The keys that unnamed list fields add to other classes have names that no document gives to a field, and
they stand behind all other fields.  So the fields of a class fall into two parts at every moment
(`Workspace.Parted`): its own fields, which only the relations of the class itself change, and the hidden
keys, of which every class adds its own at the end.  What a tidy change does to the two parts is said once
(`Parted.own_apply_self`, `Parted.own_apply_of_ne`, `Parted.hiddenKeys_apply`), linking a relation makes
only tidy changes (`Site.Link.allTidy`), and so all visits leave the workspace `Orderly`.
-/

namespace EntitySchema

namespace FieldDraft

/-- A key that an unnamed list field has added. -/
structure IsHiddenKey (k : FieldDraft) : Prop where
  name : Naming.isFieldName k.name = false
  hidden : k.hidden = true
  origin : k.origin = .synthesized
  option : k.relationOption = none
  relation : ∃ r, k.relation = some (.foreignKey r)

/-- A relation of a field in front of fields with other names. -/
lemma updateFirst_append {n : String} {f : FieldDraft → FieldDraft} {ks : List FieldDraft}
    (h : ∀ k ∈ ks, k.name ≠ n) (fs : List FieldDraft) :
    updateFirst n f (fs ++ ks) = updateFirst n f fs ++ ks := by
  induction fs with
  | nil =>
    induction ks with
    | nil => rfl
    | cons k ks ih =>
      have hk := h k List.mem_cons_self
      have htail := ih fun k' hk' => h k' (List.mem_cons_of_mem k hk')
      simp only [updateFirst, List.nil_append] at htail
      simp [updateFirst, hk, htail]
  | cons d ds ih =>
    by_cases hd : d.name == n
    · simp [updateFirst, hd]
    · simp [updateFirst, hd, ih]

/-- A key behind a field that stands in front of other fields. -/
lemma insertAfter_append {a : String} {k : FieldDraft} {fs : List FieldDraft} (h : ∃ d ∈ fs, d.name = a)
    (ks : List FieldDraft) : insertAfter a k (fs ++ ks) = insertAfter a k fs ++ ks := by
  induction fs with
  | nil =>
    obtain ⟨d, hd, -⟩ := h
    cases hd
  | cons d ds ih =>
    by_cases hd : d.name == a
    · simp [insertAfter, hd]
    · have htail : ∃ d ∈ ds, d.name = a := by
        obtain ⟨d', hd', hname⟩ := h
        rcases List.mem_cons.mp hd' with rfl | hd'
        · simp [hname] at hd
        · exact ⟨d', hd', hname⟩
      simp [insertAfter, hd, ih htail]

/-- A relation leaves the names alone. -/
lemma forall_name_updateFirst {P : String → Prop} {n : String} {r : RelationDef} {fs : List FieldDraft}
    (h : ∀ f ∈ fs, P f.name) : ∀ f ∈ updateFirst n (relate r) fs, P f.name := by
  intro f hf
  rcases mem_updateFirst hf with hf | ⟨d, hd, rfl⟩
  · exact h f hf
  · exact h d (List.mem_of_find?_eq_some hd)

end FieldDraft

/-! ### The two parts -/

namespace Workspace

/-- The fields of an entity in front of its hidden keys. -/
def own (w : Workspace) (i : Nat) : List FieldDraft :=
  (w.fieldsAt i).takeWhile fun f => Naming.isFieldName f.name

/-- The hidden keys of an entity. -/
def hiddenKeys (w : Workspace) (i : Nat) : List FieldDraft :=
  (w.fieldsAt i).dropWhile fun f => Naming.isFieldName f.name

/-- Behind the own fields of every entity there are only hidden keys. -/
def Parted (w : Workspace) : Prop :=
  ∀ i, ∀ k ∈ w.hiddenKeys i, k.IsHiddenKey

lemma own_append_hiddenKeys (w : Workspace) (i : Nat) : w.own i ++ w.hiddenKeys i = w.fieldsAt i :=
  List.takeWhile_append_dropWhile

/-- Own fields have names that a document can give. -/
lemma isFieldName_of_mem_own {w : Workspace} {i : Nat} {f : FieldDraft} (h : f ∈ w.own i) :
    Naming.isFieldName f.name = true :=
  List.mem_takeWhile_imp (p := fun f : FieldDraft => Naming.isFieldName f.name) h

/-- The two parts are determined by the names. -/
lemma own_eq {w : Workspace} {i : Nat} {fs ks : List FieldDraft} (h : w.fieldsAt i = fs ++ ks)
    (hfs : ∀ f ∈ fs, Naming.isFieldName f.name = true) (hks : ∀ k ∈ ks, k.IsHiddenKey) : w.own i = fs := by
  have hnone : ks.takeWhile (fun f => Naming.isFieldName f.name) = [] := by
    cases ks with
    | nil => rfl
    | cons k ks => simp [(hks k List.mem_cons_self).name]
  rw [own, h, List.takeWhile_append_of_pos hfs, hnone, List.append_nil]

lemma hiddenKeys_eq {w : Workspace} {i : Nat} {fs ks : List FieldDraft} (h : w.fieldsAt i = fs ++ ks)
    (hfs : ∀ f ∈ fs, Naming.isFieldName f.name = true) (hks : ∀ k ∈ ks, k.IsHiddenKey) :
    w.hiddenKeys i = ks := by
  have hown := own_append_hiddenKeys w i
  rw [own_eq h hfs hks, h] at hown
  exact List.append_cancel_left hown

/-- A name that a document can give is looked up among the own fields. -/
lemma Parted.find?_eq {w : Workspace} (hw : w.Parted) (i : Nat) {n : String}
    (hn : Naming.isFieldName n = true) : w.find? i n = (w.own i).find? (·.name == n) := by
  have hnone : (w.hiddenKeys i).find? (·.name == n) = none := by
    refine List.find?_eq_none.mpr fun k hk => ?_
    have hname := (hw i k hk).name
    simp only [beq_iff_eq]
    rintro rfl
    rw [hn] at hname
    cases hname
  rw [find?, ← own_append_hiddenKeys, List.find?_append, hnone, Option.or_none]

/-- A field under another name is a hidden key. -/
lemma mem_hiddenKeys_of_find? {w : Workspace} {i : Nat} {n : String} {f : FieldDraft}
    (h : w.find? i n = some f) (hn : Naming.isFieldName n = false) : f ∈ w.hiddenKeys i := by
  have hmem := mem_of_find? h
  rw [← own_append_hiddenKeys, List.mem_append] at hmem
  rcases hmem with hown | hkey
  · have hname := isFieldName_of_mem_own hown
    rw [name_of_find? h, hn] at hname
    cases hname
  · exact hkey

/-- Hidden keys have no relation options. -/
lemma Parted.optioned_eq {w : Workspace} (hw : w.Parted) (i : Nat) :
    (w.fieldsAt i).filterMap FieldDraft.optioned? = (w.own i).filterMap FieldDraft.optioned? := by
  have hnone : (w.hiddenKeys i).filterMap FieldDraft.optioned? = [] := by
    refine List.filterMap_eq_nil_iff.mpr fun k hk => ?_
    simp [FieldDraft.optioned?, (hw i k hk).option]
  rw [← own_append_hiddenKeys, List.filterMap_append, hnone, List.append_nil]

end Workspace

/-! ### Tidy changes -/

namespace Change

/-- What a change does to the own fields of its entity. -/
def editOwn : Change → List FieldDraft → List FieldDraft
  | .append _ _ => id
  | c => c.edit

/-- The hidden key that a change adds to an entity. -/
def hiddenKey? (i : Nat) : Change → Option FieldDraft
  | .append p k => if p = i then some k else none
  | _ => none

/-- A change that a relation of an entity makes: it changes the own fields of this entity, or adds a hidden
key to any one. -/
inductive Tidy (w : Workspace) (i : Nat) : Change → Prop
  | relate {n : String} {r : RelationDef} (hn : Naming.isFieldName n = true) : Tidy w i (.relate i n r)
  | insertAfter {a : String} {k : FieldDraft} (ha : ∃ d ∈ w.own i, d.name = a)
      (hk : Naming.isFieldName k.name = true) (ho : k.relationOption = none) :
      Tidy w i (.insertAfter i a k)
  | append {j : Nat} {k : FieldDraft} (hj : j < w.fields.length) (hk : k.IsHiddenKey) :
      Tidy w i (.append j k)

end Change

namespace Workspace

/-- A relation is given to a field of its entity, if there is one. -/
lemma fieldsAt_apply_relate (w : Workspace) (i : Nat) (n : String) (r : RelationDef) :
    (w.apply (.relate i n r)).fieldsAt i = FieldDraft.updateFirst n (FieldDraft.relate r) (w.fieldsAt i) := by
  by_cases hi : i < w.fields.length
  · exact fieldsAt_apply_self (c := .relate i n r) hi
  · have hle := Nat.le_of_not_lt hi
    rw [fieldsAt_eq_nil hle, fieldsAt_eq_nil (by rwa [length_apply])]
    rfl

/-- What a tidy change does to the fields of an entity, part by part. -/
lemma Parted.fieldsAt_apply {w : Workspace} (hw : w.Parted) {i : Nat} {c : Change} (hc : c.Tidy w i)
    (j : Nat) :
    (w.apply c).fieldsAt j =
      (if j = i then c.editOwn (w.own j) else w.own j) ++ (w.hiddenKeys j ++ (c.hiddenKey? j).toList) := by
  cases hc with
  | @relate n r hn =>
    simp only [Change.editOwn, Change.hiddenKey?, Change.edit, Option.toList_none, List.append_nil]
    by_cases hj : j = i
    · subst hj
      rw [if_pos rfl, fieldsAt_apply_relate, ← own_append_hiddenKeys, FieldDraft.updateFirst_append]
      rintro k hk rfl
      rw [(hw j k hk).name] at hn
      cases hn
    · rw [if_neg hj, own_append_hiddenKeys]
      exact fieldsAt_apply_of_ne w (c := .relate i n r) (Ne.symm hj)
  | @insertAfter a k ha hk ho =>
    simp only [Change.editOwn, Change.hiddenKey?, Change.edit, Option.toList_none, List.append_nil]
    by_cases hj : j = i
    · subst hj
      have hlt : j < w.fields.length := by
        by_contra hle
        obtain ⟨d, hd, -⟩ := ha
        simp [own, fieldsAt_eq_nil (Nat.le_of_not_lt hle)] at hd
      rw [if_pos rfl, ← FieldDraft.insertAfter_append ha, own_append_hiddenKeys]
      exact fieldsAt_apply_self (c := .insertAfter j a k) hlt
    · rw [if_neg hj, own_append_hiddenKeys]
      exact fieldsAt_apply_of_ne w (c := .insertAfter i a k) (Ne.symm hj)
  | @append p k hp hk =>
    simp only [Change.editOwn, Change.hiddenKey?, id_eq, ite_self]
    rw [← List.append_assoc, own_append_hiddenKeys]
    by_cases hj : p = j
    · subst hj
      rw [if_pos rfl]
      exact fieldsAt_apply_self (c := .append p k) hp
    · rw [if_neg hj, Option.toList_none, List.append_nil]
      exact fieldsAt_apply_of_ne w (c := .append p k) hj

section Tidy

variable {w : Workspace} {i : Nat} {c : Change}

/-- The own fields have names that a document can give after a tidy change too. -/
lemma isFieldName_of_mem_editOwn (hc : c.Tidy w i) :
    ∀ f ∈ c.editOwn (w.own i), Naming.isFieldName f.name = true := by
  have hown : ∀ f ∈ w.own i, Naming.isFieldName f.name = true := fun f hf => isFieldName_of_mem_own hf
  cases hc with
  | relate hn => exact FieldDraft.forall_name_updateFirst (P := fun n => Naming.isFieldName n = true) hown
  | insertAfter ha hk ho =>
    intro f hf
    rcases FieldDraft.mem_insertAfter.mp hf with rfl | hf
    · exact hk
    · exact hown f hf
  | append hj hk => exact hown

/-- A tidy change adds only hidden keys at the end. -/
lemma isHiddenKey_of_mem (hc : c.Tidy w i) {j : Nat} {k : FieldDraft} (hk : k ∈ (c.hiddenKey? j).toList) :
    k.IsHiddenKey := by
  cases hc with
  | relate | insertAfter => cases hk
  | append hp hkey =>
    rw [Option.mem_toList, Change.hiddenKey?] at hk
    split at hk
    · obtain rfl := Option.some.inj hk
      exact hkey
    · cases hk

/-- The parts of an entity after a tidy change. -/
lemma Parted.parts_apply (hw : w.Parted) (hc : c.Tidy w i) (j : Nat) :
    (w.apply c).own j = (if j = i then c.editOwn (w.own j) else w.own j) ∧
      (w.apply c).hiddenKeys j = w.hiddenKeys j ++ (c.hiddenKey? j).toList := by
  have hfields := hw.fieldsAt_apply hc j
  have hown : ∀ f ∈ (if j = i then c.editOwn (w.own j) else w.own j), Naming.isFieldName f.name = true := by
    intro f hf
    split at hf
    · rename_i hj
      subst hj
      exact isFieldName_of_mem_editOwn hc f hf
    · exact isFieldName_of_mem_own hf
  have hkeys : ∀ k ∈ w.hiddenKeys j ++ (c.hiddenKey? j).toList, k.IsHiddenKey := by
    intro k hk
    rcases List.mem_append.mp hk with hk | hk
    · exact hw j k hk
    · exact isHiddenKey_of_mem hc hk
  exact ⟨own_eq hfields hown hkeys, hiddenKeys_eq hfields hown hkeys⟩

/-- A tidy change edits the own fields of its entity. -/
lemma Parted.own_apply_self (hw : w.Parted) (hc : c.Tidy w i) :
    (w.apply c).own i = c.editOwn (w.own i) := by
  rw [(hw.parts_apply hc i).1, if_pos rfl]

/-- A tidy change leaves the own fields of other entities alone. -/
lemma Parted.own_apply_of_ne (hw : w.Parted) (hc : c.Tidy w i) {j : Nat} (hj : j ≠ i) :
    (w.apply c).own j = w.own j := by
  rw [(hw.parts_apply hc j).1, if_neg hj]

/-- A tidy change adds at most one hidden key, at the end. -/
lemma Parted.hiddenKeys_apply (hw : w.Parted) (hc : c.Tidy w i) (j : Nat) :
    (w.apply c).hiddenKeys j = w.hiddenKeys j ++ (c.hiddenKey? j).toList :=
  (hw.parts_apply hc j).2

lemma Parted.apply (hw : w.Parted) (hc : c.Tidy w i) : (w.apply c).Parted := by
  intro j k hk
  rw [hw.hiddenKeys_apply hc] at hk
  rcases List.mem_append.mp hk with hk | hk
  · exact hw j k hk
  · exact isHiddenKey_of_mem hc hk

/-- What the own fields say about their relations does not change. -/
lemma Parted.optioned_apply (hw : w.Parted) (hc : c.Tidy w i) (j : Nat) :
    ((w.apply c).own j).filterMap FieldDraft.optioned? = (w.own j).filterMap FieldDraft.optioned? := by
  by_cases hj : j = i
  · subst hj
    rw [hw.own_apply_self hc]
    cases hc with
    | relate hn => exact FieldDraft.filterMap_optioned?_updateFirst _ _ _
    | insertAfter ha hk ho => exact FieldDraft.filterMap_optioned?_insertAfter ho _
    | append hp hk => rfl
  · rw [hw.own_apply_of_ne hc hj]

end Tidy

/-! ### Several changes -/

/-- Changes each of which is tidy when it is made. -/
def AllTidy (i : Nat) : Workspace → List Change → Prop
  | _, [] => True
  | w, c :: cs => c.Tidy w i ∧ AllTidy i (w.apply c) cs

/-- What changes do to the own fields of their entity. -/
def editOwn (cs : List Change) (fs : List FieldDraft) : List FieldDraft :=
  cs.foldl (fun fs c => c.editOwn fs) fs

/-- The hidden keys that changes add to an entity. -/
def hiddenKeysOf (cs : List Change) (i : Nat) : List FieldDraft :=
  cs.filterMap (Change.hiddenKey? i)

lemma hiddenKeysOf_cons (c : Change) (cs : List Change) (i : Nat) :
    hiddenKeysOf (c :: cs) i = (c.hiddenKey? i).toList ++ hiddenKeysOf cs i := by
  cases h : c.hiddenKey? i <;> simp [hiddenKeysOf, h]

@[simp] lemma hiddenKeysOf_append (cs cs' : List Change) (i : Nat) :
    hiddenKeysOf (cs ++ cs') i = hiddenKeysOf cs i ++ hiddenKeysOf cs' i :=
  List.filterMap_append

/-- A key that is put behind all fields of an entity is one of its hidden keys. -/
lemma mem_hiddenKeysOf {cs : List Change} {i : Nat} {k : FieldDraft} (h : .append i k ∈ cs) :
    k ∈ hiddenKeysOf cs i :=
  List.mem_filterMap.mpr ⟨_, h, if_pos rfl⟩

section AllTidy

variable {w : Workspace} {i : Nat} {cs : List Change}

/-- Tidy changes edit the own fields of their entity. -/
lemma Parted.own_applyAll_self (hw : w.Parted) (hcs : w.AllTidy i cs) :
    (w.applyAll cs).own i = editOwn cs (w.own i) := by
  induction cs generalizing w with
  | nil => rfl
  | cons c cs ih => rw [applyAll_cons, ih (hw.apply hcs.1) hcs.2, hw.own_apply_self hcs.1]; rfl

/-- Tidy changes leave the own fields of other entities alone. -/
lemma Parted.own_applyAll_of_ne (hw : w.Parted) (hcs : w.AllTidy i cs) {j : Nat} (hj : j ≠ i) :
    (w.applyAll cs).own j = w.own j := by
  induction cs generalizing w with
  | nil => rfl
  | cons c cs ih => rw [applyAll_cons, ih (hw.apply hcs.1) hcs.2, hw.own_apply_of_ne hcs.1 hj]

/-- Tidy changes add their hidden keys at the end. -/
lemma Parted.hiddenKeys_applyAll (hw : w.Parted) (hcs : w.AllTidy i cs) (j : Nat) :
    (w.applyAll cs).hiddenKeys j = w.hiddenKeys j ++ hiddenKeysOf cs j := by
  induction cs generalizing w with
  | nil => exact (List.append_nil _).symm
  | cons c cs ih =>
    rw [applyAll_cons, ih (hw.apply hcs.1) hcs.2, hw.hiddenKeys_apply hcs.1, List.append_assoc,
      hiddenKeysOf_cons]

lemma Parted.applyAll (hw : w.Parted) (hcs : w.AllTidy i cs) : (w.applyAll cs).Parted := by
  induction cs generalizing w with
  | nil => exact hw
  | cons c cs ih => exact ih (hw.apply hcs.1) hcs.2

/-- What the own fields say about their relations does not change. -/
lemma Parted.optioned_applyAll (hw : w.Parted) (hcs : w.AllTidy i cs) (j : Nat) :
    ((w.applyAll cs).own j).filterMap FieldDraft.optioned? = (w.own j).filterMap FieldDraft.optioned? := by
  induction cs generalizing w with
  | nil => rfl
  | cons c cs ih => rw [applyAll_cons, ih (hw.apply hcs.1) hcs.2, hw.optioned_apply hcs.1]

end AllTidy

end Workspace

namespace RelationResolution

/-! ### Links are tidy -/

namespace Site

/-- The name of a hidden key is none that a document can give. -/
lemma isFieldName_hiddenKeyName (s : Site) : Naming.isFieldName s.hiddenKeyName = false := by
  simp [Naming.isFieldName, Naming.consistsOf, hiddenKeyName, Naming.isSmall]

lemma isHiddenKey_hiddenKey (s : Site) : s.hiddenKey.IsHiddenKey where
  name := s.isFieldName_hiddenKeyName
  hidden := rfl
  origin := rfl
  option := rfl
  relation := ⟨_, rfl⟩

/-- The only hidden key that linking a relation adds is that of its own list field. -/
lemma Link.eq_hiddenKey {s : Site} {cs : List Change} (h : s.Link cs) {c : Change} (hc : c ∈ cs) {i : Nat}
    {k : FieldDraft} (hk : c.hiddenKey? i = some k) : k = s.hiddenKey := by
  have happend : ∀ p k', (Change.append p k').hiddenKey? i = some k → k = k' := by
    intro p k' heq
    rw [Change.hiddenKey?] at heq
    split at heq
    · exact (Option.some.inj heq).symm
    · cases heq
  cases h <;> simp only [List.mem_cons, List.not_mem_nil, or_false] at hc
  case listHidden =>
    rcases hc with rfl | rfl
    · exact happend _ _ hk
    · cases hk
  case parent | other | listNamed =>
    subst hc
    cases hk
  case ownField | ownAdded =>
    rcases hc with rfl | rfl <;> cases hk

/-- The key that is added for an object field is named like a field. -/
lemma isFieldName_addedKeyName {s : Site} (h : Naming.isFieldName s.field.name = true) :
    Naming.isFieldName s.addedKeyName = true := by
  unfold Naming.isFieldName Naming.consistsOf at h ⊢
  unfold addedKeyName
  rw [String.toList_append]
  split at h
  · rename_i c cs hcs
    rw [Bool.and_eq_true] at h
    have hid : Naming.isAlphanumeric 'I' = true ∧ Naming.isAlphanumeric 'd' = true := by decide
    simp [hcs, h.1, h.2, hid]
  · cases h

/-- Linking a relation makes tidy changes. -/
lemma Link.allTidy {s : Site} {cs : List Change} (h : s.Link cs) (hw : s.workspace.Parted)
    (hlength : s.workspace.fields.length = s.index.entities.length)
    (hname : Naming.isFieldName s.field.name = true)
    (hfind : s.workspace.find? s.owner.position s.field.name = some s.field) :
    s.workspace.AllTidy s.owner.position cs := by
  have hself : ∀ w r, Change.Tidy w s.owner.position (.relate s.owner.position s.field.name r) :=
    fun w r => .relate hname
  cases h with
  | nothing => trivial
  | parent | other | listNamed => exact ⟨hself _ _, trivial⟩
  | @ownField target key existing htarget hside hkey hfindKey hoption hrelation htype hnull =>
    refine ⟨.relate ?_, hself _ _, trivial⟩
    -- A hidden key has a relation already.
    by_contra hreserved
    have hmem := Workspace.mem_hiddenKeys_of_find? hfindKey (Bool.of_not_eq_true hreserved)
    obtain ⟨r, hr⟩ := (hw _ _ hmem).relation
    rw [hrelation] at hr
    cases hr
  | @ownAdded target htarget hside hkey hnew =>
    refine ⟨.insertAfter ⟨s.field, ?_, rfl⟩ (isFieldName_addedKeyName hname) rfl, hself _ _, trivial⟩
    rw [hw.find?_eq _ hname] at hfind
    exact List.mem_of_find?_eq_some hfind
  | @listHidden t target htarget hname hnew =>
    exact ⟨.append (hlength ▸ htarget.position_lt) s.isHiddenKey_hiddenKey, hself _ _, trivial⟩

end Site

/-! ### Visits -/

/-- The entities are typed, and documents have given all names of fields. -/
structure Legible (index : EntityIndex) : Prop extends Typed index where
  names : ∀ e ∈ index.entities, ∀ f ∈ e.fields, Naming.isFieldName f.name = true

/-- What holds of the workspace at every moment, part by part. -/
structure Orderly (index : EntityIndex) (w : Workspace) : Prop extends Consistent index w where
  length_eq : w.fields.length = index.entities.length
  parted : w.Parted
  optioned : ∀ i, (w.own i).filterMap FieldDraft.optioned? =
    ((initial index).fieldsAt i).filterMap FieldDraft.optioned?

section Orderly

variable {index : EntityIndex}

/-- A document has given the name of a visited field. -/
lemma Legible.isFieldName_declared (hi : Legible index) {v : Visit} (hv : v ∈ Visit.ofIndex index) :
    Naming.isFieldName v.declared.name = true := by
  obtain ⟨he, -, hf, -⟩ := Visit.mem_ofIndex.mp hv
  exact hi.names _ (List.mem_of_getElem? he) _ hf

/-- At the beginning there are no hidden keys. -/
lemma Legible.parts_initial (hi : Legible index) (i : Nat) :
    (initial index).own i = (initial index).fieldsAt i ∧ (initial index).hiddenKeys i = [] := by
  have hnames : ∀ f ∈ (initial index).fieldsAt i, Naming.isFieldName f.name = true := by
    intro f hf
    obtain ⟨e, -, he, hfe⟩ := exists_of_mem_fieldsAt hf
    exact hi.names e he f hfe
  have happend : (initial index).fieldsAt i = (initial index).fieldsAt i ++ [] := (List.append_nil _).symm
  exact ⟨Workspace.own_eq happend hnames (by simp), Workspace.hiddenKeys_eq happend hnames (by simp)⟩

/-- At the beginning the workspace is orderly. -/
lemma Legible.orderly (hi : Legible index) : Orderly index (initial index) :=
  { hi.toTyped.consistent with
    length_eq := by simp [Workspace.ofEntities]
    parted := fun i k hk => by
      rw [(hi.parts_initial i).2] at hk
      cases hk
    optioned := fun i => by rw [(hi.parts_initial i).1] }

/-- No two hidden keys of an entity have one name. -/
lemma Orderly.nodup_hiddenKeys {w : Workspace} (hw : Orderly index w) (ht : Typed index) (i : Nat) :
    ((w.hiddenKeys i).map (·.name)).Nodup := by
  have hlead := hw.toConsistent.relationsLead ht i
  rw [← Workspace.own_append_hiddenKeys] at hlead
  refine List.pairwise_map.mpr ((List.pairwise_append.mp hlead).2.1.imp_of_mem ?_)
  intro k k' hk hk' hshadowed hname
  obtain ⟨r, hr⟩ := (hw.parted i k' hk').relation
  rw [hshadowed hname] at hr
  cases hr

section Visit

variable {w : Workspace} {v : Visit}

/-- A visit makes tidy changes. -/
lemma Orderly.allTidy (hw : Orderly index w) (hi : Legible index) (hv : v ∈ Visit.ofIndex index) :
    w.AllTidy v.owner.position (v.site index w).resolve.changes := by
  refine Site.Link.allTidy (s := v.site index w) (Site.link_resolve _) hw.parted hw.length_eq ?_
    (hw.toConsistent.find?_site hv)
  rw [hw.toConsistent.name_site hv]
  exact hi.isFieldName_declared hv

/-- A visit leaves the workspace orderly. -/
lemma Orderly.visit (hw : Orderly index w) (hi : Legible index) (hv : v ∈ Visit.ofIndex index) :
    Orderly index (w.applyAll (v.site index w).resolve.changes) :=
  { consistent_applyAll hw.toConsistent (hw.toConsistent.allSound hi.toTyped hv) with
    length_eq := (Workspace.length_applyAll _ _).trans hw.length_eq
    parted := hw.parted.applyAll (hw.allTidy hi hv)
    optioned := fun i => (hw.parted.optioned_applyAll (hw.allTidy hi hv) i).trans (hw.optioned i) }

end Visit

end Orderly

end RelationResolution

end EntitySchema
