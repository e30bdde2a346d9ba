import Mathlib.Data.List.Basic
import Mathlib.Tactic.Common
import EntitySchema.Proofs.Diagnostics
import EntitySchema.Resolution.Relations

/-!
# What resolving one relation can do

`Link` lists the changes that resolving the relation of a field can make, each with what has been checked
before: a key is declared by the field itself (`parent`), named by an object field (`ownField`), added
behind it (`ownAdded`), left to the other side (`other`, `listNamed`) or added to the other class
(`listHidden`).  `link_resolve` says that there is nothing else.  A relation that is resolved without an
issue makes changes, unless its type is unresolved or it is `Undecided`, which is for the other side to
report (`changes_ne_nil_of_issues_eq_nil`).
-/

namespace EntitySchema

namespace RelationResolution

namespace Site

/-! ### Targets -/

/-- The field holds an object of a class with a table. -/
structure ObjectTarget (s : Site) (target : TableClass) : Prop where
  noParent : s.option.parent = none
  category : s.field.type.category = .entity
  tableClass : s.tableClass s.field.type = .ok target

/-- The field holds a list of objects of a class with a table. -/
structure ListTarget (s : Site) (t : TypeDef) (target : TableClass) : Prop where
  noParent : s.option.parent = none
  element : s.field.type.listElement? = some t
  category : t.category = .entity
  tableClass : s.tableClass t = .ok target

/-- A class with a table is looked up by the type that stands for it. -/
lemma tableClass_eq_ok_iff {s : Site} {t : TypeDef} {target : TableClass} :
    s.tableClass t = .ok target ↔
      s.index.findClass? t = some ⟨target.position, target.entity⟩ ∧
        target.entity.table? = some target.table := by
  unfold Site.tableClass
  cases hc : s.index.findClass? t with
  | none => simp
  | some l =>
    obtain ⟨position, entity⟩ := l
    obtain ⟨position', entity', table'⟩ := target
    cases ht : entity.table? with
    | none =>
      simp only [ht, reduceCtorEq, Option.some.injEq, Located.mk.injEq, false_iff, not_and]
      rintro ⟨rfl, rfl⟩
      simp [ht]
    | some table =>
      simp only [ht, Except.ok.injEq, TableClass.mk.injEq, Option.some.injEq, Located.mk.injEq]
      constructor
      · rintro ⟨rfl, rfl, rfl⟩
        exact ⟨⟨rfl, rfl⟩, ht⟩
      · rintro ⟨⟨rfl, rfl⟩, h⟩
        exact ⟨rfl, rfl, Option.some.inj (ht.symm.trans h)⟩

/-! ### The other side -/

/-- The counterpart of a named relation is the only candidate. -/
lemma counterpart_eq_ok_iff {s : Site} {target : TableClass} {name : Spanned String} {g : FieldDraft} :
    s.counterpart target name = .ok g ↔ s.counterparts target name.value = [g] := by
  unfold Site.counterpart
  cases h : s.counterparts target name.value with
  | nil => simp
  | cons f fs =>
    cases fs with
    | nil => simp
    | cons f' fs => simp

/-- When a field holds the key itself: it has no counterpart, or it alone names a key, or its counterpart
is a list. -/
lemma keySide_eq_own_iff {s : Site} {target : TableClass} :
    s.keySide target = .ok .own ↔
      s.option.name = none ∨ ∃ name g, s.option.name = some name ∧ s.counterpart target name = .ok g ∧
        ((g.type.pointsTo s.owner.entity = true ∧ s.option.field.isSome ∧ g.keyFieldName? = none) ∨
          (g.type.pointsTo s.owner.entity = false ∧
            g.type.listElement?.any (·.pointsTo s.owner.entity) = true)) := by
  unfold Site.keySide
  cases hn : s.option.name with
  | none => simp
  | some name =>
    cases hg : s.counterpart target name with
    | error i => simp [hg]
    | ok g =>
      cases hp : g.type.pointsTo s.owner.entity with
      | true => cases hf : s.option.field <;> cases hk : g.keyFieldName? <;> simp [hg, hp, hk]
      | false =>
        cases hl : g.type.listElement?.any (·.pointsTo s.owner.entity) <;> simp [hg, hp, hl]

/-- When the counterpart holds the key: it names one, and the field does not. -/
lemma keySide_eq_other_iff {s : Site} {target : TableClass} {g : FieldDraft} :
    s.keySide target = .ok (.other g) ↔
      ∃ name, s.option.name = some name ∧ s.counterpart target name = .ok g ∧
        g.type.pointsTo s.owner.entity = true ∧ s.option.field = none ∧ g.keyFieldName?.isSome := by
  unfold Site.keySide
  cases hn : s.option.name with
  | none => simp
  | some name =>
    cases hg : s.counterpart target name with
    | error i => simp [hg]
    | ok h =>
      simp only [Option.some.injEq, exists_eq_left', hg, Except.ok.injEq]
      cases hp : h.type.pointsTo s.owner.entity with
      | true =>
        cases hf : s.option.field <;> cases hk : h.keyFieldName? <;>
          simp only [if_true, Except.ok.injEq, KeySide.other.injEq, reduceCtorEq, false_and, and_false,
            false_iff, not_and, true_and]
        · rintro rfl -
          simp [hk]
        · constructor
          · rintro rfl
            exact ⟨rfl, hp, by simp [hk]⟩
          · exact And.left
      | false =>
        cases hl : h.type.listElement?.any (·.pointsTo s.owner.entity) <;>
          simp only [Bool.false_eq_true, if_false, if_true, Except.ok.injEq, reduceCtorEq,
            false_iff, not_and] <;>
          (rintro rfl; simp [hp])

/-- When nothing is said about the key although it is undecided: both fields name one or neither does, and
the counterpart comes first. -/
lemma keySide_eq_error_nil_iff {s : Site} {target : TableClass} :
    s.keySide target = .error [] ↔
      ∃ name g, s.option.name = some name ∧ s.counterpart target name = .ok g ∧
        g.type.pointsTo s.owner.entity = true ∧ s.option.field.isSome = g.keyFieldName?.isSome ∧
        ¬ Text.le (s.owner.entity.className ++ "." ++ s.field.name)
          (target.entity.className ++ "." ++ g.name) = true := by
  unfold Site.keySide
  constructor
  · intro h
    cases hn : s.option.name with
    | none => simp [hn] at h
    | some name =>
      cases hg : s.counterpart target name with
      | error i => simp [hn, hg] at h
      | ok g =>
        simp only [hn, hg] at h
        split at h
        · rename_i hp
          have hlater : s.undecided target name g = [] ∧
              s.option.field.isSome = g.keyFieldName?.isSome := by
            cases hf : s.option.field <;> cases hk : g.keyFieldName? <;> simp [hf, hk] at h ⊢ <;> exact h
          refine ⟨name, g, rfl, hg, hp, hlater.2, ?_⟩
          intro hle
          simp [Site.undecided, hle] at hlater
        · split at h <;> simp at h
  · rintro ⟨name, g, hn, hg, hp, hboth, hlater⟩
    have hnone : s.undecided target name g = [] := if_neg hlater
    cases hf : s.option.field <;> cases hk : g.keyFieldName? <;> simp_all

/-- The key on the other side of a named list field: the key of an object field, or a field with the table
as its parent. -/
lemma counterpartKey_eq_ok_iff {s : Site} {target : TableClass} {name : Spanned String} {key : String} :
    s.counterpartKey target name = .ok key ↔
      ∃ g, s.counterpart target name = .ok g ∧
        ((g.type.pointsTo s.owner.entity = true ∧ g.objectKey = key) ∨
          (g.type.pointsTo s.owner.entity = false ∧
            (g.relationOption.bind (·.parent)).any (·.value == s.owner.table) = true ∧ g.name = key)) := by
  unfold Site.counterpartKey
  cases hg : s.counterpart target name with
  | error i => simp
  | ok g =>
    cases hp : g.type.pointsTo s.owner.entity with
    | true => simp [hp]
    | false =>
      cases ha : (g.relationOption.bind (·.parent)).any (·.value == s.owner.table) <;>
        simp [hp, ha]

/-! ### Changes -/

/-- The changes that resolving a relation can make, with what has been checked before. -/
inductive Link (s : Site) : List Change → Prop
  | nothing : Link s []
  | parent {p : Spanned String} {l : Located} (hparent : s.option.parent = some p)
      (hscalar : s.field.type.category = .scalar) (htable : s.index.findTable? p.value = some l)
      (htype : s.field.type.sameBase (s.workspace.idType l.position) = true)
      (hnull : s.option.deleteAction = .setNull → s.field.type.nullable = true) :
      Link s [.relate s.owner.position s.field.name (.foreignKey (s.parentRelation p.value))]
  | ownField {target : TableClass} {key : Spanned String} {existing : FieldDraft}
      (htarget : s.ObjectTarget target) (hside : s.keySide target = .ok .own)
      (hkey : s.option.field = some key)
      (hfind : s.workspace.find? s.owner.position key.value = some existing)
      (hoption : existing.relationOption = none) (hrelation : existing.relation = none)
      (htype : existing.type.sameBase (s.workspace.idType target.position) = true)
      (hnull : s.option.deleteAction = .setNull → existing.type.nullable = true) :
      Link s
        [.relate s.owner.position key.value (.foreignKey (s.keyRelation target)),
          .relate s.owner.position s.field.name
            (.object (s.objectRelation target (some key.value) none))]
  | ownAdded {target : TableClass} (htarget : s.ObjectTarget target)
      (hside : s.keySide target = .ok .own) (hkey : s.option.field = none)
      (hnew : s.workspace.find? s.owner.position s.addedKeyName = none) :
      Link s
        [.insertAfter s.owner.position s.field.name (s.addedKey target),
          .relate s.owner.position s.field.name
            (.object (s.objectRelation target (some s.addedKeyName) none))]
  | other {target : TableClass} {g : FieldDraft} (htarget : s.ObjectTarget target)
      (hside : s.keySide target = .ok (.other g)) :
      Link s
        [.relate s.owner.position s.field.name
          (.object (s.objectRelation target none (some g.objectKey)))]
  | listNamed {t : TypeDef} {target : TableClass} {name : Spanned String} {key : String}
      (htarget : s.ListTarget t target) (hname : s.option.name = some name)
      (hkey : s.counterpartKey target name = .ok key) :
      Link s [.relate s.owner.position s.field.name (.list (s.listRelation target key false))]
  | listHidden {t : TypeDef} {target : TableClass} (htarget : s.ListTarget t target)
      (hname : s.option.name = none)
      (hnew : s.workspace.find? target.position s.hiddenKeyName = none) :
      Link s
        [.append target.position s.hiddenKey,
          .relate s.owner.position s.field.name (.list (s.listRelation target s.hiddenKeyName true))]

/-- The declared key of an object field is linked if it is there without a relation and has the type of the
primary key. -/
lemma linkKey_eq_ok_iff {s : Site} {target : TableClass} {key : Spanned String} {c : Change} :
    s.linkKey target key = .ok c ↔
      c = .relate s.owner.position key.value (.foreignKey (s.keyRelation target)) ∧
        ∃ existing, s.workspace.find? s.owner.position key.value = some existing ∧
          existing.relationOption = none ∧ existing.relation = none ∧
          existing.type.sameBase (s.workspace.idType target.position) = true ∧
          (s.option.deleteAction = .setNull → existing.type.nullable = true) := by
  unfold Site.linkKey
  cases hf : s.workspace.find? s.owner.position key.value with
  | none => simp
  | some existing =>
    constructor
    · intro h
      simp only at h
      split at h
      · cases h
      rename_i hfree
      split at h
      · cases h
      rename_i htype
      split at h
      · cases h
      rename_i hnull
      simp only [Bool.or_eq_true, not_or, Option.isSome_iff_ne_none, ne_eq, not_not] at hfree
      refine ⟨(Except.ok.inj h).symm, existing, rfl, hfree.1, hfree.2, by simpa using htype, ?_⟩
      intro hset
      simpa [hset] using hnull
    · rintro ⟨rfl, existing', hfind, hoption, hrelation, htype, hnull⟩
      obtain rfl := Option.some.inj hfind
      simpa [hoption, hrelation, htype] using hnull

/-- A key is added for an object field if its name is free. -/
lemma addKey_eq_ok_iff {s : Site} {target : TableClass} {c : Change} :
    s.addKey target = .ok c ↔
      c = .insertAfter s.owner.position s.field.name (s.addedKey target) ∧
        s.workspace.find? s.owner.position s.addedKeyName = none := by
  unfold Site.addKey
  cases hf : s.workspace.find? s.owner.position s.addedKeyName with
  | some f => simp [hf]
  | none => simp [hf, eq_comm]

/-- A hidden key is added for a list field if its name is free. -/
lemma addHiddenKey_eq_ok_iff {s : Site} {target : TableClass} {c : Change} :
    s.addHiddenKey target = .ok c ↔
      c = .append target.position s.hiddenKey ∧
        s.workspace.find? target.position s.hiddenKeyName = none := by
  unfold Site.addHiddenKey
  cases hf : s.workspace.find? target.position s.hiddenKeyName with
  | some f => simp [hf]
  | none => simp [hf, eq_comm]

/-- A field is linked to its parent table if the table has a class and the field the type of its primary
key. -/
lemma linkParent_eq_ok_iff {s : Site} {p : Spanned String} {c : Change} :
    s.linkParent p = .ok c ↔
      c = .relate s.owner.position s.field.name (.foreignKey (s.parentRelation p.value)) ∧
        ∃ l, s.index.findTable? p.value = some l ∧
          s.field.type.sameBase (s.workspace.idType l.position) = true ∧
          (s.option.deleteAction = .setNull → s.field.type.nullable = true) := by
  unfold Site.linkParent
  cases hf : s.index.findTable? p.value with
  | none => simp
  | some l =>
    constructor
    · intro h
      simp only at h
      split at h
      · cases h
      rename_i htype
      split at h
      · cases h
      rename_i hnull
      refine ⟨(Except.ok.inj h).symm, l, rfl, by simpa using htype, ?_⟩
      intro hset
      simpa [hset] using hnull
    · rintro ⟨rfl, l', hfind, htype, hnull⟩
      obtain rfl := Option.some.inj hfind
      simpa [htype] using hnull

/-- Linking an object field makes changes of the listed kinds. -/
lemma link_resolveObject {s : Site} {target : TableClass} (ht : s.ObjectTarget target) :
    s.Link (s.resolveObject target).changes := by
  unfold Site.resolveObject
  cases hside : s.keySide target with
  | error issues => exact Link.nothing
  | ok side =>
    cases side with
    | other g => exact Link.other ht hside
    | own =>
      simp only [resolveOwnKey]
      cases hkey : s.option.field with
      | some key =>
        cases hlink : s.linkKey target key with
        | error i => simpa [hlink, Outcome.failed] using Link.nothing
        | ok c =>
          simp only [hlink]
          obtain ⟨rfl, existing, hfind, hoption, hrelation, htype, hnull⟩ := linkKey_eq_ok_iff.mp hlink
          exact Link.ownField ht hside hkey hfind hoption hrelation htype hnull
      | none =>
        cases hadd : s.addKey target with
        | error i => simpa [hadd, Outcome.failed] using Link.nothing
        | ok c =>
          simp only
          obtain ⟨rfl, hnew⟩ := addKey_eq_ok_iff.mp hadd
          exact Link.ownAdded ht hside hkey hnew

/-- Linking a list field makes changes of the listed kinds. -/
lemma link_resolveList {s : Site} {t : TypeDef} {target : TableClass} (ht : s.ListTarget t target) :
    s.Link (s.resolveList target).changes := by
  unfold Site.resolveList
  cases hname : s.option.name with
  | some name =>
    cases hkey : s.counterpartKey target name with
    | error i => simpa [Outcome.after, hkey, Outcome.failed] using Link.nothing
    | ok key => simpa [Outcome.after, hkey] using Link.listNamed ht hname hkey
  | none =>
    cases hadd : s.addHiddenKey target with
    | error i => simpa [Outcome.after, hadd, Outcome.failed] using Link.nothing
    | ok c =>
      obtain ⟨rfl, hnew⟩ := addHiddenKey_eq_ok_iff.mp hadd
      simpa [Outcome.after, hadd] using Link.listHidden ht hname hnew

/-- Linking a field with a parent table makes changes of the listed kinds. -/
lemma link_resolveParent {s : Site} {p : Spanned String} (hp : s.option.parent = some p) :
    s.Link (s.resolveParent p).changes := by
  unfold Site.resolveParent
  split
  · exact Link.nothing
  rename_i hscalar
  cases hlink : s.linkParent p with
  | error i => exact Link.nothing
  | ok c =>
    obtain ⟨rfl, l, htable, htype, hnull⟩ := linkParent_eq_ok_iff.mp hlink
    exact Link.parent hp (by simpa using hscalar) htable htype hnull

/-- Resolving a relation makes changes of the listed kinds and no others. -/
theorem link_resolve (s : Site) : s.Link s.resolve.changes := by
  unfold Site.resolve
  cases hp : s.option.parent with
  | some p => exact link_resolveParent hp
  | none =>
    simp only
    split
    · exact Link.nothing
    split
    · rename_i hcategory
      unfold Site.resolveTarget
      cases ht : s.tableClass s.field.type with
      | error i => exact Link.nothing
      | ok target => exact link_resolveObject ⟨hp, by simpa using hcategory, ht⟩
    · split
      · rename_i t helement
        obtain ⟨helement, hcategory⟩ := Option.filter_eq_some_iff.mp helement
        unfold Site.resolveTarget
        cases ht : s.tableClass t with
        | error i => exact Link.nothing
        | ok target => exact link_resolveList ⟨hp, helement, by simpa using hcategory, ht⟩
      · exact Link.nothing

/-! ### Issues -/

/-- A one-to-one relation in which both sides or neither side names a key, and whose issue is for the
other side to report. -/
structure Undecided (s : Site) (target : TableClass) (name : Spanned String) (g : FieldDraft) :
    Prop where
  isObject : s.ObjectTarget target
  isNamed : s.option.name = some name
  isPaired : s.counterpart target name = .ok g
  pointsTo : g.type.pointsTo s.owner.entity = true
  both : s.option.field.isSome = g.keyFieldName?.isSome
  later : ¬ Text.le (s.owner.entity.className ++ "." ++ s.field.name)
    (target.entity.className ++ "." ++ g.name) = true

/-- An object field that is resolved without an issue is changed or undecided. -/
lemma resolveObject_changes_ne_nil {s : Site} {target : TableClass} (ht : s.ObjectTarget target)
    (h : (s.resolveObject target).issues = []) :
    (s.resolveObject target).changes ≠ [] ∨ ∃ name g, s.Undecided target name g := by
  unfold Site.resolveObject at h ⊢
  cases hside : s.keySide target with
  | ok side =>
    left
    cases side with
    | other g => simp [resolveOtherKey]
    | own =>
      simp only [hside, resolveOwnKey] at h ⊢
      split at h
      · simp [Outcome.failed] at h
      · rename_i c hc
        simp
  | error issues =>
    right
    simp only [hside, Outcome.failed] at h
    subst h
    obtain ⟨name, g, hn, hg, hp, hboth, hlater⟩ := keySide_eq_error_nil_iff.mp hside
    exact ⟨name, g, ht, hn, hg, hp, hboth, hlater⟩

/-- A list field that is resolved without an issue is changed. -/
lemma resolveList_changes_ne_nil {s : Site} {target : TableClass}
    (h : (s.resolveList target).issues = []) : (s.resolveList target).changes ≠ [] := by
  unfold Site.resolveList at h ⊢
  cases hn : s.option.name with
  | some name =>
    cases hk : s.counterpartKey target name with
    | error i => simp [hn, hk, Outcome.after, Outcome.failed] at h
    | ok key => simp [hk, Outcome.after]
  | none =>
    cases ha : s.addHiddenKey target with
    | error i => simp [hn, ha, Outcome.after, Outcome.failed] at h
    | ok c => simp [Outcome.after]

/-- A field with a parent table that is resolved without an issue is changed. -/
lemma resolveParent_changes_ne_nil {s : Site} {p : Spanned String}
    (h : (s.resolveParent p).issues = []) : (s.resolveParent p).changes ≠ [] := by
  unfold Site.resolveParent at h ⊢
  split at h
  · simp [Outcome.failed] at h
  · rename_i hscalar
    cases hl : s.linkParent p with
    | error i => simp [hl, Outcome.failed] at h
    | ok c => simp [hscalar]

/-- A relation that is resolved without an issue makes changes, unless its type is unresolved or it is for
the other side to report that the key is undecided. -/
theorem changes_ne_nil_of_issues_eq_nil {s : Site} (h : s.resolve.issues = [])
    (hu : s.field.type.containsUnresolved = false) :
    s.resolve.changes ≠ [] ∨ ∃ target name g, s.Undecided target name g := by
  unfold Site.resolve at h ⊢
  cases hp : s.option.parent with
  | some p =>
    simp only [hp] at h ⊢
    exact Or.inl (resolveParent_changes_ne_nil h)
  | none =>
    simp only [hp, hu, Bool.false_eq_true, if_false] at h ⊢
    by_cases hcategory : s.field.type.category == .entity
    · rw [if_pos hcategory] at h ⊢
      unfold Site.resolveTarget at h ⊢
      cases ht : s.tableClass s.field.type with
      | error i => simp [ht, Outcome.failed] at h
      | ok target =>
        simp only [ht, Outcome.after, List.append_eq_nil_iff] at h ⊢
        rcases resolveObject_changes_ne_nil ⟨hp, by simpa using hcategory, ht⟩ h.2 with hc | ⟨name, g, hg⟩
        · exact Or.inl hc
        · exact Or.inr ⟨target, name, g, hg⟩
    · rw [if_neg hcategory] at h ⊢
      left
      cases helement : s.field.type.listElement?.filter (·.category == .entity) with
      | none => simp [helement, Outcome.failed] at h
      | some t =>
        simp only [helement] at h ⊢
        unfold Site.resolveTarget at h ⊢
        cases ht : s.tableClass t with
        | error i => simp [ht, Outcome.failed] at h
        | ok target =>
          simp only [ht, Outcome.after, List.append_eq_nil_iff] at h ⊢
          exact resolveList_changes_ne_nil h.2

/-! Every issue about a relation is an error. -/

lemma level_of_tableClass {s : Site} {t : TypeDef} {i : Issue} (h : s.tableClass t = .error i) :
    i.level = .error := by
  unfold Site.tableClass at h
  split at h
  · split at h <;> cases h
    rfl
  · cases h
    rfl

lemma level_of_counterpart {s : Site} {target : TableClass} {name : Spanned String} {i : Issue}
    (h : s.counterpart target name = .error i) : i.level = .error := by
  unfold Site.counterpart at h
  split at h <;> cases h <;> rfl

lemma level_of_linkKey {s : Site} {target : TableClass} {key : Spanned String} {i : Issue}
    (h : s.linkKey target key = .error i) : i.level = .error := by
  unfold Site.linkKey at h
  dsimp only at h
  split at h
  · cases h
    rfl
  split at h
  · cases h
    rfl
  split at h
  · cases h
    rfl
  split at h <;> cases h
  rfl

lemma level_of_addKey {s : Site} {target : TableClass} {i : Issue} (h : s.addKey target = .error i) :
    i.level = .error := by
  unfold Site.addKey at h
  dsimp only at h
  split at h <;> cases h
  rfl

lemma level_of_addHiddenKey {s : Site} {target : TableClass} {i : Issue}
    (h : s.addHiddenKey target = .error i) : i.level = .error := by
  unfold Site.addHiddenKey at h
  dsimp only at h
  split at h <;> cases h
  rfl

lemma level_of_counterpartKey {s : Site} {target : TableClass} {name : Spanned String} {i : Issue}
    (h : s.counterpartKey target name = .error i) : i.level = .error := by
  unfold Site.counterpartKey at h
  split at h
  · rename_i hc
    cases h
    exact level_of_counterpart hc
  · split at h
    · cases h
    · split at h <;> cases h
      rfl

lemma level_of_linkParent {s : Site} {p : Spanned String} {i : Issue} (h : s.linkParent p = .error i) :
    i.level = .error := by
  unfold Site.linkParent at h
  split at h
  · cases h
    rfl
  · dsimp only at h
    split at h
    · cases h
      rfl
    split at h <;> cases h
    rfl

lemma allErrors_refuse (s : Site) (keys : List RelationKey) (message : RelationKey → String) :
    Issue.AllErrors (s.refuse keys message) := by
  intro i hi
  obtain ⟨key, -, hkey⟩ := List.mem_filterMap.mp hi
  obtain ⟨span, -, rfl⟩ := Option.map_eq_some_iff.mp hkey
  rfl

lemma allErrors_keySide {s : Site} {target : TableClass} {issues : List Issue}
    (h : s.keySide target = .error issues) : Issue.AllErrors issues := by
  unfold Site.keySide at h
  split at h
  · cases h
  · split at h
    · rename_i hc
      cases h
      simpa using level_of_counterpart hc
    · split at h
      · split at h <;> cases h
        unfold Site.undecided
        split <;> simp [issueAt, issueOf]
      · split at h <;> cases h
        simp [unrelated, issueAt, issueOf]

lemma allErrors_resolveObject (s : Site) (target : TableClass) :
    Issue.AllErrors (s.resolveObject target).issues := by
  unfold Site.resolveObject
  cases hside : s.keySide target with
  | error issues => exact allErrors_keySide hside
  | ok side =>
    cases side with
    | other g => exact allErrors_refuse s _ _
    | own =>
      simp only [resolveOwnKey]
      cases hkey : s.option.field with
      | some key =>
        cases hlink : s.linkKey target key with
        | error i => simpa [hlink, Outcome.failed] using level_of_linkKey hlink
        | ok c => simp [hlink]
      | none =>
        cases hadd : s.addKey target with
        | error i => simpa [hadd, Outcome.failed] using level_of_addKey hadd
        | ok c => simp

lemma allErrors_resolveList (s : Site) (target : TableClass) :
    Issue.AllErrors (s.resolveList target).issues := by
  have hrefusals : Issue.AllErrors s.listRefusals := by
    simp [listRefusals, allErrors_refuse]
  unfold Site.resolveList
  cases hname : s.option.name with
  | some name =>
    cases hkey : s.counterpartKey target name with
    | error i => simp [Outcome.after, hkey, Outcome.failed, hrefusals, level_of_counterpartKey hkey]
    | ok key => simp [Outcome.after, hkey, hrefusals]
  | none =>
    cases hadd : s.addHiddenKey target with
    | error i => simp [Outcome.after, Outcome.failed, hrefusals, level_of_addHiddenKey hadd]
    | ok c => simp [Outcome.after, hrefusals]

lemma allErrors_resolveParent (s : Site) (p : Spanned String) :
    Issue.AllErrors (s.resolveParent p).issues := by
  unfold Site.resolveParent
  split
  · simp [Outcome.failed, issueAt, issueOf]
  · cases hlink : s.linkParent p with
    | error i => simp [Outcome.failed, allErrors_refuse, level_of_linkParent hlink]
    | ok c => exact allErrors_refuse s _ _

lemma allErrors_resolveTarget {s : Site} {t : TypeDef} {link : TableClass → Outcome}
    (h : ∀ target, Issue.AllErrors (link target).issues) :
    Issue.AllErrors (s.resolveTarget t link).issues := by
  unfold Site.resolveTarget
  cases ht : s.tableClass t with
  | error i => simpa [Outcome.failed] using level_of_tableClass ht
  | ok target =>
    simp only [Outcome.after, Issue.allErrors_append]
    refine ⟨?_, h target⟩
    unfold Site.nullableIssues
    split <;> simp [issueAt, issueOf]

/-- Every issue about a relation is an error. -/
theorem allErrors_resolve (s : Site) : Issue.AllErrors s.resolve.issues := by
  unfold Site.resolve
  cases s.option.parent with
  | some p => exact allErrors_resolveParent s p
  | none =>
    dsimp only
    split
    · exact Issue.allErrors_nil
    split
    · exact allErrors_resolveTarget (allErrors_resolveObject s)
    split
    · exact allErrors_resolveTarget (allErrors_resolveList s)
    · simp [Outcome.failed, issue, issueAt, issueOf]

/-- A field that holds an object or a list is nullable if there is no issue. -/
theorem nullable_of_issues_eq_nil {s : Site} (h : s.resolve.issues = [])
    (hu : s.field.type.containsUnresolved = false) (hp : s.option.parent = none) :
    s.field.type.nullable = true := by
  have htarget : ∀ t link, (s.resolveTarget t link).issues = [] → s.field.type.nullable = true := by
    intro t link h
    unfold Site.resolveTarget at h
    cases ht : s.tableClass t with
    | error i => simp [ht, Outcome.failed] at h
    | ok target =>
      simp only [ht, Outcome.after, List.append_eq_nil_iff] at h
      by_contra hn
      simp [nullableIssues, hn] at h
  unfold Site.resolve at h
  simp only [hp, hu, Bool.false_eq_true, if_false] at h
  split at h
  · exact htarget _ _ h
  split at h
  · exact htarget _ _ h
  · simp [Outcome.failed] at h

end Site

end RelationResolution

end EntitySchema
