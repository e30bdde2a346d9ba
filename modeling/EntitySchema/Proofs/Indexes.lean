import Mathlib.Data.List.Basic
import Mathlib.Tactic.Common
import EntitySchema.Resolution.Indexes
import EntitySchema.Proofs.Diagnostics

/-!
# Checked indexes

Checking the indexes of an entity changes nothing else of it (`checkEntity_class`), and whatever index is
kept lists stored fields of its class (`stored_of_checkAll`).  An index that is not kept is reported, so where
nothing is reported all of them are kept (`names_checkAll`).
-/

namespace EntitySchema

/-- The indexes of an entity have not been checked yet. -/
def Entity.Unchecked (e : Entity) : Prop :=
  ∀ c, e.class? = some c → c.resolvedIndexes = none

/-- Other fields leave the indexes alone. -/
lemma Entity.Unchecked.withFields {e : Entity} (h : e.Unchecked) (fs : List FieldDraft) :
    (e.withFields fs).Unchecked := by
  obtain ⟨header, nameSpan, body⟩ := e
  cases body with
  | «class» c =>
    intro c' hc'
    cases hc'
    exact h c rfl
  | exception | enum =>
    intro c' hc'
    cases hc'

namespace IndexCheck

section Check

variable {columns : List FieldDraft}

/-- The name is that of a field that is stored. -/
def Stored (columns : List FieldDraft) (name : String) : Prop :=
  ∃ f, columns.find? (·.name == name) = some f ∧ f.shouldPersist = true

/-- A listed field that is accepted is stored. -/
lemma stored_of_checkField {d : IndexDraft} {seen : List String} {name : String} {f : FieldDraft}
    (h : checkField d columns seen name = .ok f) : f.name = name ∧ Stored columns name := by
  unfold checkField at h
  dsimp only at h
  split at h
  · cases h
  split at h
  · cases h
  rename_i g hfind
  split at h
  · rename_i hstored
    cases h
    exact ⟨by simpa using List.find?_some hfind, f, hfind, hstored⟩
  · cases h

/-- The fields of an index that are accepted are stored. -/
lemma stored_of_checkFields {d : IndexDraft} {seen : List String} {names : List (Spanned String)} :
    ∀ f ∈ (checkFields d columns seen names).1, Stored columns f.name := by
  induction names generalizing seen with
  | nil => simp [checkFields]
  | cons r rs ih =>
    intro f hf
    rw [checkFields] at hf
    dsimp only at hf
    split at hf
    · rename_i g hg
      rcases List.mem_cons.mp hf with rfl | hf
      · obtain ⟨hname, hstored⟩ := stored_of_checkField hg
        rw [hname]
        exact hstored
      · exact ih f hf
    · exact ih f hf

/-- An index that is kept lists stored fields. -/
lemma stored_of_check {d : IndexDraft} {i : IndexDef} (h : check columns d = .ok i) :
    ∀ name ∈ i.fields, Stored columns name := by
  unfold check at h
  dsimp only at h
  split at h
  · cases h
  split at h
  · cases h
    intro name hname
    obtain ⟨f, hf, rfl⟩ := List.mem_map.mp hname
    exact stored_of_checkFields f hf
  · cases h

/-- All indexes that are kept list stored fields. -/
lemma stored_of_checkAll {ds : List IndexDraft} :
    ∀ i ∈ (checkAll columns ds).1, ∀ name ∈ i.fields, Stored columns name := by
  induction ds with
  | nil => simp [checkAll]
  | cons d ds ih =>
    intro i hi
    rw [checkAll] at hi
    dsimp only at hi
    split at hi
    · rename_i j hj
      rcases List.mem_cons.mp hi with rfl | hi
      · exact stored_of_check hj
      · exact ih i hi
    · exact ih i hi

end Check

/-- Checking the indexes of a class changes only the checked ones, and these list stored fields. -/
theorem checkEntity_class {e : Entity} {c : ClassDraft} (h : e.body = .class c)
    (hnone : c.resolvedIndexes = none) :
    ∃ checked : Option (List IndexDef),
      (checkEntity e).1 = { e with body := .class { c with resolvedIndexes := checked } } ∧
        ∀ i ∈ checked.getD [], ∀ name ∈ i.fields, Stored c.fields name := by
  by_cases hempty : c.indexes.isEmpty = true
  · refine ⟨none, ?_, by simp⟩
    rw [← hnone]
    simp only [checkEntity, h, hempty, if_true]
    rw [← h]
  · refine ⟨some (checkAll c.fields c.indexes).1, ?_, stored_of_checkAll⟩
    simp only [checkEntity, h, hempty, Bool.false_eq_true, if_false]

/-- Checking indexes keeps the name and the module. -/
@[simp] lemma header_checkEntity (e : Entity) : (checkEntity e).1.header = e.header := by
  unfold checkEntity
  split
  · split <;> rfl
  · rfl

/-- Checking indexes keeps the fields. -/
@[simp] lemma fields_checkEntity (e : Entity) : (checkEntity e).1.fields = e.fields := by
  unfold checkEntity
  split
  · rename_i c hc
    split
    · rfl
    · simp [Entity.fields, hc]
  · rfl

/-- Checking indexes keeps the table. -/
@[simp] lemma table?_checkEntity (e : Entity) : (checkEntity e).1.table? = e.table? := by
  unfold checkEntity
  split
  · rename_i c hc
    split
    · rfl
    · simp [Entity.table?, Entity.class?, hc]
  · rfl

/-! ### Fields that are found alike -/

section Alike

variable {columns columns' : List FieldDraft}
variable (h : ∀ name, columns'.find? (·.name == name) = columns.find? (·.name == name))
include h

/-- Only the field that is found under a name counts. -/
lemma checkFields_congr (d : IndexDraft) (seen : List String) (names : List (Spanned String)) :
    checkFields d columns' seen names = checkFields d columns seen names := by
  induction names generalizing seen with
  | nil => rfl
  | cons r rs ih => simp only [checkFields, checkField, h, ih]

lemma check_congr (d : IndexDraft) : check columns' d = check columns d := by
  simp only [check, checkFields_congr h]

lemma checkAll_congr (ds : List IndexDraft) : checkAll columns' ds = checkAll columns ds := by
  induction ds with
  | nil => rfl
  | cons d ds ih => simp only [checkAll, check_congr h, ih]

/-- The indexes of an entity are checked alike if its fields are found alike. -/
theorem checkEntity_withFields_congr (e : Entity) :
    checkEntity (e.withFields columns') =
      ((checkEntity (e.withFields columns)).1.withFields columns', (checkEntity (e.withFields columns)).2) := by
  obtain ⟨header, nameSpan, body⟩ := e
  cases body with
  | «class» c =>
    simp only [Entity.withFields, checkEntity, checkAll_congr h]
    split <;> rfl
  | exception | enum => rfl

end Alike

/-! ### Indexes without issues -/

section Kept

variable {columns : List FieldDraft} {d : IndexDraft}

lemma allErrors_checkFields (seen : List String) (names : List (Spanned String)) :
    Issue.AllErrors (checkFields d columns seen names).2 := by
  induction names generalizing seen with
  | nil => exact Issue.allErrors_nil
  | cons r rs ih =>
    rw [checkFields]
    dsimp only
    split
    · exact ih _
    · exact Issue.allErrors_cons.mpr ⟨rfl, ih _⟩

lemma level_of_kindOf {fields vectors : List FieldDraft} {i : Issue} (h : kindOf d fields vectors = .error i) :
    i.level = .error := by
  unfold kindOf at h
  split at h
  · cases h
  split at h <;> cases h
  rfl

lemma allErrors_kindIssues (kind : IndexType) (vectors : List FieldDraft) :
    Issue.AllErrors (kindIssues d kind vectors) := by
  unfold kindIssues
  split
  · unfold vectorIssues
    refine Issue.allErrors_append.mpr ⟨?_, ?_⟩
    · split <;> simp [issueAt]
    · split <;> simp [issueAt]
  · exact Issue.allErrors_map fun _ => rfl

lemma allErrors_distanceFunctionOf (kind : IndexType) (vector : Option FieldDraft) :
    Issue.AllErrors (distanceFunctionOf d kind vector).2 := by
  unfold distanceFunctionOf
  split
  · simp
  split
  · simp [issueAt]
  split
  · simp
  · dsimp only
    split <;> simp [issueAt]

lemma allErrors_parametersOf (kind : IndexType) : Issue.AllErrors (parametersOf d kind).2 := by
  unfold parametersOf
  split
  · simp
  split
  · simp [issueAt]
  · intro i hi
    obtain ⟨p, -, hp⟩ := List.mem_filterMap.mp hi
    unfold parameterIssue? at hp
    split at hp
    · cases hp
      rfl
    split at hp
    · cases hp
      rfl
    · cases hp

/-- An index that is refused has an issue, and all its issues are errors. -/
lemma issues_of_check {issues : List Issue} (h : check columns d = .error issues) :
    issues ≠ [] ∧ Issue.AllErrors issues := by
  unfold check at h
  dsimp only at h
  split at h
  · rename_i issue hkind
    cases h
    refine ⟨by simp, Issue.allErrors_append.mpr ⟨allErrors_checkFields _ _, ?_⟩⟩
    simpa using level_of_kindOf hkind
  split at h
  · cases h
  · rename_i hempty
    cases h
    refine ⟨fun hnil => hempty (List.isEmpty_iff.mpr hnil), ?_⟩
    simp only [Issue.allErrors_append]
    exact ⟨⟨⟨allErrors_checkFields _ _, allErrors_kindIssues _ _⟩, allErrors_distanceFunctionOf _ _⟩,
      allErrors_parametersOf _⟩

/-- An index keeps its name. -/
lemma name_of_check {i : IndexDef} (h : check columns d = .ok i) : i.name = d.name := by
  unfold check at h
  dsimp only at h
  split at h
  · cases h
  split at h
  · cases h
    rfl
  · cases h

lemma allErrors_checkAll (ds : List IndexDraft) : Issue.AllErrors (checkAll columns ds).2 := by
  induction ds with
  | nil => exact Issue.allErrors_nil
  | cons d ds ih =>
    rw [checkAll]
    dsimp only
    split
    · exact ih
    · rename_i more hcheck
      exact Issue.allErrors_append.mpr ⟨(issues_of_check hcheck).2, ih⟩

/-- Where nothing is reported, every index is kept under its name. -/
theorem names_checkAll {ds : List IndexDraft} (h : (checkAll columns ds).2 = []) :
    (checkAll columns ds).1.map (·.name) = ds.map (·.name) := by
  induction ds with
  | nil => rfl
  | cons d ds ih =>
    rw [checkAll] at h ⊢
    dsimp only at h ⊢
    split at h
    · rename_i i hcheck
      rw [List.map_cons, List.map_cons, ih h, name_of_check hcheck]
    · rename_i more hcheck
      exact absurd (List.append_eq_nil_iff.mp h).1 (issues_of_check hcheck).1

/-- Checking indexes keeps the kind. -/
@[simp] lemma kind_checkEntity (e : Entity) : (checkEntity e).1.kind = e.kind := by
  unfold checkEntity
  split
  · rename_i c hc
    split
    · rfl
    · simp [Entity.kind, hc]
  · rfl

end Kept

end IndexCheck

end EntitySchema
