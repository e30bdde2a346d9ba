import Mathlib.Data.List.Basic
import Mathlib.Tactic.Common
import EntitySchema.Entity.Basic

/-!
# Errors among diagnostics

Most parts of the compiler report errors only, so for them no error means no issue at all
(`eq_nil_of_hasErrors_eq_false`).
-/

namespace EntitySchema

namespace Diagnostic

@[simp] lemma hasErrors_nil : hasErrors [] = false := rfl

@[simp] lemma hasErrors_append (ds es : List Diagnostic) :
    hasErrors (ds ++ es) = (hasErrors ds || hasErrors es) := by
  simp [hasErrors]

lemma hasErrors_eq_false_iff {ds : List Diagnostic} :
    hasErrors ds = false ↔ ∀ d ∈ ds, d.isError = false := by
  simp [hasErrors]

end Diagnostic

namespace Issue

/-- Issues all of which are errors. -/
def AllErrors (issues : List Issue) : Prop :=
  ∀ i ∈ issues, i.level = .error

@[simp] lemma allErrors_nil : AllErrors [] := by
  simp [AllErrors]

@[simp] lemma allErrors_cons {i : Issue} {issues : List Issue} :
    AllErrors (i :: issues) ↔ i.level = .error ∧ AllErrors issues := by
  simp [AllErrors]

@[simp] lemma allErrors_append {issues more : List Issue} :
    AllErrors (issues ++ more) ↔ AllErrors issues ∧ AllErrors more := by
  simp only [AllErrors, List.mem_append]
  constructor
  · exact fun h => ⟨fun i hi => h i (Or.inl hi), fun i hi => h i (Or.inr hi)⟩
  · rintro ⟨h, h'⟩ i (hi | hi)
    · exact h i hi
    · exact h' i hi

/-- Issues that are made in one way from some values. -/
lemma allErrors_map {α : Type} {f : α → Issue} {l : List α} (h : ∀ a, (f a).level = .error) :
    AllErrors (l.map f) := by
  intro i hi
  obtain ⟨a, -, rfl⟩ := List.mem_map.mp hi
  exact h a

@[simp] lemma isError_toDiagnostic (source : String) (i : Issue) :
    (i.toDiagnostic source).isError = (i.level == .error) := rfl

/-- Where all issues would be errors, no error means no issue. -/
lemma eq_nil_of_hasErrors_eq_false {issues : List Issue} {source : String} (h : AllErrors issues)
    (hno : Diagnostic.hasErrors (issues.map (toDiagnostic source)) = false) : issues = [] := by
  rw [Diagnostic.hasErrors_eq_false_iff] at hno
  refine List.eq_nil_iff_forall_not_mem.mpr fun i hi => ?_
  have hi' := hno _ (List.mem_map_of_mem hi)
  simp [h i hi] at hi'

end Issue

end EntitySchema
