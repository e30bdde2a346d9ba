import Mathlib.Data.List.Basic
import Mathlib.Tactic.Common
import EntitySchema.Entity.Basic

/-!
# Fields that share a name

A lookup finds the first field of a name, and this field shadows the others.  What matters of fields that
share a name is what holds of the shadowed ones; a field for which it does not hold is the one that the
lookup finds (`Shadowed.find?_eq`).
-/

namespace EntitySchema

namespace FieldDraft

/-- Every field that an earlier one of its name shadows has the property. -/
def Shadowed (P : FieldDraft → Prop) (fields : List FieldDraft) : Prop :=
  fields.Pairwise fun f g => f.name = g.name → P g

section Shadowed

variable {P Q : FieldDraft → Prop} {fields : List FieldDraft}

lemma shadowed_of_forall (h : ∀ f ∈ fields, P f) : Shadowed P fields :=
  List.pairwise_of_forall_mem_list fun _ _ g hg _ => h g hg

lemma Shadowed.filter (h : Shadowed P fields) (p : FieldDraft → Bool) : Shadowed P (fields.filter p) :=
  List.Pairwise.filter p h

/-- A field that is not shadowed is found by its name. -/
theorem Shadowed.find?_eq (h : Shadowed P fields) {f : FieldDraft} (hf : f ∈ fields) (hP : ¬ P f) :
    fields.find? (·.name == f.name) = some f := by
  induction fields with
  | nil => cases hf
  | cons g fields ih =>
    obtain ⟨hg, hfields⟩ := List.pairwise_cons.mp h
    rcases List.mem_cons.mp hf with rfl | hf
    · simp
    · have hne : ¬ g.name = f.name := fun hname => hP (hg f hf hname)
      simp [hne, ih hfields hf]

end Shadowed

end FieldDraft

end EntitySchema
