import Mathlib.Data.List.Basic
import Mathlib.Data.List.Sort
import Mathlib.Tactic.Common
import EntitySchema.Text.Units

/-!
# The order of strings by their code units

The comparison of code units is the library's lexicographic comparison of numbers
(`compareUnits_eq_compareLex`), so it is transitive, and lists of code units that compare as equal are
equal.  No character is the beginning of another one's units: a character below `U+10000` is not a
surrogate, and a surrogate pair begins with the high one.  So the units of a text determine it
(`codeUnits_injective`), and `Text.le` is a linear order of the strings (`le_trans`, `le_antisymm`,
`le_total`).  Of things whose keys are pairwise distinct there is then one sorted list, whichever list
they are sorted from (`mergeSort_eq_of_perm`), and leaving one out leaves it out of that list
(`mergeSort_erase`).
-/

namespace EntitySchema

namespace Text

/-! ### Code units -/

lemma compareUnits_eq_compareLex (as bs : List Nat) :
    compareUnits as bs = List.compareLex Ord.compare as bs := by
  induction as generalizing bs with
  | nil => cases bs <;> rfl
  | cons a as ih =>
    cases bs with
    | nil => rfl
    | cons b bs =>
      rw [List.compareLex_cons_cons, compareUnits, ih]
      rcases Nat.lt_trichotomy a b with h | rfl | h
      · rw [if_pos h, Nat.compare_eq_lt.mpr h]
        rfl
      · rw [if_neg (Nat.lt_irrefl a), if_neg (Nat.lt_irrefl a), Nat.compare_eq_eq.mpr rfl]
        rfl
      · rw [if_neg (Nat.lt_asymm h), if_pos h, Nat.compare_eq_gt.mpr h]
        rfl

/-- A character is not a surrogate. -/
lemma surrogate_free (c : Char) : c.toNat < 0xD800 ∨ 0xDFFF < c.toNat ∧ c.toNat < 0x110000 :=
  c.valid

/-- The units of a text begin with those of its first character and of no other one. -/
lemma codeUnitsOf_append_inj {c d : Char} {as bs : List Nat}
    (h : codeUnitsOf c ++ as = codeUnitsOf d ++ bs) : c = d ∧ as = bs := by
  have hc := surrogate_free c
  have hd := surrogate_free d
  have hunits : c.toNat = d.toNat ∧ as = bs := by
    unfold codeUnitsOf at h
    by_cases hlow : c.toNat < 0x10000
    · by_cases hlow' : d.toNat < 0x10000
      · rw [if_pos hlow, if_pos hlow'] at h
        exact ⟨List.head_eq_of_cons_eq h, List.tail_eq_of_cons_eq h⟩
      · rw [if_pos hlow, if_neg hlow'] at h
        have hhead := List.head_eq_of_cons_eq h
        omega
    · by_cases hlow' : d.toNat < 0x10000
      · rw [if_neg hlow, if_pos hlow'] at h
        have hhead := List.head_eq_of_cons_eq h
        omega
      · rw [if_neg hlow, if_neg hlow'] at h
        have hhigh := List.head_eq_of_cons_eq h
        have hrest := List.tail_eq_of_cons_eq h
        have hlast := List.head_eq_of_cons_eq hrest
        exact ⟨by omega, List.tail_eq_of_cons_eq hrest⟩
  exact ⟨Char.toNat_inj.mp hunits.1, hunits.2⟩

lemma codeUnitsOf_ne_nil (c : Char) : codeUnitsOf c ≠ [] := by
  unfold codeUnitsOf
  split <;> exact List.cons_ne_nil _ _

/-- Texts with the same code units are the same. -/
theorem codeUnits_injective : Function.Injective codeUnits := by
  intro s t h
  induction s generalizing t with
  | nil =>
    cases t with
    | nil => rfl
    | cons d t =>
      have hnil : codeUnitsOf d ++ codeUnits t = [] := h.symm
      exact absurd (List.append_eq_nil_iff.mp hnil).1 (codeUnitsOf_ne_nil d)
  | cons c s ih =>
    cases t with
    | nil =>
      have hnil : codeUnitsOf c ++ codeUnits s = [] := h
      exact absurd (List.append_eq_nil_iff.mp hnil).1 (codeUnitsOf_ne_nil c)
    | cons d t =>
      have happend : codeUnitsOf c ++ codeUnits s = codeUnitsOf d ++ codeUnits t := h
      obtain ⟨rfl, hrest⟩ := codeUnitsOf_append_inj happend
      rw [ih hrest]

/-! ### The order -/

variable {s t u : String}

lemma le_iff_isLE : le s t = true ↔
    (List.compareLex Ord.compare (codeUnits s.toList) (codeUnits t.toList)).isLE = true := by
  rw [le, compare, compareUnits_eq_compareLex]
  cases List.compareLex Ord.compare (codeUnits s.toList) (codeUnits t.toList) <;> decide

theorem le_trans (hst : le s t = true) (htu : le t u = true) : le s u = true := by
  rw [le_iff_isLE] at hst htu ⊢
  exact Std.TransCmp.isLE_trans hst htu

theorem le_antisymm (hst : le s t = true) (hts : le t s = true) : s = t := by
  rw [le_iff_isLE] at hst hts
  have heq := Std.LawfulEqCmp.eq_of_compare (Std.OrientedCmp.isLE_antisymm hst hts)
  exact String.toList_injective (codeUnits_injective heq)

/-- Things that are sorted by their keys stand in the order of their keys. -/
lemma pairwise_mergeSort {α : Type} (key : α → String) (xs : List α) :
    (xs.mergeSort fun a b => le (key a) (key b)).Pairwise fun a b => le (key a) (key b) = true := by
  apply List.pairwise_mergeSort
  · exact fun a b c => le_trans
  · intro a b
    rw [Bool.or_eq_true]
    exact le_total (key a) (key b)

/-- Things with pairwise distinct keys have one list in the order of their keys. -/
theorem mergeSort_eq_of_perm {α : Type} {key : α → String} {xs ys : List α} (hperm : xs.Perm ys)
    (hkeys : (xs.map key).Nodup) :
    ys.mergeSort (fun a b => le (key a) (key b)) = xs.mergeSort (fun a b => le (key a) (key b)) := by
  apply List.Perm.eq_of_pairwise _ (pairwise_mergeSort key ys) (pairwise_mergeSort key xs)
  · exact (List.mergeSort_perm ys _).trans (hperm.symm.trans (List.mergeSort_perm xs _).symm)
  · intro a b ha hb hab hba
    have ha' : a ∈ xs := hperm.mem_iff.mpr (List.mem_mergeSort.mp ha)
    have hb' : b ∈ xs := List.mem_mergeSort.mp hb
    exact List.inj_on_of_nodup_map hkeys ha' hb' (le_antisymm hab hba)

/-- Leaving out one of things with pairwise distinct keys leaves it out of their list in order. -/
theorem mergeSort_erase {α : Type} [DecidableEq α] {key : α → String} {xs : List α} (hkeys : (xs.map key).Nodup)
    (a : α) :
    (xs.erase a).mergeSort (fun a b => le (key a) (key b)) =
      (xs.mergeSort fun a b => le (key a) (key b)).erase a := by
  have hperm := List.mergeSort_perm xs fun a b => le (key a) (key b)
  have hnodup : (((xs.mergeSort fun a b => le (key a) (key b)).erase a).map key).Nodup :=
    ((hperm.map key).nodup_iff.mpr hkeys).sublist (List.erase_sublist.map key)
  rw [mergeSort_eq_of_perm (hperm.erase a) hnodup]
  exact List.mergeSort_of_pairwise ((pairwise_mergeSort key xs).sublist List.erase_sublist)

end Text

end EntitySchema
