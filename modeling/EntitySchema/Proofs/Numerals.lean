import Mathlib.Algebra.Group.Nat.Defs
import Mathlib.Data.List.Basic
import Mathlib.Data.List.Induction
import Mathlib.Tactic.Common
import EntitySchema.Number.Shortest
import EntitySchema.Number.Read

/-!
# Decimal numerals

The decimal digits of a natural number denote that number (`digitsValue_toDigits`), also behind zeros
(`digitsValue_replicate_append`).  Conversely a given number of digits is known from what it denotes
(`eq_of_digitsValue_eq`).
-/

namespace EntitySchema

namespace Number

lemma isDigit_eq (c : Char) : isDigit c = c.isDigit := rfl

/-- A digit stands for its distance from zero. -/
lemma digitValue_of_isDigit {c : Char} (h : isDigit c = true) : digitValue c = c.toNat - '0'.toNat := by
  simp only [isDigit, Bool.and_eq_true, decide_eq_true_eq] at h
  have hlow : 0x30 ≤ c.toNat := h.1
  have hhigh : c.toNat ≤ 0x39 := h.2
  have hzero : '0'.toNat = 0x30 := rfl
  simp [digitValue, hlow, hhigh, hzero]

/-- Digits denote a number as in the library. -/
lemma digitsValue_eq_ofDigitChars {cs : List Char} (h : ∀ c ∈ cs, isDigit c = true) :
    digitsValue 10 cs = Nat.ofDigitChars 10 cs 0 := by
  rw [Nat.ofDigitChars_eq_foldl, digitsValue]
  refine List.foldl_ext _ _ _ fun n c hc => ?_
  rw [digitValue_of_isDigit (h c hc), Nat.mul_comm]

lemma isDigit_of_mem_toDigits {n : Nat} {c : Char} (h : c ∈ Nat.toDigits 10 n) : isDigit c = true := by
  rw [isDigit_eq]
  exact Nat.isDigit_of_mem_toDigits (by decide) (by decide) h

lemma isDigit_of_mem_replicate {n : Nat} {c : Char} (h : c ∈ List.replicate n '0') : isDigit c = true := by
  rw [List.eq_of_mem_replicate h]
  decide

/-- The decimal digits of a number denote it. -/
theorem digitsValue_toDigits (n : Nat) : digitsValue 10 (Nat.toDigits 10 n) = n := by
  rw [digitsValue_eq_ofDigitChars fun _ => isDigit_of_mem_toDigits, Nat.ofDigitChars_ten_toDigits]

/-- Zeros in front of the decimal digits of a number do not change what they denote. -/
theorem digitsValue_replicate_append (k n : Nat) :
    digitsValue 10 (List.replicate k '0' ++ Nat.toDigits 10 n) = n := by
  have hdigits : ∀ c ∈ List.replicate k '0' ++ Nat.toDigits 10 n, isDigit c = true := by
    intro c hc
    rcases List.mem_append.mp hc with hc | hc
    · exact isDigit_of_mem_replicate hc
    · exact isDigit_of_mem_toDigits hc
  rw [digitsValue_eq_ofDigitChars hdigits, Nat.ofDigitChars_append, Nat.ofDigitChars_replicate_zero,
    Nat.mul_zero, Nat.ofDigitChars_ten_toDigits]

/-! ### Digits of a given number -/

lemma digitsValue_concat (base : Nat) (cs : List Char) (c : Char) :
    digitsValue base (cs ++ [c]) = digitsValue base cs * base + digitValue c := by
  rw [digitsValue, digitsValue, List.foldl_append, List.foldl_cons, List.foldl_nil]

lemma digitValue_lt {c : Char} (h : isDigit c = true) : digitValue c < 10 := by
  have hvalue := digitValue_of_isDigit h
  simp only [isDigit, Bool.and_eq_true, decide_eq_true_eq] at h
  have hhigh : c.toNat ≤ 0x39 := h.2
  have hzero : '0'.toNat = 0x30 := rfl
  omega

lemma digitValue_inj {c d : Char} (hc : isDigit c = true) (hd : isDigit d = true)
    (h : digitValue c = digitValue d) : c = d := by
  rw [digitValue_of_isDigit hc, digitValue_of_isDigit hd] at h
  simp only [isDigit, Bool.and_eq_true, decide_eq_true_eq] at hc hd
  have hlow : '0'.toNat ≤ c.toNat := hc.1
  have hlow' : '0'.toNat ≤ d.toNat := hd.1
  have hsame : c.toNat = d.toNat := by omega
  exact Char.toNat_inj.mp hsame

/-- As many digits as there are places denote less than the power of ten for these places. -/
theorem digitsValue_lt {cs : List Char} (h : ∀ c ∈ cs, isDigit c = true) : digitsValue 10 cs < 10 ^ cs.length := by
  induction cs using List.reverseRecOn with
  | nil => decide
  | append_singleton cs c ih =>
    have hfront := ih fun d hd => h d (List.mem_append_left _ hd)
    have hlast := digitValue_lt (h c (List.mem_append_right _ List.mem_cons_self))
    rw [digitsValue_concat, List.length_append, List.length_singleton, Nat.pow_succ]
    omega

/-- Zeros denote zero. -/
lemma digitsValue_replicate_zero (n : Nat) : digitsValue 10 (List.replicate n '0') = 0 := by
  induction n with
  | zero => rfl
  | succ n ih => rw [List.replicate_succ', digitsValue_concat, ih, Nat.zero_mul]; rfl

/-- Equally many digits that denote the same number are the same digits. -/
theorem eq_of_digitsValue_eq {cs ds : List Char} (hlength : cs.length = ds.length)
    (hcs : ∀ c ∈ cs, isDigit c = true) (hds : ∀ d ∈ ds, isDigit d = true)
    (h : digitsValue 10 cs = digitsValue 10 ds) : cs = ds := by
  induction cs using List.reverseRecOn generalizing ds with
  | nil => exact (List.length_eq_zero_iff.mp hlength.symm).symm
  | append_singleton cs c ih =>
    obtain ⟨front, d, rfl⟩ : ∃ front d, ds = front ++ [d] := by
      refine ⟨ds.dropLast, ds.getLast (List.ne_nil_of_length_pos ?_), (List.dropLast_append_getLast _).symm⟩
      rw [← hlength, List.length_append, List.length_singleton]
      omega
    have hc := hcs c (List.mem_append_right _ List.mem_cons_self)
    have hd := hds d (List.mem_append_right _ List.mem_cons_self)
    have hc' := digitValue_lt hc
    have hd' := digitValue_lt hd
    rw [digitsValue_concat, digitsValue_concat] at h
    simp only [List.length_append, List.length_singleton, Nat.add_right_cancel_iff] at hlength
    have hfront := ih hlength (fun c hc => hcs c (List.mem_append_left _ hc))
      (fun d hd => hds d (List.mem_append_left _ hd)) (by omega)
    have hlast := digitValue_inj hc hd (by omega)
    rw [hfront, hlast]

end Number

end EntitySchema
