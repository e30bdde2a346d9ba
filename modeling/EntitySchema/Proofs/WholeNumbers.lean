import Mathlib.Algebra.Group.Int.Defs
import Mathlib.Algebra.Group.Nat.Defs
import Mathlib.Data.List.TakeWhile
import Mathlib.Tactic.Common
import EntitySchema.Number.Text
import EntitySchema.Proofs.Numerals

/-!
# Whole numbers as numbers

A whole number below `2 ^ 53` is a number without rounding (`ofNat_eq`), and it is the only whole number in its
rounding interval (`contains_interval_iff`).  So the search for the fewest digits ends at the decimal digits of the
number without zeros at their end (`exists_digits`), and writing it puts these zeros back
(`text_ofNat`).  From `2 ^ 53` on rounding stays at or above this bound (`lt_of_isBelow_ofNat`).
-/

namespace EntitySchema

namespace Number

/-- The number is less than a whole number. -/
def IsBelow (limit : Int) : Number → Prop
  | .nan => False
  | .infinite negative => negative = true
  | .finite negative m e =>
    (if negative then -((magnitude m e).1 : Int) else ((magnitude m e).1 : Int)) < limit * ((magnitude m e).2 : Int)

/-! ### Whole numbers without rounding -/

/-- The mantissa of a positive whole number has 53 binary digits. -/
lemma exponentOf_one {n : Nat} (h : n ≠ 0) : exponentOf n 1 = (n.log2 : Int) - 52 := by
  have hlog := Nat.log2_self_le h
  have hone : Nat.log2 1 = 0 := by decide
  have hmin : minExponent = -1074 := rfl
  unfold exponentOf scaleRatio
  simp only [hone, Nat.pow_eq]
  split
  · have hge : ¬ n < 1 * 2 ^ ((n.log2 : Int) - (0 : Nat) - 52).toNat * 2 ^ 52 := by
      rw [Nat.one_mul, ← Nat.pow_add]
      have hexponent : ((n.log2 : Int) - (0 : Nat) - 52).toNat + 52 = n.log2 := by omega
      rw [hexponent]
      omega
    rw [if_neg hge]
    omega
  · have hge : ¬ n * 2 ^ (-((n.log2 : Int) - (0 : Nat) - 52)).toNat < 1 * 2 ^ 52 := by
      have hexponent : (-((n.log2 : Int) - (0 : Nat) - 52)).toNat = 52 - n.log2 := by omega
      have hscaled := Nat.mul_le_mul_right (2 ^ (52 - n.log2)) hlog
      rw [← Nat.pow_add, Nat.add_sub_of_le (by omega)] at hscaled
      rw [hexponent]
      omega
    rw [if_neg hge]
    omega

lemma scaleRatio_neg (num den k : Nat) : scaleRatio num den (-(k : Int)) = (num * 2 ^ k, den) := by
  unfold scaleRatio
  split
  · have hk : k = 0 := by omega
    subst hk
    simp
  · simp

lemma magnitude_neg (m k : Nat) : magnitude m (-(k : Int)) = (m, 2 ^ k) := by
  unfold magnitude
  split
  · have hk : k = 0 := by omega
    subst hk
    simp
  · simp

lemma magnitude_zero (e : Int) : (magnitude 0 e).1 = 0 := by
  unfold magnitude
  split
  · exact Nat.zero_mul _
  · rfl

lemma magnitude_pos (m : Nat) (e : Int) : 0 < (magnitude m e).2 := by
  unfold magnitude
  split
  · exact Nat.one_pos
  · exact Nat.two_pow_pos _

lemma roundHalfEven_one (n : Nat) : roundHalfEven n 1 = n := by
  simp [roundHalfEven, Nat.mod_one]

/-- A quotient with a mantissa below `2 ^ 53` and an exponent in range. -/
lemma ofRatio_eq {negative : Bool} {num den n d : Nat} {e : Int} (hnum : num ≠ 0) (he : exponentOf num den = e)
    (hscale : scaleRatio num den e = (n, d)) (hm : roundHalfEven n d ≠ Nat.pow 2 53) (hmax : ¬ maxExponent < e) :
    ofRatio negative num den = .finite negative (roundHalfEven n d) e := by
  rw [ofRatio, if_neg hnum, he]
  simp only [hscale, if_neg hm, if_neg hmax]

/-- A positive whole number below `2 ^ 53` is not rounded. -/
lemma ofNat_eq {n : Nat} (hn : n ≠ 0) (h : n < 2 ^ 53) :
    ofNat n = .finite false (n * 2 ^ (52 - n.log2)) (-((52 - n.log2 : Nat) : Int)) := by
  have hlog : n.log2 < 53 := (Nat.log2_lt hn).mpr h
  have hexponent : exponentOf n 1 = -((52 - n.log2 : Nat) : Int) := by
    rw [exponentOf_one hn]
    omega
  have hmantissa : n * 2 ^ (52 - n.log2) < 2 ^ 53 := by
    have hscaled := Nat.mul_lt_mul_of_pos_right (Nat.lt_log2_self (n := n)) (Nat.two_pow_pos (52 - n.log2))
    rwa [← Nat.pow_add, show n.log2 + 1 + (52 - n.log2) = 53 by omega] at hscaled
  have hround : roundHalfEven (n * 2 ^ (52 - n.log2)) 1 ≠ Nat.pow 2 53 := by
    rw [roundHalfEven_one]
    exact Nat.ne_of_lt hmantissa
  have hmax : ¬ maxExponent < -((52 - n.log2 : Nat) : Int) := by
    rw [maxExponent]
    omega
  rw [ofNat, ofRatio_eq hn hexponent (scaleRatio_neg _ _ _) hround hmax, roundHalfEven_one]

/-! ### Numbers from `2 ^ 53` on -/

lemma not_isBelow_finite {m : Nat} {e : Int} (hm : 2 ^ 52 ≤ m) (he : 1 ≤ e) :
    ¬ (Number.finite false m e).IsBelow (2 ^ 53) := by
  have hpow : 2 ^ 1 ≤ 2 ^ e.toNat := Nat.pow_le_pow_right (by decide) (by omega)
  have hvalue := Nat.mul_le_mul hm hpow
  have hmagnitude : magnitude m e = (m * 2 ^ e.toNat, 1) := by
    rw [magnitude, if_pos (by omega), Nat.pow_eq]
  simp only [IsBelow, hmagnitude, Bool.false_eq_true, if_false]
  omega

lemma div_le_roundHalfEven (num den : Nat) : num / den ≤ roundHalfEven num den := by
  unfold roundHalfEven
  dsimp only
  split
  · omega
  split <;> omega

/-- The mantissa and the exponent of a number that is not too large. -/
lemma ofRatio_cases (negative : Bool) {num den n d : Nat} {e : Int} (hnum : num ≠ 0) (he : exponentOf num den = e)
    (hscale : scaleRatio num den e = (n, d)) :
    ofRatio negative num den = .infinite negative ∨
      ofRatio negative num den = .finite negative (Nat.pow 2 52) (e + 1) ∨
      ofRatio negative num den = .finite negative (roundHalfEven n d) e := by
  rw [ofRatio, if_neg hnum, he]
  simp only [hscale]
  by_cases hm : roundHalfEven n d = Nat.pow 2 53
  · simp only [if_pos hm]
    split
    · exact .inl rfl
    · exact .inr (.inl rfl)
  · simp only [if_neg hm]
    split
    · exact .inl rfl
    · exact .inr (.inr rfl)

/-- A whole number from `2 ^ 53` on is divided by a power of two, and what is left is a full mantissa. -/
lemma exists_shift {n : Nat} (h : 2 ^ 53 ≤ n) :
    ∃ s : Nat, 1 ≤ s ∧ n.log2 = 52 + s ∧ exponentOf n 1 = (s : Int) ∧ scaleRatio n 1 (s : Int) = (n, 2 ^ s) ∧
      2 ^ 52 ≤ roundHalfEven n (2 ^ s) := by
  have hn : n ≠ 0 := Nat.ne_of_gt (Nat.lt_of_lt_of_le (Nat.two_pow_pos 53) h)
  obtain ⟨s, hs⟩ : ∃ s, n.log2 = 53 + s := by
    have hlog : ¬ n.log2 < 53 := fun hlt => Nat.not_lt.mpr h ((Nat.log2_lt hn).mp hlt)
    exact ⟨n.log2 - 53, by omega⟩
  refine ⟨s + 1, by omega, by omega, ?_, ?_, ?_⟩
  · rw [exponentOf_one hn, hs]
    omega
  · rw [scaleRatio, if_pos (Int.natCast_nonneg _), Int.toNat_natCast, Nat.pow_eq, Nat.one_mul]
  · refine Nat.le_trans ?_ (div_le_roundHalfEven _ _)
    have hpow := Nat.log2_self_le hn
    rw [Nat.le_div_iff_mul_le (Nat.two_pow_pos _), ← Nat.pow_add]
    rwa [hs, show 53 + s = 52 + (s + 1) by omega] at hpow

/-- No whole number from `2 ^ 53` on is rounded to a number below. -/
lemma lt_of_isBelow_ofNat {n : Nat} (h : (ofNat n).IsBelow (2 ^ 53)) : n < 2 ^ 53 := by
  by_contra hlarge
  rw [Nat.not_lt] at hlarge
  have hn : n ≠ 0 := Nat.ne_of_gt (Nat.lt_of_lt_of_le (Nat.two_pow_pos 53) hlarge)
  obtain ⟨s, hs, -, hexponent, hscale, hmantissa⟩ := exists_shift hlarge
  rw [ofNat] at h
  rcases ofRatio_cases false hn hexponent hscale with heq | heq | heq
  · rw [heq] at h
    cases h
  · rw [heq] at h
    exact not_isBelow_finite (Nat.le_refl _) (by omega) h
  · rw [heq] at h
    exact not_isBelow_finite hmantissa (by omega) h

/-- A whole number is rounded to a number below `2 ^ 53` if and only if it is itself below. -/
lemma isBelow_ofNat_iff (n : Nat) : (ofNat n).IsBelow (2 ^ 53) ↔ n < 2 ^ 53 := by
  refine ⟨lt_of_isBelow_ofNat, fun h => ?_⟩
  by_cases hn : n = 0
  · subst hn
    have hzero : ofNat 0 = .finite false 0 minExponent := rfl
    have hpos := magnitude_pos 0 minExponent
    have hnone : (magnitude 0 minExponent).1 = 0 := magnitude_zero _
    simp only [hzero, IsBelow, hnone, Bool.false_eq_true, if_false]
    omega
  · simp only [ofNat_eq hn h, IsBelow, magnitude_neg, Bool.false_eq_true, if_false]
    exact_mod_cast Nat.mul_lt_mul_of_pos_right h (Nat.two_pow_pos _)

/-! ### The digits of a whole number -/

/-- A whole number is the only one in its rounding interval. -/
lemma contains_interval_iff {n k : Nat} (hn : n ≠ 0) (x : Nat) :
    (interval (n * 2 ^ k) (-(k : Int))).contains (x, 1) = true ↔ x = n := by
  have hexponent : -(k : Int) - 2 = -((k + 2 : Nat) : Int) := by omega
  have hden : 2 ^ (k + 2) = 4 * 2 ^ k := by rw [Nat.pow_add, Nat.mul_comm]
  have hvalue : 4 * (n * 2 ^ k) = n * (4 * 2 ^ k) := Nat.mul_left_comm _ _ _
  have hwide : 4 ≤ 4 * 2 ^ k := Nat.le_mul_of_pos_right 4 (Nat.two_pow_pos k)
  have hpos : 4 * 2 ^ k ≤ n * (4 * 2 ^ k) := Nat.le_mul_of_pos_left _ (Nat.pos_of_ne_zero hn)
  -- Neighbours of `n` are a whole `4 * 2 ^ k` away, and the ends of the interval at most two.
  have hless : x < n → x * (4 * 2 ^ k) + 4 * 2 ^ k ≤ n * (4 * 2 ^ k) := by
    intro hlt
    rw [← Nat.succ_mul]
    exact Nat.mul_le_mul_right _ hlt
  have hmore : n < x → n * (4 * 2 ^ k) + 4 * 2 ^ k ≤ x * (4 * 2 ^ k) := by
    intro hlt
    rw [← Nat.succ_mul]
    exact Nat.mul_le_mul_right _ hlt
  have hsame : x = n → x * (4 * 2 ^ k) = n * (4 * 2 ^ k) := fun h => by rw [h]
  unfold interval Interval.contains ratioLt
  simp only [hexponent, magnitude_neg, hden, hvalue, Nat.mul_one]
  generalize 4 * 2 ^ k = den at hwide hpos hless hmore hsame ⊢
  generalize n * den = v at hpos hless hmore hsame ⊢
  generalize x * den = w at hless hmore hsame ⊢
  constructor
  · intro h
    by_contra hne
    split at h <;> split at h <;> simp at h <;> omega
  · intro h
    have hw := hsame h
    split <;> split <;> simp <;> omega

lemma decimalRatio_natCast (d p : Nat) : decimalRatio d (p : Int) = (d * 10 ^ p, 1) := by
  rw [decimalRatio, if_pos (Int.natCast_nonneg p), Int.toNat_natCast, Nat.pow_eq]

/-- The digits in front of the last `p` ones are a point of the interval if and only if the last ones are zeros. -/
lemma pointWith_eq {n k digits p : Nat} {exponent : Int} (hn : n ≠ 0) (hp : exponent - digits = p) :
    pointWith (interval (n * 2 ^ k) (-(k : Int))) (n * 2 ^ k, 2 ^ k) exponent digits =
      if n / 10 ^ p * 10 ^ p = n then some (n / 10 ^ p) else none := by
  have hdiv : n * 2 ^ k / (2 ^ k * 10 ^ p) = n / 10 ^ p := by
    rw [Nat.mul_comm n, Nat.mul_div_mul_left _ _ (Nat.two_pow_pos k)]
  have hupper : (interval (n * 2 ^ k) (-(k : Int))).contains ((n / 10 ^ p + 1) * 10 ^ p, 1) = false := by
    have hlt : n < (n / 10 ^ p + 1) * 10 ^ p := by
      rw [Nat.mul_comm]
      exact Nat.lt_mul_div_succ n (Nat.pow_pos (by decide))
    rw [← Bool.not_eq_true, contains_interval_iff hn]
    exact Nat.ne_of_gt hlt
  unfold pointWith
  simp only [hp, if_pos (Int.natCast_nonneg p), Int.toNat_natCast, Nat.pow_eq, hdiv, decimalRatio_natCast, hupper]
  by_cases hzeros : n / 10 ^ p * 10 ^ p = n
  · have hlower := (contains_interval_iff hn (k := k) (n / 10 ^ p * 10 ^ p)).mpr hzeros
    rw [hlower, if_pos hzeros]
  · have hlower := mt (contains_interval_iff hn (k := k) (n / 10 ^ p * 10 ^ p)).mp hzeros
    rw [Bool.not_eq_true] at hlower
    rw [hlower, if_neg hzeros]

/-- The search ends at one of the points that are found, if one is found for some number of digits within its
reach. -/
lemma exists_searchDigits {i : Interval} {value : Nat × Nat} {length : Nat} {P : Nat → Nat → Prop}
    (hP : ∀ digits d, digits ≤ length → pointWith i value length digits = some d → P d (length - digits))
    (fuel start : Nat) {digits : Nat} (hstart : start ≤ digits) (hfuel : digits < start + fuel)
    (hlength : digits ≤ length) (h : (pointWith i value length digits).isSome) :
    ∃ d p, searchDigits i value length fuel start = (d, length - p) ∧ p ≤ length ∧ P d p := by
  induction fuel generalizing start with
  | zero => omega
  | succ fuel ih =>
    rw [searchDigits]
    split
    · rename_i d hd
      have hle : start ≤ length := Nat.le_trans hstart hlength
      exact ⟨d, length - start, by rw [Nat.sub_sub_self hle], Nat.sub_le _ _, hP start d hle hd⟩
    · rename_i hnone
      have hne : start ≠ digits := by
        rintro rfl
        rw [hnone] at h
        cases h
      exact ih (start + 1) (by omega) (by omega)

/-- For a whole number the search ends with digits that denote it when zeros are put behind them. -/
lemma exists_digits {n k : Nat} (hn : n ≠ 0) (h : (decimal n).length ≤ 17) :
    ∃ d p, searchDigits (interval (n * 2 ^ k) (-(k : Int))) (n * 2 ^ k, 2 ^ k) (decimal n).length 17 1 =
      (d, (decimal n).length - p) ∧ p ≤ (decimal n).length ∧ d * 10 ^ p = n := by
  have hpos : 1 ≤ (decimal n).length := Nat.length_toDigits_pos
  have hpoint : ∀ digits d, digits ≤ (decimal n).length →
      pointWith (interval (n * 2 ^ k) (-(k : Int))) (n * 2 ^ k, 2 ^ k) (decimal n).length digits = some d →
        d * 10 ^ ((decimal n).length - digits) = n := by
    intro digits d hle hd
    rw [pointWith_eq (p := (decimal n).length - digits) hn (by omega)] at hd
    split at hd
    · rename_i hzeros
      rwa [← Option.some.inj hd]
    · cases hd
  have hall : (pointWith (interval (n * 2 ^ k) (-(k : Int))) (n * 2 ^ k, 2 ^ k) (decimal n).length
      (decimal n).length).isSome := by
    rw [pointWith_eq (p := 0) hn (by omega), if_pos (by simp)]
    rfl
  exact exists_searchDigits (P := fun d p => d * 10 ^ p = n) hpoint 17 1 hpos (by omega) (Nat.le_refl _) hall

/-! ### Writing a whole number -/

/-- The zeros that are dropped are those that are missing. -/
lemma dropTrailingZeros_append (cs : List Char) :
    ∃ zeros, cs = dropTrailingZeros cs ++ List.replicate zeros '0' := by
  refine ⟨(cs.reverse.takeWhile (· == '0')).length, ?_⟩
  have hzeros : (cs.reverse.takeWhile (· == '0')).reverse =
      List.replicate (cs.reverse.takeWhile (· == '0')).length '0' := by
    rw [List.eq_replicate_iff, List.length_reverse]
    refine ⟨rfl, fun c hc => ?_⟩
    simpa using List.mem_takeWhile_imp (List.mem_reverse.mp hc)
  rw [dropTrailingZeros, ← hzeros, ← List.reverse_append, List.takeWhile_append_dropWhile, List.reverse_reverse]

lemma toDigits_mul_pow {d : Nat} (hd : d ≠ 0) (p : Nat) :
    Nat.toDigits 10 (d * 10 ^ p) = Nat.toDigits 10 d ++ List.replicate p '0' := by
  induction p with
  | zero => simp
  | succ p ih =>
    have hpos : 0 < d * 10 ^ p := Nat.mul_pos (Nat.pos_of_ne_zero hd) (Nat.pow_pos (by decide))
    have hstep := Nat.toDigits_append_toDigits (b := 10) (by decide) hpos (show 0 < 10 by decide)
    rw [Nat.pow_succ, ← Nat.mul_assoc, Nat.mul_comm _ 10, ← Nat.add_zero (10 * _), ← hstep, ih, List.append_assoc,
      List.replicate_succ']
    rfl

/-- Digits are written with zeros up to the place of the point if it is at most the 21st. -/
lemma layOut_eq {d : Digits} {length zeros : Nat} (hexponent : d.exponent = length)
    (hlength : length = d.digits.length + zeros) (h : length ≤ 21) :
    d.layOut plainStyle = d.digits ++ List.replicate zeros '0' := by
  have hstyle : plainStyle.positionalUpTo = 21 := rfl
  have hwithin : ((d.digits.length : Int) ≤ d.exponent && d.exponent ≤ plainStyle.positionalUpTo) = true := by
    simp only [Bool.and_eq_true, decide_eq_true_eq]
    omega
  have hzeros : (d.exponent - d.digits.length).toNat = zeros := by omega
  rw [Digits.layOut]
  simp only [if_pos hwithin, hzeros]

/-- What the search ends at is written with all of its zeros, if these are up to 21 digits. -/
lemma layOut_shortest {m length d p : Nat} {e : Int}
    (hvalue : decimalExponent (magnitude m e).1 (magnitude m e).2 = length)
    (hsearch : searchDigits (interval m e) (magnitude m e) length 17 1 = (d, length - p)) (hp : p ≤ length)
    (hd : d ≠ 0) (h : (decimal (d * 10 ^ p)).length ≤ 21) :
    (shortest m e).layOut plainStyle = decimal (d * 10 ^ p) := by
  have hdigits : decimal (d * 10 ^ p) = decimal d ++ List.replicate p '0' := toDigits_mul_pow hd p
  obtain ⟨zeros, hzeros⟩ := dropTrailingZeros_append (decimal d)
  have hlength : (decimal d).length = (dropTrailingZeros (decimal d)).length + zeros := by
    rw [← List.length_replicate (n := zeros) (a := '0'), ← List.length_append, ← hzeros]
  rw [hdigits, List.length_append, List.length_replicate] at h
  have hshortest : shortest m e = ⟨dropTrailingZeros (decimal d), ((decimal d).length + p : Nat)⟩ := by
    unfold shortest
    simp only [hvalue, hsearch, Digits.mk.injEq, true_and]
    omega
  have hplaces : (decimal d).length + p = (dropTrailingZeros (decimal d)).length + (zeros + p) := by omega
  rw [hshortest, layOut_eq rfl hplaces h, hdigits, List.replicate_add, ← List.append_assoc, ← hzeros]

/-- A whole number below `2 ^ 53` is written with its decimal digits. -/
theorem text_ofNat {n : Nat} (h : n < 2 ^ 53) : text (ofNat n) = String.ofList (Nat.toDigits 10 n) := by
  by_cases hn : n = 0
  · subst hn
    rfl
  · obtain ⟨k, hk⟩ : ∃ k, k = 52 - n.log2 := ⟨_, rfl⟩
    have hlength : (decimal n).length ≤ 16 := by
      rw [decimal, Nat.length_toDigits_le_iff (by decide) (by decide)]
      exact Nat.lt_trans h (by decide)
    obtain ⟨d, p, hsearch, hp, hd⟩ := exists_digits (k := k) hn (by omega)
    have hdne : d ≠ 0 := by
      rintro rfl
      exact hn (by rw [← hd, Nat.zero_mul])
    have hvalue : decimalExponent (magnitude (n * 2 ^ k) (-(k : Int))).1 (magnitude (n * 2 ^ k) (-(k : Int))).2 =
        ((decimal n).length : Int) := by
      rw [magnitude_neg, decimalExponent, if_pos (Nat.le_mul_of_pos_left _ (Nat.pos_of_ne_zero hn)),
        Nat.mul_div_cancel _ (Nat.two_pow_pos k)]
    have hmantissa : n * 2 ^ k ≠ 0 := Nat.mul_ne_zero hn (Nat.ne_of_gt (Nat.two_pow_pos _))
    rw [← magnitude_neg] at hsearch
    have hlayOut := layOut_shortest hvalue hsearch hp hdne (by rw [hd]; omega)
    rw [ofNat_eq hn h, ← hk, text]
    simp only [if_neg hmantissa, hlayOut, hd]
    rfl

end Number

end EntitySchema
