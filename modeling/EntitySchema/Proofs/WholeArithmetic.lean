import Mathlib.Tactic.Ring
import EntitySchema.Number.Arithmetic
import EntitySchema.Proofs.WholeNumbers

/-!
# Sums and products of whole numbers

A number without a fraction is a whole number, whatever its exponent is (`IsWhole`), and rounding does not look at
the exponent (`ofScaled_eq_ofNat`).  So sums and products of whole numbers are the numbers nearest to the sums
and products (`add_eq_ofNat`, `mul_eq_ofNat`).  The number nearest to a whole number is again a whole one
(`exists_isWhole_ofNat`); up to `2 ^ 53` it is the number itself, and beyond it is larger by a `2 ^ 53`th at most
(`rounded_le`).  A chain of roundings multiplies these bounds (`Near`).
-/

namespace EntitySchema

namespace Number

/-! ### Quotients of the same value -/

lemma scaleRatio_mul (num den : Nat) (e : Int) (c : Nat) :
    scaleRatio (num * c) (den * c) e = ((scaleRatio num den e).1 * c, (scaleRatio num den e).2 * c) := by
  unfold scaleRatio
  split
  · rw [Nat.mul_right_comm]
  · rw [Nat.mul_right_comm]

lemma roundHalfEven_mul (num den : Nat) {c : Nat} (hc : 0 < c) :
    roundHalfEven (num * c) (den * c) = roundHalfEven num den := by
  have hquotient : num * c / (den * c) = num / den := Nat.mul_div_mul_right num den hc
  have hrest : num * c % (den * c) = num % den * c := Nat.mul_mod_mul_right c num den
  have hless : 2 * (num % den * c) < den * c ↔ 2 * (num % den) < den := by
    rw [← Nat.mul_assoc, Nat.mul_lt_mul_right hc]
  have hmore : den * c < 2 * (num % den * c) ↔ den < 2 * (num % den) := by
    rw [← Nat.mul_assoc, Nat.mul_lt_mul_right hc]
  simp only [roundHalfEven, hquotient, hrest, hless, hmore]

/-- The exponent that comes from the binary digits is one too large if the quotient is small. -/
lemma exponentOf_eq {num den n d : Nat} {guess : Int} (hguess : (num.log2 : Int) - (den.log2 : Int) - 52 = guess)
    (hscale : scaleRatio num den guess = (n, d)) :
    exponentOf num den = max (if n < d * 2 ^ 52 then guess - 1 else guess) minExponent := by
  rw [exponentOf, hguess, hscale]
  rfl

lemma log2_mul_two_pow {n : Nat} (hn : n ≠ 0) (j : Nat) : (n * 2 ^ j).log2 = n.log2 + j := by
  have hne : n * 2 ^ j ≠ 0 := Nat.mul_ne_zero hn (Nat.two_pow_pos j).ne'
  have hlow := Nat.mul_le_mul_right (2 ^ j) (Nat.log2_self_le hn)
  have hhigh := Nat.mul_lt_mul_of_pos_right (Nat.lt_log2_self (n := n)) (Nat.two_pow_pos j)
  rw [← Nat.pow_add] at hlow hhigh
  rw [Nat.log2_eq_iff hne, Nat.add_right_comm]
  exact ⟨hlow, hhigh⟩

lemma exponentOf_mul {num den : Nat} (hnum : num ≠ 0) (hden : den ≠ 0) (j : Nat) :
    exponentOf (num * 2 ^ j) (den * 2 ^ j) = exponentOf num den := by
  obtain ⟨guess, hguess⟩ : ∃ guess, (num.log2 : Int) - (den.log2 : Int) - 52 = guess := ⟨_, rfl⟩
  have hguess' : ((num * 2 ^ j).log2 : Int) - ((den * 2 ^ j).log2 : Int) - 52 = guess := by
    rw [log2_mul_two_pow hnum, log2_mul_two_pow hden]
    omega
  obtain ⟨n, d, hscale⟩ : ∃ n d, scaleRatio num den guess = (n, d) := ⟨_, _, rfl⟩
  have hscale' : scaleRatio (num * 2 ^ j) (den * 2 ^ j) guess = (n * 2 ^ j, d * 2 ^ j) := by
    rw [scaleRatio_mul, hscale]
  have hcompare : n * 2 ^ j < d * 2 ^ j * 2 ^ 52 ↔ n < d * 2 ^ 52 := by
    rw [Nat.mul_right_comm, Nat.mul_lt_mul_right (Nat.two_pow_pos j)]
  rw [exponentOf_eq hguess hscale, exponentOf_eq hguess' hscale']
  by_cases hsmall : n < d * 2 ^ 52
  · rw [if_pos hsmall, if_pos (hcompare.mpr hsmall)]
  · rw [if_neg hsmall, if_neg (mt hcompare.mp hsmall)]

/-- Rounding looks at the value of a quotient only. -/
lemma ofRatio_mul (negative : Bool) {num den : Nat} (hden : den ≠ 0) (j : Nat) :
    ofRatio negative (num * 2 ^ j) (den * 2 ^ j) = ofRatio negative num den := by
  have hpos := Nat.two_pow_pos j
  by_cases hnum : num = 0
  · rw [hnum, Nat.zero_mul, ofRatio, ofRatio, if_pos rfl, if_pos rfl]
  · have hnum' : num * 2 ^ j ≠ 0 := Nat.mul_ne_zero hnum hpos.ne'
    obtain ⟨e, he⟩ : ∃ e, exponentOf num den = e := ⟨_, rfl⟩
    obtain ⟨n, d, hscale⟩ : ∃ n d, scaleRatio num den e = (n, d) := ⟨_, _, rfl⟩
    have hscale' : scaleRatio (num * 2 ^ j) (den * 2 ^ j) e = (n * 2 ^ j, d * 2 ^ j) := by
      rw [scaleRatio_mul, hscale]
    have hround := roundHalfEven_mul n d hpos
    rw [ofRatio, ofRatio, if_neg hnum, if_neg hnum', exponentOf_mul hnum hden, he]
    simp only [hscale, hscale', hround]

/-! ### Whole numbers -/

/-- `mantissa * 2 ^ exponent` is the whole number `n`. -/
def IsWhole (mantissa : Nat) (exponent : Int) (n : Nat) : Prop :=
  ∃ k : Nat, 0 ≤ exponent + k ∧ mantissa * 2 ^ (exponent + k).toNat = n * 2 ^ k

variable {m m' : Nat} {e e' : Int} {n n' : Nat}

/-- Every exponent that leaves no fraction shows the whole number. -/
lemma IsWhole.mul_two_pow (h : IsWhole m e n) {k : Nat} (hk : 0 ≤ e + k) : m * 2 ^ (e + k).toNat = n * 2 ^ k := by
  obtain ⟨l, hl, heq⟩ := h
  have hexponent : (e + k).toNat + l = (e + l).toNat + k := by omega
  refine Nat.eq_of_mul_eq_mul_right (Nat.two_pow_pos l) ?_
  calc m * 2 ^ (e + k).toNat * 2 ^ l
      = m * 2 ^ ((e + k).toNat + l) := by rw [Nat.mul_assoc, Nat.pow_add]
    _ = m * 2 ^ (e + l).toNat * 2 ^ k := by rw [hexponent, Nat.pow_add, Nat.mul_assoc]
    _ = n * 2 ^ k * 2 ^ l := by rw [heq, Nat.mul_right_comm]

lemma isWhole_natCast (m k : Nat) : IsWhole m (k : Int) (m * 2 ^ k) :=
  ⟨0, by omega, by simp⟩

/-- With a lower exponent the mantissa is the larger. -/
lemma IsWhole.lower (h : IsWhole m e n) {least : Int} (hle : least ≤ e) :
    IsWhole (m * 2 ^ (e - least).toNat) least n := by
  obtain ⟨k, hk⟩ : ∃ k : Nat, 0 ≤ least + k := ⟨(-least).toNat, by omega⟩
  have hexponent : (e - least).toNat + (least + k).toNat = (e + k).toNat := by omega
  refine ⟨k, hk, ?_⟩
  rw [Nat.mul_assoc, ← Nat.pow_add, hexponent, h.mul_two_pow (by omega)]

lemma IsWhole.add (h : IsWhole m e n) (h' : IsWhole m' e n') : IsWhole (m + m') e (n + n') := by
  obtain ⟨k, hk, heq⟩ := h
  refine ⟨k, hk, ?_⟩
  rw [Nat.add_mul, heq, h'.mul_two_pow hk, Nat.add_mul]

lemma IsWhole.magnitude_eq (h : IsWhole m e n) : ∃ j : Nat, magnitude m e = (n * 2 ^ j, 1 * 2 ^ j) := by
  by_cases he : 0 ≤ e
  · have hvalue := h.mul_two_pow (k := 0) (by omega)
    refine ⟨0, ?_⟩
    rw [magnitude, if_pos he, Nat.pow_eq, ← hvalue, Nat.cast_zero, Int.add_zero]
    simp
  · have hvalue := h.mul_two_pow (k := (-e).toNat) (by omega)
    have hzero : (e + ((-e).toNat : Nat)).toNat = 0 := by omega
    rw [hzero, Nat.pow_zero, Nat.mul_one] at hvalue
    refine ⟨(-e).toNat, ?_⟩
    rw [magnitude, if_neg he, Nat.pow_eq, hvalue, Nat.one_mul]

lemma ofScaled_eq_ofNat (h : IsWhole m e n) : ofScaled false m e = ofNat n := by
  obtain ⟨j, hj⟩ := h.magnitude_eq
  rw [ofScaled, hj]
  exact ofRatio_mul false Nat.one_ne_zero j

/-- The product of whole numbers is the number nearest to their product. -/
lemma mul_eq_ofNat (h : IsWhole m e n) (h' : IsWhole m' e' n') :
    mul (.finite false m e) (.finite false m' e') = ofNat (n * n') := by
  obtain ⟨k, hk, heq⟩ := h
  obtain ⟨l, hl, heq'⟩ := h'
  refine ofScaled_eq_ofNat ⟨k + l, by omega, ?_⟩
  have hexponent : (e + e' + ((k + l : Nat) : Int)).toNat = (e + k).toNat + (e' + l).toNat := by omega
  calc m * m' * 2 ^ (e + e' + ((k + l : Nat) : Int)).toNat
      = m * 2 ^ (e + k).toNat * (m' * 2 ^ (e' + l).toNat) := by rw [hexponent, Nat.pow_add]; ring
    _ = n * n' * 2 ^ (k + l) := by rw [heq, heq', Nat.pow_add]; ring

/-- The sum of whole numbers is the number nearest to their sum. -/
lemma add_eq_ofNat (h : IsWhole m e n) (h' : IsWhole m' e' n') :
    add (.finite false m e) (.finite false m' e') = ofNat (n + n') := by
  obtain ⟨least, hleast⟩ : ∃ least, least = min e e' := ⟨_, rfl⟩
  obtain ⟨sum, hsum⟩ : ∃ sum : Nat, sum = m * 2 ^ (e - least).toNat + m' * 2 ^ (e' - least).toNat := ⟨_, rfl⟩
  have hadd : add (.finite false m e) (.finite false m' e') =
      if (sum : Int) = 0 then .finite false 0 minExponent else ofScaled ((sum : Int) < 0) (sum : Int).natAbs least := by
    simp only [add, scaled, ← hleast, hsum, Nat.pow_eq]
    push_cast
    rfl
  have hwhole : IsWhole sum least (n + n') :=
    hsum ▸ (h.lower (by omega)).add (h'.lower (by omega))
  have hpositive : ¬ (sum : Int) < 0 := by omega
  rw [hadd]
  split
  · rename_i hzero
    have hnone : n + n' = 0 := by
      obtain ⟨k, -, heq⟩ := hwhole
      rw [Int.natCast_eq_zero.mp hzero, Nat.zero_mul, eq_comm] at heq
      exact (Nat.mul_eq_zero.mp heq).resolve_right (Nat.two_pow_pos k).ne'
    rw [hnone]
    rfl
  · rw [decide_eq_false hpositive, Int.natAbs_natCast]
    exact ofScaled_eq_ofNat hwhole

/-! ### Rounding of whole numbers -/

/-- The whole number that a whole number is rounded to: beyond `2 ^ 53` a multiple of the last place of its
mantissa. -/
def rounded (n : Nat) : Nat :=
  if n < 2 ^ 53 then n else roundHalfEven n (2 ^ (n.log2 - 52)) * 2 ^ (n.log2 - 52)

lemma rounded_of_le {n : Nat} (h : n ≤ 2 ^ 53) : rounded n = n := by
  rcases Nat.lt_or_eq_of_le h with hlt | rfl
  · exact if_pos hlt
  · decide

lemma two_mul_roundHalfEven_mul_le (num den : Nat) : 2 * (roundHalfEven num den * den) ≤ 2 * num + den := by
  have hdivision := Nat.div_add_mod num den
  rw [Nat.mul_comm] at hdivision
  have hnext : (num / den + 1) * den = num / den * den + den := Nat.succ_mul _ _
  unfold roundHalfEven
  dsimp only
  split
  · omega
  split
  · rw [hnext]
    omega
  · rcases Nat.mod_two_eq_zero_or_one (num / den) with heven | hodd
    · rw [heven, Nat.add_zero]
      omega
    · rw [hodd, hnext]
      omega

lemma roundHalfEven_le (num den : Nat) : roundHalfEven num den ≤ num / den + 1 := by
  unfold roundHalfEven
  dsimp only
  split
  · omega
  split <;> omega

/-- Rounding makes a number larger by a `2 ^ 53`th of it at most. -/
lemma rounded_le (n : Nat) : rounded n * 2 ^ 53 ≤ n * (2 ^ 53 + 1) := by
  by_cases h : n < 2 ^ 53
  · rw [rounded_of_le (by omega)]
    omega
  · have hn : n ≠ 0 := by omega
    have hlog : ¬ n.log2 < 53 := mt (Nat.log2_lt hn).mp h
    have hunit : 2 ^ (n.log2 - 52) * 2 ^ 52 ≤ n := by
      rw [← Nat.pow_add, Nat.sub_add_cancel (by omega)]
      exact Nat.log2_self_le hn
    have hround := two_mul_roundHalfEven_mul_le n (2 ^ (n.log2 - 52))
    rw [rounded, if_neg h]
    generalize roundHalfEven n (2 ^ (n.log2 - 52)) * 2 ^ (n.log2 - 52) = value at hround ⊢
    calc value * 2 ^ 53 = 2 * value * 2 ^ 52 := by ring
      _ ≤ (2 * n + 2 ^ (n.log2 - 52)) * 2 ^ 52 := Nat.mul_le_mul_right _ hround
      _ = n * 2 ^ 53 + 2 ^ (n.log2 - 52) * 2 ^ 52 := by ring
      _ ≤ n * (2 ^ 53 + 1) := by rw [Nat.mul_succ]; exact Nat.add_le_add_left hunit _

/-- A whole number from `2 ^ 53` on is rounded to a full mantissa and a positive exponent. -/
lemma exists_ofNat_eq {n : Nat} (hlow : 2 ^ 53 ≤ n) (hhigh : n < 2 ^ 200) :
    ∃ mantissa shift : Nat, 2 ^ 52 ≤ mantissa ∧ mantissa < 2 ^ 53 ∧ 1 ≤ shift ∧
      ofNat n = .finite false mantissa shift ∧ rounded n = mantissa * 2 ^ shift := by
  have hn : n ≠ 0 := by omega
  obtain ⟨s, hone, hs, hexponent, hscale, hmin⟩ := exists_shift hlow
  have hlog := (Nat.log2_lt hn).mpr hhigh
  have hrounded : rounded n = roundHalfEven n (2 ^ s) * 2 ^ s := by
    rw [rounded, if_neg (Nat.not_lt.mpr hlow), hs, Nat.add_sub_cancel_left]
  have hmax : roundHalfEven n (2 ^ s) ≤ 2 ^ 53 := by
    refine Nat.le_trans (roundHalfEven_le _ _) ?_
    rw [Nat.succ_le_iff, Nat.div_lt_iff_lt_mul (Nat.two_pow_pos _), ← Nat.pow_add, Nat.add_comm]
    have hself := Nat.lt_log2_self (n := n)
    rwa [hs, Nat.add_right_comm, Nat.add_comm] at hself
  by_cases hcarry : roundHalfEven n (2 ^ s) = 2 ^ 53
  · refine ⟨2 ^ 52, s + 1, Nat.le_refl _, by decide, by omega, ?_, ?_⟩
    · have hround : roundHalfEven n (2 ^ s) = Nat.pow 2 53 := hcarry
      have hrange : ¬ maxExponent < (s : Int) + 1 := by
        rw [maxExponent]
        omega
      rw [ofNat, ofRatio, if_neg hn, hexponent]
      simp only [hscale, hround, if_true, if_neg hrange]
      rfl
    · rw [hrounded, hcarry]
      ring
  · have hround : roundHalfEven n (2 ^ s) ≠ Nat.pow 2 53 := hcarry
    refine ⟨roundHalfEven n (2 ^ s), s, hmin, by omega, hone, ?_, hrounded⟩
    have hrange : ¬ maxExponent < (s : Int) := by
      rw [maxExponent]
      omega
    exact ofRatio_eq hn hexponent hscale hround hrange

/-- The number nearest to a whole number is the whole number that it is rounded to. -/
lemma exists_isWhole_ofNat {n : Nat} (h : n < 2 ^ 200) :
    ∃ mantissa exponent, ofNat n = .finite false mantissa exponent ∧ IsWhole mantissa exponent (rounded n) := by
  by_cases hlow : n < 2 ^ 53
  · rw [rounded_of_le hlow.le]
    by_cases hn : n = 0
    · subst hn
      exact ⟨0, minExponent, rfl, 1074, by decide, by rw [Nat.zero_mul, Nat.zero_mul]⟩
    · exact ⟨_, _, ofNat_eq hn hlow, 52 - n.log2, by omega, by simp⟩
  · obtain ⟨mantissa, shift, -, -, -, heq, hrounded⟩ := exists_ofNat_eq (Nat.not_lt.mp hlow) h
    rw [hrounded]
    exact ⟨mantissa, shift, heq, isWhole_natCast mantissa shift⟩

/-- The sum of whole numbers that have been rounded is rounded once more. -/
theorem add_ofNat {n n' : Nat} (h : n < 2 ^ 200) (h' : n' < 2 ^ 200) :
    add (ofNat n) (ofNat n') = ofNat (rounded n + rounded n') := by
  obtain ⟨m, e, heq, hwhole⟩ := exists_isWhole_ofNat h
  obtain ⟨m', e', heq', hwhole'⟩ := exists_isWhole_ofNat h'
  rw [heq, heq', add_eq_ofNat hwhole hwhole']

/-- The product of whole numbers that have been rounded is rounded once more. -/
theorem mul_ofNat {n n' : Nat} (h : n < 2 ^ 200) (h' : n' < 2 ^ 200) :
    mul (ofNat n) (ofNat n') = ofNat (rounded n * rounded n') := by
  obtain ⟨m, e, heq, hwhole⟩ := exists_isWhole_ofNat h
  obtain ⟨m', e', heq', hwhole'⟩ := exists_isWhole_ofNat h'
  rw [heq, heq', mul_eq_ofNat hwhole hwhole']

/-! ### Chains of roundings -/

/-- A number that `steps` roundings have made of another one exceeds it by so many factors at most. -/
def Near (steps n exact : Nat) : Prop :=
  n * (2 ^ 53) ^ steps ≤ exact * (2 ^ 53 + 1) ^ steps

lemma near_self (steps n : Nat) : Near steps n n :=
  Nat.mul_le_mul_left n (Nat.pow_le_pow_left (Nat.le_succ _) steps)

variable {steps exact exact' : Nat}

lemma Near.rounded (h : Near steps n exact) : Near (steps + 1) (rounded n) exact := by
  have hround := rounded_le n
  unfold Near at h ⊢
  calc Number.rounded n * (2 ^ 53) ^ (steps + 1)
      = Number.rounded n * 2 ^ 53 * (2 ^ 53) ^ steps := by
        rw [pow_succ (2 ^ 53) steps, Nat.mul_comm _ (2 ^ 53), Nat.mul_assoc]
    _ ≤ n * (2 ^ 53 + 1) * (2 ^ 53) ^ steps := Nat.mul_le_mul_right _ hround
    _ = n * (2 ^ 53) ^ steps * (2 ^ 53 + 1) := Nat.mul_right_comm _ _ _
    _ ≤ exact * (2 ^ 53 + 1) ^ steps * (2 ^ 53 + 1) := Nat.mul_le_mul_right _ h
    _ = exact * (2 ^ 53 + 1) ^ (steps + 1) := by rw [pow_succ (2 ^ 53 + 1) steps, Nat.mul_assoc]

lemma Near.step (h : Near steps n exact) : Near (steps + 1) n exact := by
  unfold Near at h ⊢
  rw [pow_succ (2 ^ 53) steps, pow_succ (2 ^ 53 + 1) steps, ← Nat.mul_assoc, ← Nat.mul_assoc]
  exact Nat.mul_le_mul h (Nat.le_succ _)

lemma Near.mono {steps' : Nat} (h : Near steps n exact) (hle : steps ≤ steps') : Near steps' n exact := by
  induction hle with
  | refl => exact h
  | step _ ih => exact ih.step

lemma Near.add (h : Near steps n exact) (h' : Near steps n' exact') : Near steps (n + n') (exact + exact') := by
  unfold Near at h h' ⊢
  rw [Nat.add_mul, Nat.add_mul]
  exact Nat.add_le_add h h'

lemma Near.mul_right (h : Near steps n exact) (unit : Nat) : Near steps (n * unit) (exact * unit) := by
  unfold Near at h ⊢
  rw [Nat.mul_right_comm, Nat.mul_right_comm exact]
  exact Nat.mul_le_mul_right unit h

/-- Few roundings do not double a number as often. -/
lemma Near.lt_two_pow (h : Near steps n exact) {bound : Nat} (hexact : exact < 2 ^ bound) :
    n < 2 ^ (bound + steps) := by
  have hdouble : (2 ^ 53 + 1) ^ steps ≤ (2 ^ 53) ^ steps * 2 ^ steps := by
    rw [← Nat.mul_pow]
    exact Nat.pow_le_pow_left (by decide) steps
  have hpos : 0 < (2 ^ 53) ^ steps := Nat.pow_pos (Nat.two_pow_pos 53)
  unfold Near at h
  refine Nat.lt_of_mul_lt_mul_right (a := (2 ^ 53) ^ steps) ?_
  calc n * (2 ^ 53) ^ steps
      ≤ exact * (2 ^ 53 + 1) ^ steps := h
    _ ≤ exact * ((2 ^ 53) ^ steps * 2 ^ steps) := Nat.mul_le_mul_left _ hdouble
    _ < 2 ^ bound * ((2 ^ 53) ^ steps * 2 ^ steps) :=
        Nat.mul_lt_mul_of_pos_right hexact (Nat.mul_pos hpos (Nat.two_pow_pos steps))
    _ = 2 ^ (bound + steps) * (2 ^ 53) ^ steps := by rw [Nat.pow_add, Nat.mul_assoc, Nat.mul_comm (2 ^ steps)]

/-- A hundred roundings do not lead from below `2 ^ 63` beyond `2 ^ 200`. -/
lemma Near.lt_of_hundred (h : Near steps n exact) (hsteps : steps ≤ 100) (hexact : exact < 2 ^ 63) : n < 2 ^ 200 :=
  Nat.lt_of_lt_of_le (h.lt_two_pow hexact) (Nat.pow_le_pow_right (by decide) (by omega))

/-- Seven roundings lead from `2 ^ 13` below `2 ^ 63` to a number below it. -/
lemma Near.lt_of_seven (h : Near 7 n exact) (hexact : exact ≤ 2 ^ 63 - 2 ^ 13) : n < 2 ^ 63 := by
  have hgap : (2 ^ 63 - 2 ^ 13) * (2 ^ 53 + 1) ^ 7 < 2 ^ 63 * (2 ^ 53) ^ 7 := by decide
  unfold Near at h
  refine Nat.lt_of_mul_lt_mul_right (a := (2 ^ 53) ^ 7) ?_
  calc n * (2 ^ 53) ^ 7 ≤ exact * (2 ^ 53 + 1) ^ 7 := h
    _ ≤ (2 ^ 63 - 2 ^ 13) * (2 ^ 53 + 1) ^ 7 := Nat.mul_le_mul_right _ hexact
    _ < 2 ^ 63 * (2 ^ 53) ^ 7 := hgap

end Number

end EntitySchema
