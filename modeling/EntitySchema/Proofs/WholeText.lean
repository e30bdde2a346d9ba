import Mathlib.Tactic.Ring
import EntitySchema.Proofs.WholeArithmetic

/-!
# The text of whole numbers beyond `2 ^ 53`

A number with a full mantissa and a positive exponent is a whole number, but not the only one in its rounding
interval.  The search for the fewest digits ends at one of the points of the interval: with as many digits as the
number has, or with seventeen of them, because then the grid of decimals is finer than the interval
(`exists_point`).  Below `2 ^ 63` the interval ends below `2 ^ 63`, so the text of the number is that of a whole
number below `2 ^ 63`, without an exponent and without a point (`exists_text_eq`).
-/

namespace EntitySchema

namespace Number

/-! ### The rounding interval of a whole number -/

variable {m s x : Nat}

/-- Four times the lower end of the rounding interval, in units of the last place. -/
def lowerEnd (m : Nat) : Nat :=
  if m = 2 ^ 52 then 4 * m - 1 else 4 * m - 2

/-- A quarter of the last place is a quotient without fraction, or one with a denominator of two or four. -/
lemma magnitude_quarter (y s : Nat) :
    (magnitude y ((s : Int) - 2)).1 * 4 = y * 2 ^ s * (magnitude y ((s : Int) - 2)).2 := by
  unfold magnitude
  split
  · obtain ⟨t, rfl⟩ : ∃ t, s = t + 2 := ⟨s - 2, by omega⟩
    have hexponent : (((t + 2 : Nat) : Int) - 2).toNat = t := by omega
    rw [hexponent, Nat.pow_eq]
    ring
  · have hsmall : s = 0 ∨ s = 1 := by omega
    rcases hsmall with rfl | rfl
    · change y * 4 = y * 1 * 4
      ring
    · change y * 4 = y * 2 * 2
      ring

lemma ratioLt_magnitude (y s x : Nat) : ratioLt (magnitude y ((s : Int) - 2)) (x, 1) = true ↔ y * 2 ^ s < 4 * x := by
  have hquarter := magnitude_quarter y s
  have hpos := magnitude_pos y ((s : Int) - 2)
  rw [ratioLt, decide_eq_true_eq, Nat.mul_one, ← Nat.mul_lt_mul_right (a := 4) (by decide), hquarter,
    Nat.mul_right_comm x, Nat.mul_lt_mul_right hpos, Nat.mul_comm x 4]

lemma magnitude_ratioLt (y s x : Nat) : ratioLt (x, 1) (magnitude y ((s : Int) - 2)) = true ↔ 4 * x < y * 2 ^ s := by
  have hquarter := magnitude_quarter y s
  have hpos := magnitude_pos y ((s : Int) - 2)
  rw [ratioLt, decide_eq_true_eq, Nat.mul_one, ← Nat.mul_lt_mul_right (a := 4) (by decide), hquarter,
    Nat.mul_right_comm x, Nat.mul_lt_mul_right hpos, Nat.mul_comm x 4]

lemma interval_eq (m s : Nat) :
    interval m s =
      ⟨magnitude (lowerEnd m) ((s : Int) - 2), magnitude (4 * m + 2) ((s : Int) - 2), decide (m % 2 = 0)⟩ := by
  have hmin : ((s : Int) != minExponent) = true := by
    rw [bne_iff_ne, minExponent]
    omega
  simp only [interval, hmin, Bool.and_true, lowerEnd, decide_eq_true_eq]
  rfl

/-- What lies strictly between the ends is a point of the interval. -/
lemma contains_interval (hlow : lowerEnd m * 2 ^ s < 4 * x) (hhigh : 4 * x < (4 * m + 2) * 2 ^ s) :
    (interval m s).contains (x, 1) = true := by
  have hafter := (ratioLt_magnitude (lowerEnd m) s x).mpr hlow
  have hbefore := (magnitude_ratioLt (4 * m + 2) s x).mpr hhigh
  have hnotBefore : ratioLt (x, 1) (magnitude (lowerEnd m) ((s : Int) - 2)) = false := by
    rw [← Bool.not_eq_true, magnitude_ratioLt]
    exact Nat.not_lt.mpr hlow.le
  have hnotAfter : ratioLt (magnitude (4 * m + 2) ((s : Int) - 2)) (x, 1) = false := by
    rw [← Bool.not_eq_true, ratioLt_magnitude]
    exact Nat.not_lt.mpr hhigh.le
  rw [interval_eq, Interval.contains]
  dsimp only
  rw [hafter, hbefore, hnotBefore, hnotAfter]
  split <;> rfl

/-- The points of the interval do not lie outside of its ends. -/
lemma bounds_of_contains (h : (interval m s).contains (x, 1) = true) :
    lowerEnd m * 2 ^ s ≤ 4 * x ∧ 4 * x ≤ (4 * m + 2) * 2 ^ s := by
  rw [interval_eq, Interval.contains] at h
  split at h
  · rw [Bool.and_eq_true, Bool.not_eq_true', Bool.not_eq_true', ← Bool.not_eq_true, ← Bool.not_eq_true,
      magnitude_ratioLt, ratioLt_magnitude, Nat.not_lt, Nat.not_lt] at h
    exact h
  · rw [Bool.and_eq_true, ratioLt_magnitude, magnitude_ratioLt] at h
    exact ⟨h.1.le, h.2.le⟩

/-! ### The search for a point -/

/-- The digits in front of the last `p` ones, and the next number with as many digits, are tried. -/
lemma pointWith_natCast {i : Interval} {n p : Nat} {k : Int} {digits : Nat} (hp : k - digits = p) :
    pointWith i (n, 1) k digits =
      match i.contains (n / 10 ^ p * 10 ^ p, 1), i.contains ((n / 10 ^ p + 1) * 10 ^ p, 1) with
      | true, true =>
        if 2 * (n % 10 ^ p) < 10 ^ p then some (n / 10 ^ p)
        else if 10 ^ p < 2 * (n % 10 ^ p) then some (n / 10 ^ p + 1)
        else some (n / 10 ^ p + n / 10 ^ p % 2)
      | true, false => some (n / 10 ^ p)
      | false, true => some (n / 10 ^ p + 1)
      | false, false => none := by
  unfold pointWith
  cases hlow : i.contains (n / 10 ^ p * 10 ^ p, 1) <;> cases hhigh : i.contains ((n / 10 ^ p + 1) * 10 ^ p, 1) <;>
    simp only [hp, if_pos (Int.natCast_nonneg p), Int.toNat_natCast, Nat.pow_eq, Nat.one_mul, decimalRatio_natCast,
      hlow, hhigh]

/-- The point with `digits` digits that is found is one of the interval. -/
lemma contains_of_pointWith {i : Interval} {n p d : Nat} {k : Int} {digits : Nat} (hp : k - digits = p)
    (h : pointWith i (n, 1) k digits = some d) : i.contains (d * 10 ^ p, 1) = true := by
  rw [pointWith_natCast hp] at h
  generalize hlower : i.contains (n / 10 ^ p * 10 ^ p, 1) = lower at h
  generalize hupper : i.contains ((n / 10 ^ p + 1) * 10 ^ p, 1) = upper at h
  cases lower <;> cases upper
  · cases h
  · obtain rfl := Option.some.inj h
    exact hupper
  · obtain rfl := Option.some.inj h
    exact hlower
  · have hneighbour : d = n / 10 ^ p ∨ d = n / 10 ^ p + 1 := by
      dsimp only at h
      split at h
      · exact .inl (Option.some.inj h).symm
      split at h <;> have heq := Option.some.inj h <;> omega
    rcases hneighbour with rfl | rfl
    · exact hlower
    · exact hupper

/-- A point is found if one of the two neighbours on the grid is one. -/
lemma isSome_pointWith {i : Interval} {n p : Nat} {k : Int} {digits : Nat} (hp : k - digits = p)
    (h : i.contains (n / 10 ^ p * 10 ^ p, 1) = true ∨ i.contains ((n / 10 ^ p + 1) * 10 ^ p, 1) = true) :
    (pointWith i (n, 1) k digits).isSome := by
  rw [pointWith_natCast hp]
  generalize i.contains (n / 10 ^ p * 10 ^ p, 1) = lower at h ⊢
  generalize i.contains ((n / 10 ^ p + 1) * 10 ^ p, 1) = upper at h ⊢
  cases lower <;> cases upper
  · rcases h with h | h <;> cases h
  · rfl
  · rfl
  · dsimp only
    split
    · rfl
    split <;> rfl

lemma lowerEnd_mul_of_eq (hm : m = 2 ^ 52) (unit : Nat) : lowerEnd m * unit = 4 * (m * unit) - unit := by
  rw [lowerEnd, if_pos hm, Nat.sub_mul, Nat.mul_assoc, Nat.one_mul]

lemma lowerEnd_mul_of_ne (hm : m ≠ 2 ^ 52) (unit : Nat) : lowerEnd m * unit = 4 * (m * unit) - 2 * unit := by
  rw [lowerEnd, if_neg hm, Nat.sub_mul, Nat.mul_assoc]

/-- A number with a full mantissa is a point of its own interval. -/
lemma contains_self (hm : 2 ^ 52 ≤ m) (s : Nat) : (interval m s).contains (m * 2 ^ s, 1) = true := by
  have hunit := Nat.two_pow_pos s
  have hwide : 2 ^ s ≤ m * 2 ^ s := Nat.le_mul_of_pos_left _ (by omega)
  refine contains_interval ?_ ?_
  · rcases eq_or_ne m (2 ^ 52) with h | h
    · rw [lowerEnd_mul_of_eq h]
      omega
    · rw [lowerEnd_mul_of_ne h]
      omega
  · rw [Nat.add_mul, Nat.mul_assoc]
    omega

/-- A grid of sixteen more digits is finer than the interval, so that one of the neighbours on it is a point. -/
lemma contains_neighbour {unit n step : Nat} (hm' : m < 2 ^ 53) (hunit : unit = 2 ^ s)
    (hn : n = m * unit) (hstep : 0 < step) (hfine : step * 10 ^ 16 ≤ n) :
    (interval m s).contains (n / step * step, 1) = true ∨
      (interval m s).contains ((n / step + 1) * step, 1) = true := by
  have hfloor : n / step * step ≤ n := Nat.div_mul_le_self n step
  have hceil : (n / step + 1) * step = n / step * step + step := Nat.succ_mul _ _
  have hbetween : n < n / step * step + step := by
    rw [← hceil, Nat.mul_comm]
    exact Nat.lt_mul_div_succ n hstep
  have hhigh : (4 * m + 2) * unit = 4 * n + 2 * unit := by rw [Nat.add_mul, Nat.mul_assoc, ← hn]
  have hpos : 0 < unit := hunit ▸ Nat.two_pow_pos s
  rw [hceil]
  generalize n / step * step = floor at hfloor hbetween ⊢
  rcases eq_or_ne m (2 ^ 52) with hpower | hpower
  · -- Below a power of two the interval is half as wide, but the grid is half as wide, too.
    have hnarrow : 2 * step < unit := by
      rw [hn, hpower] at hfine
      omega
    have hlow := lowerEnd_mul_of_eq hpower unit
    rw [← hn] at hlow
    refine .inr (contains_interval ?_ ?_)
    · rw [← hunit, hlow]
      omega
    · rw [← hunit, hhigh]
      omega
  · have hnarrow : step < unit := by
      have hless : n < 2 ^ 53 * unit := by
        rw [hn]
        exact Nat.mul_lt_mul_of_pos_right hm' hpos
      omega
    have hlow := lowerEnd_mul_of_ne hpower unit
    rw [← hn] at hlow
    by_cases hnearer : 2 * (n - floor) ≤ step
    · refine .inl (contains_interval ?_ ?_)
      · rw [← hunit, hlow]
        omega
      · rw [← hunit, hhigh]
        omega
    · refine .inr (contains_interval ?_ ?_)
      · rw [← hunit, hlow]
        omega
      · rw [← hunit, hhigh]
        omega

/-- One of the neighbours of a number with a full mantissa is a point of its interval, on the grid of its own digits
or of seventeen ones. -/
lemma exists_point (hm : 2 ^ 52 ≤ m) (hm' : m < 2 ^ 53) (s : Nat) :
    ∃ digits, 1 ≤ digits ∧ digits ≤ 17 ∧ digits ≤ (decimal (m * 2 ^ s)).length ∧
      (pointWith (interval m s) (m * 2 ^ s, 1) ((decimal (m * 2 ^ s)).length : Int) digits).isSome := by
  obtain ⟨length, hlength⟩ : ∃ length, length = (decimal (m * 2 ^ s)).length := ⟨_, rfl⟩
  have hpos : 1 ≤ length := hlength ▸ Nat.length_toDigits_pos
  rw [← hlength]
  by_cases hshort : length ≤ 17
  · refine ⟨length, hpos, hshort, Nat.le_refl _, isSome_pointWith (p := 0) (by omega) (.inl ?_)⟩
    rw [Nat.pow_zero, Nat.div_one, Nat.mul_one]
    exact contains_self hm s
  · obtain ⟨p, hp⟩ : ∃ p, length = p + 17 := ⟨length - 17, by omega⟩
    have hfine : 10 ^ p * 10 ^ 16 ≤ m * 2 ^ s := by
      rw [← Nat.pow_add]
      by_contra hless
      have hfewer := (Nat.length_toDigits_le_iff (b := 10) (by decide) (by omega)).mpr (Nat.not_le.mp hless)
      rw [decimal] at hlength
      omega
    refine ⟨17, by decide, Nat.le_refl _, by omega, isSome_pointWith (p := p) (by omega) ?_⟩
    exact contains_neighbour hm' rfl rfl (Nat.pow_pos (by decide)) hfine

lemma lowerEnd_pos (hm : 2 ^ 52 ≤ m) : 0 < lowerEnd m := by
  unfold lowerEnd
  split <;> omega

/-- A number below `2 ^ 63` with a full mantissa has an interval that ends below it. -/
lemma lt_of_le_upperEnd (hm : 2 ^ 52 ≤ m) (hm' : m < 2 ^ 53) (h : m * 2 ^ s < 2 ^ 63)
    (hx : 4 * x ≤ (4 * m + 2) * 2 ^ s) : x < 2 ^ 63 := by
  have hunit : 2 ^ s < 2 ^ 11 := by
    have hleast := Nat.mul_le_mul_right (2 ^ s) hm
    omega
  have hshift : s < 11 := (Nat.pow_lt_pow_iff_right (by decide)).mp hunit
  have hunit' : 2 ^ s ≤ 2 ^ 10 := Nat.pow_le_pow_right (by decide) (by omega)
  have hnext : (m + 1) * 2 ^ s ≤ 2 ^ 53 * 2 ^ 10 := Nat.mul_le_mul hm' hunit'
  have hpos := Nat.two_pow_pos s
  rw [Nat.add_mul, Nat.mul_assoc] at hx
  rw [Nat.add_mul] at hnext
  omega

/-- The text of a number below `2 ^ 63` with a full mantissa is that of a whole number below `2 ^ 63`. -/
theorem exists_text_eq (hm : 2 ^ 52 ≤ m) (hm' : m < 2 ^ 53) (h : m * 2 ^ s < 2 ^ 63) :
    ∃ n, n < 2 ^ 63 ∧ text (.finite false m s) = String.ofList (Nat.toDigits 10 n) := by
  have hmagnitude : magnitude m (s : Int) = (m * 2 ^ s, 1) := by
    rw [magnitude, if_pos (Int.natCast_nonneg s), Int.toNat_natCast, Nat.pow_eq]
  have hvalue : decimalExponent (magnitude m (s : Int)).1 (magnitude m (s : Int)).2 =
      ((decimal (m * 2 ^ s)).length : Int) := by
    have hpos : 1 ≤ m * 2 ^ s := Nat.mul_pos (by omega) (Nat.two_pow_pos s)
    rw [hmagnitude, decimalExponent, if_pos hpos, Nat.div_one]
  obtain ⟨digits, hone, hseventeen, hlength, hpoint⟩ := exists_point hm hm' s
  obtain ⟨d, p, hsearch, hp, hcontains⟩ :=
    exists_searchDigits (P := fun d p => (interval m s).contains (d * 10 ^ p, 1) = true)
      (fun _ _ hle hd => contains_of_pointWith (by omega) hd) 17 1 hone (by omega) hlength hpoint
  obtain ⟨hlow, hhigh⟩ := bounds_of_contains hcontains
  have hsmall : d * 10 ^ p < 2 ^ 63 := lt_of_le_upperEnd hm hm' h hhigh
  have hd : d ≠ 0 := by
    rintro rfl
    have hpositive : 0 < lowerEnd m * 2 ^ s := Nat.mul_pos (lowerEnd_pos hm) (Nat.two_pow_pos s)
    omega
  have hdigits : (decimal (d * 10 ^ p)).length ≤ 21 := by
    rw [decimal, Nat.length_toDigits_le_iff (by decide) (by decide)]
    exact Nat.lt_trans hsmall (by decide)
  rw [← hmagnitude] at hsearch
  have hlayOut := layOut_shortest hvalue hsearch hp hd hdigits
  have hmantissa : m ≠ 0 := by omega
  refine ⟨d * 10 ^ p, hsmall, ?_⟩
  rw [text]
  simp only [if_neg hmantissa, hlayOut]
  rfl

end Number

end EntitySchema
