import Mathlib.Algebra.Group.Nat.Defs
import Mathlib.Data.List.TakeWhile
import Mathlib.Tactic.Common
import EntitySchema.Calendar
import EntitySchema.Proofs.Numerals

/-!
# Instants are read back

An instant is written as the fields of a moment, and the text has one of the forms that are read
(`moment?_momentText`).  The days of a date are those that the date was computed from
(`daysFromCivil_civilFromDays`), so the moment of an instant has its milliseconds (`milliseconds_momentOf`).
Up to the largest distance the year has at most six digits, and the text of an instant is read as that
instant (`read?_text`).
-/

namespace EntitySchema

namespace Calendar

/-! ### Days and dates -/

/-- The year of an era of 400 years, from March on, in which a day of the era lies. -/
def yearOfEra (day : Int) : Int :=
  (day - day / 1460 + day / 36524 - day / 146096) / 365

/-- The days of an era in front of one of its years. -/
def daysBeforeYear (year : Int) : Int :=
  365 * year + year / 4 - year / 100

lemma yearOfEra_bounds {day : Int} (hlow : 0 ≤ day) (hhigh : day ≤ 146096) :
    0 ≤ yearOfEra day ∧ yearOfEra day ≤ 399 := by
  unfold yearOfEra
  omega

/-- A day of an era lies in the year that is computed for it. -/
lemma dayOfYear_bounds {day : Int} (hlow : 0 ≤ day) (hhigh : day ≤ 146096) :
    0 ≤ day - daysBeforeYear (yearOfEra day) ∧ day - daysBeforeYear (yearOfEra day) ≤ 365 := by
  rcases eq_or_ne day 146096 with rfl | hlast
  · decide
  have hday : day < 146096 := by omega
  have hyear : yearOfEra day = (day - day / 1460 + day / 36524 - day / 146096) / 365 := rfl
  generalize yearOfEra day = year at hyear ⊢
  -- The century of the day, and the period of four years within it, as if each had a leap day.
  obtain ⟨century, hcentury⟩ : ∃ c, c = day / 36524 := ⟨_, rfl⟩
  obtain ⟨period, hperiod⟩ : ∃ q, q = day / 1460 - 25 * century := ⟨_, rfl⟩
  have hera : day / 146096 = 0 := by omega
  have hcenturies : century = 0 ∨ century = 1 ∨ century = 2 ∨ century = 3 := by omega
  have hwithin : 100 * century + 4 * period - 1 ≤ year ∧ year ≤ 100 * century + 4 * period + 3 := by omega
  have hleaps : year / 100 = century := by omega
  obtain ⟨rest, rfl⟩ : ∃ y, year = 100 * century + y := ⟨year - 100 * century, by omega⟩
  have hquarter : (100 * century + rest) / 4 = 25 * century + rest / 4 := by omega
  have hperiods : rest / 4 = period ∨ rest / 4 = period - 1 := by omega
  unfold daysBeforeYear
  rw [hleaps, hquarter]
  rcases hperiods with h | h <;> rw [h] <;> omega

/-- Where a day lies: its era, the year of the era, the month of the year from March on, and the day of the
month. -/
structure Place (days era year fromMarch day : Int) : Prop where
  year_nonneg : 0 ≤ year
  year_le : year ≤ 399
  fromMarch_nonneg : 0 ≤ fromMarch
  fromMarch_le : fromMarch ≤ 11
  one_le_day : 1 ≤ day
  day_le : day ≤ 31
  days_eq : days + 719468 = era * 146097 + daysBeforeYear year + (153 * fromMarch + 2) / 5 + day - 1

/-- The date of a day is made of the place where it lies. -/
lemma exists_place (days : Int) :
    ∃ era year fromMarch day, Place days era year fromMarch day ∧
      civilFromDays days =
        (if fromMarch < 10 then year + era * 400 else year + era * 400 + 1,
          (if fromMarch < 10 then fromMarch + 3 else fromMarch - 9).toNat, day.toNat) := by
  obtain ⟨era, hera⟩ : ∃ era, era = (days + 719468) / 146097 := ⟨_, rfl⟩
  obtain ⟨dayOfEra, hdayOfEra⟩ : ∃ d, d = days + 719468 - era * 146097 := ⟨_, rfl⟩
  have hlow : 0 ≤ dayOfEra := by omega
  have hhigh : dayOfEra ≤ 146096 := by omega
  obtain ⟨hyear, hyear'⟩ := yearOfEra_bounds hlow hhigh
  obtain ⟨hday, hday'⟩ := dayOfYear_bounds hlow hhigh
  obtain ⟨dayOfYear, hdayOfYear⟩ : ∃ d, d = dayOfEra - daysBeforeYear (yearOfEra dayOfEra) := ⟨_, rfl⟩
  rw [← hdayOfYear] at hday hday'
  obtain ⟨fromMarch, hfromMarch⟩ : ∃ m, m = (5 * dayOfYear + 2) / 153 := ⟨_, rfl⟩
  refine ⟨era, yearOfEra dayOfEra, fromMarch, dayOfYear - (153 * fromMarch + 2) / 5 + 1, ?_, ?_⟩
  · exact {
      year_nonneg := hyear
      year_le := hyear'
      fromMarch_nonneg := by omega
      fromMarch_le := by omega
      one_le_day := by omega
      day_le := by omega
      days_eq := by omega }
  · have hmonth : (if fromMarch < 10 then fromMarch + 3 else fromMarch - 9) ≤ 2 ↔ ¬ fromMarch < 10 := by
      split <;> omega
    have hyearOf : (dayOfEra - dayOfEra / 1460 + dayOfEra / 36524 - dayOfEra / 146096) / 365 =
        yearOfEra dayOfEra := rfl
    have hbefore : 365 * yearOfEra dayOfEra + yearOfEra dayOfEra / 4 - yearOfEra dayOfEra / 100 =
        daysBeforeYear (yearOfEra dayOfEra) := rfl
    simp (disch := decide) only [civilFromDays, Int.fdiv_eq_ediv_of_nonneg]
    rw [← hera, ← hdayOfEra, hyearOf, hbefore, ← hdayOfYear, ← hfromMarch]
    simp only [hmonth, ite_not]

/-- The days of a date are those that the date was computed from. -/
theorem daysFromCivil_civilFromDays (days : Int) :
    daysFromCivil (civilFromDays days).1 (civilFromDays days).2.1 (civilFromDays days).2.2 = days := by
  obtain ⟨era, year, fromMarch, day, hplace, hdate⟩ := exists_place days
  obtain ⟨hyear, hyear', hmonth, hmonth', hday, hday', hdays⟩ := hplace
  rw [hdate]
  simp (disch := decide) only [daysFromCivil, Int.fdiv_eq_ediv_of_nonneg]
  unfold daysBeforeYear at hdays
  -- A year that starts in March ends with January and February of the next one.
  by_cases hmarch : fromMarch < 10
  · have hfar : ¬ (fromMarch + 3).toNat ≤ 2 := by omega
    simp only [hmarch, if_true, hfar, if_false]
    have hera : (year + era * 400) / 400 = era := by omega
    have hback : ((fromMarch + 3).toNat : Int) - 3 = fromMarch := by omega
    rw [hera, hback]
    omega
  · have hnear : (fromMarch - 9).toNat ≤ 2 := by omega
    simp only [hmarch, if_false, hnear, if_true]
    have hera : (year + era * 400 + 1 - 1) / 400 = era := by omega
    have hback : ((fromMarch - 9).toNat : Int) + 9 = fromMarch := by omega
    rw [hera, hback]
    omega

lemma civilFromDays_bounds (days : Int) :
    1 ≤ (civilFromDays days).2.1 ∧ (civilFromDays days).2.1 ≤ 12 ∧
      1 ≤ (civilFromDays days).2.2 ∧ (civilFromDays days).2.2 ≤ 31 := by
  obtain ⟨era, year, fromMarch, day, hplace, hdate⟩ := exists_place days
  obtain ⟨-, -, hmonth, hmonth', hday, hday', -⟩ := hplace
  rw [hdate]
  dsimp only
  split <;> omega

/-- Up to the largest distance from the start of 1970 a year has at most six digits. -/
lemma natAbs_year_lt {days : Int} (hdays : days.natAbs ≤ 100000001) : (civilFromDays days).1.natAbs < 10 ^ 6 := by
  obtain ⟨era, year, fromMarch, day, hplace, hdate⟩ := exists_place days
  obtain ⟨hyear, hyear', hmonth, hmonth', hday, hday', heq⟩ := hplace
  rw [hdate]
  unfold daysBeforeYear at heq
  dsimp only
  split <;> omega

/-! ### Fields of fixed width -/

lemma length_padded {n value : Nat} (hn : 0 < n) (h : value < 10 ^ n) : (padded n value).length = n := by
  have hlength : (Nat.toDigits 10 value).length ≤ n := (Nat.length_toDigits_le_iff (by decide) hn).mpr h
  simp only [padded, List.length_append, List.length_replicate]
  omega

lemma padded_ne_nil {n value : Nat} (hn : 0 < n) : padded n value ≠ [] := by
  rw [← List.length_pos_iff, padded, List.length_append, List.length_replicate]
  omega

lemma isDigit_of_mem_padded {n value : Nat} {c : Char} (hc : c ∈ padded n value) : Number.isDigit c = true := by
  rcases List.mem_append.mp hc with hc | hc
  · exact Number.isDigit_of_mem_replicate hc
  · exact Number.isDigit_of_mem_toDigits hc

lemma digitsValue_padded (n value : Nat) : Number.digitsValue 10 (padded n value) = value :=
  Number.digitsValue_replicate_append _ _

/-- A field of a number of digits. -/
def DigitField (n : Nat) (digits : List Char) : Prop :=
  digits.length = n ∧ ∀ c ∈ digits, Number.isDigit c = true

lemma DigitField.digitsValue_lt {n : Nat} {digits : List Char} (h : DigitField n digits) :
    Number.digitsValue 10 digits < 10 ^ n :=
  h.1 ▸ Number.digitsValue_lt h.2

lemma digitField_padded {n value : Nat} (hn : 0 < n) (h : value < 10 ^ n) : DigitField n (padded n value) :=
  ⟨length_padded hn h, fun _ => isDigit_of_mem_padded⟩

/-- A field is the one that is written for what its digits denote. -/
lemma DigitField.padded_digitsValue {n : Nat} {digits : List Char} (h : DigitField n digits) (hn : 0 < n) :
    padded n (Number.digitsValue 10 digits) = digits := by
  refine Number.eq_of_digitsValue_eq ?_ (fun _ => isDigit_of_mem_padded) h.2 (digitsValue_padded _ _)
  rw [length_padded hn h.digitsValue_lt, h.1]

/-- Three digits are the milliseconds. -/
lemma fractionMilliseconds_padded {value : Nat} (h : value < 10 ^ 3) :
    fractionMilliseconds (padded 3 value) = value := by
  have hlength := length_padded (by decide) h
  rw [fractionMilliseconds, if_pos (by omega), List.take_left' hlength, digitsValue_padded]

/-! ### The moment of an instant -/

/-- What holds for the fields of a moment that is written: none of them has more digits than there are
places for it, there is a fraction, and the zone is that of UTC. -/
structure Moment.Writable (m : Moment) : Prop where
  year : m.year.natAbs < 10 ^ 6
  one_le_month : 1 ≤ m.month
  month : m.month ≤ 12
  one_le_day : 1 ≤ m.day
  day : m.day ≤ 31
  hour : m.hour ≤ 23
  minute : m.minute ≤ 59
  second : m.second ≤ 59
  fraction : ∀ c ∈ m.fraction, Number.isDigit c = true
  fraction_ne_nil : m.fraction ≠ []
  zone : m.zone = 0

/-- The time of the day is within its ranges, and the moment has the milliseconds of the instant. -/
theorem milliseconds_momentOf (instant : Int) : (momentOf instant).milliseconds = instant := by
  obtain ⟨days, hdays⟩ : ∃ days, days = instant.fdiv millisecondsOfDay := ⟨_, rfl⟩
  have hdays' : days = instant / 86400000 := by
    rw [hdays, millisecondsOfDay, Int.fdiv_eq_ediv_of_nonneg _ (by decide)]
  have hcivil := daysFromCivil_civilFromDays days
  simp only [Moment.milliseconds, momentOf, ← hdays, hcivil]
  rw [fractionMilliseconds_padded (show _ % 1000 < 10 ^ 3 from Nat.mod_lt _ (by decide))]
  unfold millisecondsOfDay
  omega

lemma writable_momentOf {instant : Int} (h : instant.natAbs ≤ maxInstant.natAbs) :
    (momentOf instant).Writable := by
  have hmax : maxInstant.natAbs = 8640000000000000 := rfl
  obtain ⟨days, hdays⟩ : ∃ days, days = instant.fdiv millisecondsOfDay := ⟨_, rfl⟩
  have hdays' : days = instant / 86400000 := by
    rw [hdays, millisecondsOfDay, Int.fdiv_eq_ediv_of_nonneg _ (by decide)]
  have hyear : (civilFromDays days).1.natAbs < 10 ^ 6 := natAbs_year_lt (by omega)
  obtain ⟨hmonth, hmonth', hday, hday'⟩ := civilFromDays_bounds days
  unfold momentOf
  rw [← hdays]
  unfold millisecondsOfDay
  exact {
    year := hyear
    one_le_month := hmonth
    month := hmonth'
    one_le_day := hday
    day := hday'
    hour := by dsimp only; omega
    minute := by dsimp only; omega
    second := by dsimp only; omega
    fraction := fun _ => isDigit_of_mem_padded
    fraction_ne_nil := padded_ne_nil (by decide)
    zone := rfl }

/-! ### Taking fields -/

/-- A field of a fixed number of digits is read as its value. -/
lemma takeDigits_padded {n value : Nat} (hn : 0 < n) (h : value < 10 ^ n) (rest : List Char) :
    takeDigits n (padded n value ++ rest) = some (value, rest) := by
  have hlength := length_padded hn h
  have hdigits : (padded n value).all Number.isDigit = true :=
    List.all_eq_true.mpr fun _ => isDigit_of_mem_padded
  unfold takeDigits
  rw [List.take_left' hlength, List.drop_left' hlength]
  simp [hlength, hdigits, digitsValue_padded]

lemma takeMark_cons (mark : Char) (rest : List Char) : takeMark mark (mark :: rest) = some rest := by
  simp [takeMark]

lemma takeField_padded {n value : Nat} (hn : 0 < n) (h : value < 10 ^ n) (mark : Char) (rest : List Char) :
    takeField mark n (mark :: (padded n value ++ rest)) = some (some value, rest) := by
  rw [takeField, takeMark_cons]
  dsimp only
  rw [takeDigits_padded hn h]
  rfl

/-- A year that starts with a digit has four of them. -/
lemma takeYear_of_isDigit {c : Char} (hc : Number.isDigit c = true) (cs : List Char) :
    takeYear (c :: cs) = (takeDigits 4 (c :: cs)).map fun (n, rest) => ((n : Int), rest) := by
  unfold takeYear
  split
  · rename_i heq
    obtain rfl := (List.cons.inj heq).1
    exact absurd hc (by decide)
  · rename_i heq
    obtain rfl := (List.cons.inj heq).1
    exact absurd hc (by decide)
  · rfl

/-- A year with at most six digits is read as that year. -/
lemma takeYear_yearText {year : Int} (h : year.natAbs < 10 ^ 6) (rest : List Char) :
    takeYear (yearText year ++ rest) = some (year, rest) := by
  unfold yearText
  by_cases hplain : 0 ≤ year ∧ year ≤ 9999
  · have hvalue : year.toNat < 10 ^ 4 := by omega
    have hread := takeDigits_padded (by decide) hvalue rest
    obtain ⟨c, cs, hcs⟩ : ∃ c cs, padded 4 year.toNat = c :: cs :=
      List.exists_cons_of_length_pos (by rw [length_padded (by decide) hvalue]; decide)
    have hc : Number.isDigit c = true := isDigit_of_mem_padded (hcs ▸ List.mem_cons_self)
    have hyear : (year.toNat : Int) = year := Int.toNat_of_nonneg hplain.1
    rw [hcs, List.cons_append] at hread
    simp only [hplain.1, hplain.2, decide_true, Bool.and_self, if_true]
    rw [hcs, List.cons_append, takeYear_of_isDigit hc, hread, Option.map_some]
    dsimp only
    rw [hyear]
  · have hcond : ¬ (decide (0 ≤ year) && decide (year ≤ 9999)) = true := by simpa using hplain
    rw [if_neg hcond, List.cons_append]
    have hread := takeDigits_padded (by decide) h rest
    by_cases hnegative : year < 0
    · have hzero : ¬ year.natAbs = 0 := by omega
      have hyear : -(year.natAbs : Int) = year := by omega
      rw [if_pos hnegative]
      simp only [takeYear, hread, hzero, if_false, hyear]
    · have hyear : (year.natAbs : Int) = year := by omega
      rw [if_neg hnegative]
      simp only [takeYear, hread, Option.map_some, hyear]

/-! ### Moments -/

/-- The text of a moment in UTC, with milliseconds. -/
def momentText (m : Moment) : List Char :=
  yearText m.year ++ '-' :: padded 2 m.month ++ '-' :: padded 2 m.day ++
    'T' :: padded 2 m.hour ++ ':' :: padded 2 m.minute ++ ':' :: padded 2 m.second ++
    '.' :: m.fraction ++ ['Z']

lemma toList_text (instant : Int) : (text instant).toList = momentText (momentOf instant) := by
  rw [text, String.toList_ofList]
  rfl

/-- What holds for a moment that has a text with two digits for each field behind the year: every field fits
into its places, and the zone is that of UTC. -/
structure Moment.Fits (m : Moment) : Prop where
  year : m.year.natAbs < 10 ^ 6
  month : m.month < 10 ^ 2
  day : m.day < 10 ^ 2
  hour : m.hour < 10 ^ 2
  minute : m.minute < 10 ^ 2
  second : m.second < 10 ^ 2
  zone : m.zone = 0

lemma Moment.Writable.fits {m : Moment} (h : m.Writable) : m.Fits where
  year := h.year
  month := lt_of_le_of_lt h.month (by decide)
  day := lt_of_le_of_lt h.day (by decide)
  hour := lt_of_le_of_lt h.hour (by decide)
  minute := lt_of_le_of_lt h.minute (by decide)
  second := lt_of_le_of_lt h.second (by decide)
  zone := h.zone

/-- The text of a moment up to its seconds, with what stands behind them. -/
def secondsText (m : Moment) (rest : List Char) : List Char :=
  yearText m.year ++ '-' :: (padded 2 m.month ++ '-' :: (padded 2 m.day ++
    'T' :: (padded 2 m.hour ++ ':' :: (padded 2 m.minute ++ ':' :: (padded 2 m.second ++ rest)))))

lemma takeDate_dateText {m : Moment} (h : m.Fits) (rest : List Char) :
    takeDate (yearText m.year ++ '-' :: (padded 2 m.month ++ '-' :: (padded 2 m.day ++ rest))) =
      some (⟨m.year, m.month, m.day, 0, 0, 0, [], 0⟩, rest) := by
  have htakeMonth := takeField_padded (by decide) h.month '-' ('-' :: (padded 2 m.day ++ rest))
  have htakeDay := takeField_padded (by decide) h.day '-' rest
  unfold takeDate
  rw [takeYear_yearText h.year]
  simp [htakeMonth, htakeDay]

/-- Digits behind the point are read up to the zone. -/
lemma takeFraction_cons {digits : List Char} (hdigits : ∀ c ∈ digits, Number.isDigit c = true)
    (hnonempty : digits ≠ []) : takeFraction ('.' :: (digits ++ ['Z'])) = some (digits, ['Z']) := by
  have htake : (digits ++ ['Z']).takeWhile Number.isDigit = digits := by
    rw [List.takeWhile_append_of_pos hdigits]
    exact List.append_nil _
  have hdrop : (digits ++ ['Z']).dropWhile Number.isDigit = ['Z'] :=
    List.dropWhile_append_of_pos hdigits
  have hisEmpty : digits.isEmpty = false := List.isEmpty_eq_false_iff.mpr hnonempty
  simp only [takeFraction, htake, hdrop, hisEmpty]
  rfl

lemma takeTime_timeText {m : Moment} (h : m.Fits) {fraction : List Char}
    (hfraction : takeFraction fraction = some (m.fraction, ['Z'])) :
    takeTime ⟨m.year, m.month, m.day, 0, 0, 0, [], 0⟩
        (padded 2 m.hour ++ ':' :: (padded 2 m.minute ++ ':' :: (padded 2 m.second ++ fraction))) =
      some (m, []) := by
  have htakeHour := takeDigits_padded (by decide) h.hour
  have htakeMinute := takeDigits_padded (by decide) h.minute
  have htakeSecond := takeField_padded (by decide) h.second ':'
  have hzone : takeZone ['Z'] = some (0, []) := by rfl
  have hm : (⟨m.year, m.month, m.day, m.hour, m.minute, m.second, m.fraction, 0⟩ : Moment) = m := by
    rw [← h.zone]
  unfold takeTime
  simp [takeMark_cons, htakeHour, htakeMinute, htakeSecond, hfraction, hzone, hm]

/-- A moment whose fields fit into their places is read from its text, with or without a fraction. -/
theorem moment?_secondsText {m : Moment} (h : m.Fits) {fraction : List Char}
    (hfraction : takeFraction fraction = some (m.fraction, ['Z'])) :
    moment? (secondsText m fraction) = some m := by
  rw [secondsText, moment?, takeDate_dateText h]
  simp [takeMark_cons, takeTime_timeText h hfraction]

/-- A moment that can be written is read from its text. -/
theorem moment?_momentText {m : Moment} (h : m.Writable) : moment? (momentText m) = some m := by
  have htext : momentText m = secondsText m ('.' :: (m.fraction ++ ['Z'])) := by
    simp [momentText, secondsText]
  rw [htext, moment?_secondsText h.fits (takeFraction_cons h.fraction h.fraction_ne_nil)]

/-- Every instant up to the largest distance from the start of 1970 is read from its text. -/
theorem read?_text {instant : Int} (h : instant.natAbs ≤ maxInstant.natAbs) :
    read? (text instant) = some instant := by
  have hw := writable_momentOf h
  have hrange : (momentOf instant).isInRange = true := by
    simp [Moment.isInRange, hw.one_le_month, hw.month, hw.one_le_day, hw.day, hw.hour, hw.minute, hw.second]
  rw [read?, toList_text, moment?_momentText hw, Option.bind_some, Moment.toInstant?,
    milliseconds_momentOf, hrange]
  simp [h]

end Calendar

end EntitySchema
