import Mathlib.Tactic.Common
import Mathlib.Tactic.IntervalCases
import EntitySchema.Proofs.Calendar

/-!
# Dates that exist

A date of the Gregorian calendar exists if its day is one of its month, which depends on the year for
February only (`daysInMonth`).  The days of such a date lie in the era, the year and the month that they were
computed from, so the date is found again (`civilFromDays_daysFromCivil`).  A day up to the 31st behind the
last one of its month has the days of a date of the next month (`daysFromCivil_nextMonth`), and what is found
for it is that date.  So the moment of an instant is the one that the instant was computed from, up to the
milliseconds, if and only if that one exists (`momentOf_milliseconds_iff`).
-/

namespace EntitySchema

namespace Calendar

/-! ### The days of a month -/

/-- Every fourth year is a leap year, except for those of a century that is not the fourth one. -/
def IsLeapYear (year : Int) : Prop :=
  year % 4 = 0 ∧ (year % 100 ≠ 0 ∨ year % 400 = 0)

instance (year : Int) : Decidable (IsLeapYear year) :=
  inferInstanceAs (Decidable (_ ∧ _))

/-- The number of days of a month. -/
def daysInMonth (year : Int) (month : Nat) : Nat :=
  match month with
  | 2 => if IsLeapYear year then 29 else 28
  | 4 | 6 | 9 | 11 => 30
  | _ => 31

/-- The years of an era begin with March: a year of the era has its leap day if the next one is a leap
year. -/
lemma isLeapYear_iff (era year : Int) :
    IsLeapYear (year + era * 400 + 1) ↔ (year + 1) % 4 = 0 ∧ ((year + 1) % 100 ≠ 0 ∨ (year + 1) % 400 = 0) := by
  unfold IsLeapYear
  omega

/-! ### From the days back to the date -/

/-- A day of a year of an era lies within the era, and in that year; there is a 366th day if the next year is
a leap year. -/
lemma yearOfEra_eq {year dayOfYear : Int} (hyear : 0 ≤ year) (hyear' : year ≤ 399) (hday : 0 ≤ dayOfYear)
    (hday' : dayOfYear ≤ 365)
    (hleap : dayOfYear = 365 → (year + 1) % 4 = 0 ∧ ((year + 1) % 100 ≠ 0 ∨ (year + 1) % 400 = 0)) :
    daysBeforeYear year + dayOfYear ≤ 146096 ∧ yearOfEra (daysBeforeYear year + dayOfYear) = year := by
  -- The century of the year, the period of four years within it, and the year of the period.
  obtain ⟨century, period, rest, hsum, hcentury, hperiod, hrest⟩ :
      ∃ century period rest : Int, year = 100 * century + 4 * period + rest ∧ (0 ≤ century ∧ century ≤ 3) ∧
        (0 ≤ period ∧ period ≤ 24) ∧ (0 ≤ rest ∧ rest ≤ 3) :=
    ⟨year / 100, year % 100 / 4, year % 4, by omega, by omega, by omega, by omega⟩
  have hbefore : daysBeforeYear year = 36524 * century + 1461 * period + 365 * rest := by
    unfold daysBeforeYear
    omega
  have hlast : dayOfYear = 365 → rest = 3 ∧ (period = 24 → century = 3) := by
    intro h
    obtain ⟨hfourth, hcenturies⟩ := hleap h
    omega
  rw [hbefore]
  obtain ⟨day, hsplit⟩ : ∃ day, day = 36524 * century + 1461 * period + 365 * rest + dayOfYear := ⟨_, rfl⟩
  rw [← hsplit]
  rcases eq_or_ne day 146096 with rfl | hend
  · refine ⟨Int.le_refl _, ?_⟩
    have hlastYear : year = 399 := by omega
    rw [hlastYear]
    decide
  have hfewer : 1461 * period + 365 * rest + dayOfYear ≤ 36523 := by omega
  have hcenturies : day / 36524 = century := by omega
  have hera : day / 146096 = 0 := by omega
  -- Counted in periods of 1460 days the leap day of the last year is one too many.
  obtain ⟨carry, hperiods⟩ : ∃ carry, day / 1460 = 25 * century + period + carry :=
    ⟨day / 1460 - (25 * century + period), by omega⟩
  have hcarry : 0 ≤ carry ∧ carry ≤ 1 := by omega
  have hwithin : 0 ≤ dayOfYear - carry ∧ dayOfYear - carry ≤ 364 := by omega
  refine ⟨by omega, ?_⟩
  unfold yearOfEra
  rw [hcenturies, hera, hperiods]
  omega

/-- Counted from March on, the days in front of the months come from the slope 153 / 5, and only February is
shorter than the slope says. -/
lemma daysInMonth_slope (year : Int) {month : Nat} {fromMarch : Int} (hmonth : 1 ≤ month) (hmonth' : month ≤ 12)
    (hfromMarch : fromMarch = if month ≤ 2 then (month : Int) + 9 else month - 3) :
    (month ≠ 2 → (153 * fromMarch + 2) / 5 + daysInMonth year month = (153 * (fromMarch + 1) + 2) / 5) ∧
      (month = 2 → daysInMonth year month = if IsLeapYear year then 29 else 28) := by
  subst hfromMarch
  interval_cases month <;> simp [daysInMonth]

/-- A day whose place is within its month and its year is found at that place. -/
lemma civilFromDays_of_place {days era year fromMarch day : Int} (h : Place days era year fromMarch day)
    (hwithin : (153 * fromMarch + 2) / 5 + day ≤ (153 * (fromMarch + 1) + 2) / 5)
    (hyear : (153 * fromMarch + 2) / 5 + day ≤ 366)
    (hleap : (153 * fromMarch + 2) / 5 + day = 366 →
      (year + 1) % 4 = 0 ∧ ((year + 1) % 100 ≠ 0 ∨ (year + 1) % 400 = 0)) :
    civilFromDays days =
      (if fromMarch < 10 then year + era * 400 else year + era * 400 + 1,
        (if fromMarch < 10 then fromMarch + 3 else fromMarch - 9).toNat, day.toNat) := by
  obtain ⟨hlow, hhigh, hmarch, hmarch', hday, hday', hdays⟩ := h
  obtain ⟨dayOfYear, hdayOfYear⟩ : ∃ d, d = (153 * fromMarch + 2) / 5 + day - 1 := ⟨_, rfl⟩
  have hfirst : 0 ≤ dayOfYear := by omega
  have hlast : dayOfYear ≤ 365 := by omega
  obtain ⟨hera, hfound⟩ := yearOfEra_eq hlow hhigh hfirst hlast fun hleapDay => hleap (by omega)
  have hbefore : 0 ≤ daysBeforeYear year := by
    unfold daysBeforeYear
    omega
  obtain ⟨dayOfEra, hdayOfEra⟩ : ∃ d, d = daysBeforeYear year + dayOfYear := ⟨_, rfl⟩
  rw [← hdayOfEra] at hera hfound
  have heraOf : (days + 719468) / 146097 = era := by omega
  have hwithinEra : days + 719468 - era * 146097 = dayOfEra := by omega
  have hyearOf : (dayOfEra - dayOfEra / 1460 + dayOfEra / 36524 - dayOfEra / 146096) / 365 = year := hfound
  have hrest : dayOfEra - (365 * year + year / 4 - year / 100) = dayOfYear := by
    rw [hdayOfEra]
    unfold daysBeforeYear
    omega
  have hmonthOf : (5 * dayOfYear + 2) / 153 = fromMarch := by omega
  have hdayOf : dayOfYear - (153 * fromMarch + 2) / 5 + 1 = day := by omega
  have hnear : (if fromMarch < 10 then fromMarch + 3 else fromMarch - 9) ≤ 2 ↔ ¬ fromMarch < 10 := by
    split <;> omega
  simp (disch := decide) only [civilFromDays, Int.fdiv_eq_ediv_of_nonneg]
  rw [heraOf, hwithinEra, hyearOf, hrest, hmonthOf, hdayOf]
  simp only [hnear, ite_not]

/-- The days of a date lie at the place that belongs to its year and its month. -/
lemma exists_place_daysFromCivil (year : Int) {month day : Nat} (hmonth : 1 ≤ month) (hmonth' : month ≤ 12)
    (hday : 1 ≤ day) (hday' : day ≤ 31) :
    ∃ era ofEra fromMarch : Int, Place (daysFromCivil year month day) era ofEra fromMarch day ∧
      fromMarch = (if month ≤ 2 then (month : Int) + 9 else month - 3) ∧
      ofEra + era * 400 = if month ≤ 2 then year - 1 else year := by
  obtain ⟨marchYear, hmarchYear⟩ : ∃ y, y = if month ≤ 2 then year - 1 else year := ⟨_, rfl⟩
  obtain ⟨fromMarch, hfromMarch⟩ : ∃ m : Int, m = if month ≤ 2 then (month : Int) + 9 else month - 3 := ⟨_, rfl⟩
  obtain ⟨era, hera⟩ : ∃ era, era = marchYear / 400 := ⟨_, rfl⟩
  have hmarch : 0 ≤ fromMarch ∧ fromMarch ≤ 11 := by
    split at hfromMarch <;> omega
  have hdays : daysFromCivil year month day + 719468 =
      era * 146097 + daysBeforeYear (marchYear - era * 400) + (153 * fromMarch + 2) / 5 + day - 1 := by
    simp (disch := decide) only [daysFromCivil, Int.fdiv_eq_ediv_of_nonneg]
    rw [← hmarchYear, ← hfromMarch, ← hera]
    unfold daysBeforeYear
    omega
  refine ⟨era, marchYear - era * 400, fromMarch, ?_, hfromMarch, by rw [← hmarchYear]; omega⟩
  exact {
    year_nonneg := by omega
    year_le := by omega
    fromMarch_nonneg := hmarch.1
    fromMarch_le := hmarch.2
    one_le_day := by omega
    day_le := by omega
    days_eq := hdays }

lemma daysInMonth_le (year : Int) (month : Nat) : daysInMonth year month ≤ 31 := by
  unfold daysInMonth
  split <;> (try split) <;> decide

/-- A date is found again from its days, if its day is one of its month. -/
theorem civilFromDays_daysFromCivil {year : Int} {month day : Nat} (hmonth : 1 ≤ month) (hmonth' : month ≤ 12)
    (hday : 1 ≤ day) (hday' : day ≤ daysInMonth year month) :
    civilFromDays (daysFromCivil year month day) = (year, month, day) := by
  have hlength := daysInMonth_le year month
  obtain ⟨era, ofEra, fromMarch, hplace, hfromMarch, hmarchYear⟩ :=
    exists_place_daysFromCivil year hmonth hmonth' hday (Nat.le_trans hday' hlength)
  obtain ⟨hslope, hfebruary⟩ := daysInMonth_slope year hmonth hmonth' hfromMarch
  have hwithin : (153 * fromMarch + 2) / 5 + day ≤ (153 * (fromMarch + 1) + 2) / 5 ∧
      (153 * fromMarch + 2) / 5 + (day : Int) ≤ 366 := by
    rcases eq_or_ne month 2 with htwo | htwo
    · have htwenty := hfebruary htwo
      split at htwenty <;> omega
    · have hexact := hslope htwo
      omega
  have hleap : (153 * fromMarch + 2) / 5 + (day : Int) = 366 →
      (ofEra + 1) % 4 = 0 ∧ ((ofEra + 1) % 100 ≠ 0 ∨ (ofEra + 1) % 400 = 0) := by
    intro hlast
    have htwo : month = 2 := by
      split at hfromMarch <;> omega
    have hleapYear : IsLeapYear year := by
      by_contra hcommon
      have htwenty := hfebruary htwo
      rw [if_neg hcommon] at htwenty
      omega
    have hnext : ofEra + era * 400 + 1 = year := by
      rw [htwo, if_pos (Nat.le_refl 2)] at hmarchYear
      omega
    rwa [← isLeapYear_iff era, hnext]
  rw [civilFromDays_of_place hplace hwithin.1 hwithin.2 hleap, Prod.mk.injEq, Prod.mk.injEq]
  by_cases hnear : month ≤ 2
  · rw [if_pos hnear] at hfromMarch hmarchYear
    have hend : ¬ fromMarch < 10 := by omega
    rw [if_neg hend, if_neg hend]
    exact ⟨by omega, by omega, by omega⟩
  · rw [if_neg hnear] at hfromMarch hmarchYear
    have hfirst : fromMarch < 10 := by omega
    rw [if_pos hfirst, if_pos hfirst]
    exact ⟨by omega, by omega, by omega⟩

/-- The days of a date without regard to eras: each leap year adds a day to the 365 of a year. -/
lemma daysFromCivil_eq (year : Int) (month day : Nat) :
    daysFromCivil year month day =
      if month ≤ 2 then
        365 * (year - 1) + (year - 1) / 4 - (year - 1) / 100 + (year - 1) / 400 +
          (153 * ((month : Int) + 9) + 2) / 5 + day - 719469
      else
        365 * year + year / 4 - year / 100 + year / 400 + (153 * ((month : Int) - 3) + 2) / 5 + day - 719469 := by
  simp (disch := decide) only [daysFromCivil, Int.fdiv_eq_ediv_of_nonneg]
  split <;> omega

/-- A day behind the last one of its month has the days of a date of the next month. -/
theorem daysFromCivil_nextMonth {year : Int} {month day : Nat} (hmonth : 1 ≤ month) (hmonth' : month ≤ 12)
    (hlast : daysInMonth year month < day) (hday : day ≤ 31) :
    month + 1 ≤ 12 ∧ 1 ≤ day - daysInMonth year month ∧
      day - daysInMonth year month ≤ daysInMonth year (month + 1) ∧
      daysFromCivil year month day = daysFromCivil year (month + 1) (day - daysInMonth year month) := by
  rw [daysFromCivil_eq, daysFromCivil_eq]
  rcases eq_or_ne month 2 with rfl | htwo
  · have hmarch : daysInMonth year 3 = 31 := rfl
    have hfebruary : daysInMonth year 2 = if IsLeapYear year then 29 else 28 := rfl
    rw [hmarch, if_pos (Nat.le_refl 2), if_neg (by decide)]
    by_cases hleap : IsLeapYear year
    · rw [if_pos hleap] at hfebruary
      unfold IsLeapYear at hleap
      refine ⟨by decide, by omega, by omega, by omega⟩
    · rw [if_neg hleap] at hfebruary
      unfold IsLeapYear at hleap
      refine ⟨by decide, by omega, by omega, by omega⟩
  · interval_cases month <;> simp only [daysInMonth] at hlast ⊢ <;> omega

/-- A date up to the 31st of a month is found again from its days if and only if its day is one of the
month. -/
theorem civilFromDays_daysFromCivil_iff (year : Int) {month day : Nat} (hmonth : 1 ≤ month) (hmonth' : month ≤ 12)
    (hday : 1 ≤ day) (hday' : day ≤ 31) :
    civilFromDays (daysFromCivil year month day) = (year, month, day) ↔ day ≤ daysInMonth year month := by
  refine ⟨fun hback => ?_, civilFromDays_daysFromCivil hmonth hmonth' hday⟩
  by_contra hlast
  rw [Nat.not_le] at hlast
  obtain ⟨hnext, hfirst, hwithin, hdays⟩ := daysFromCivil_nextMonth hmonth hmonth' hlast hday'
  rw [hdays, civilFromDays_daysFromCivil (Nat.succ_pos month) hnext hfirst hwithin] at hback
  exact Nat.succ_ne_self month (congrArg (·.2.1) hback)

/-! ### The moment of an instant -/

/-- The moment exists in UTC: its day is one of its month, and its time is one of a day. -/
structure Moment.Exists (m : Moment) : Prop where
  one_le_month : 1 ≤ m.month
  month_le : m.month ≤ 12
  one_le_day : 1 ≤ m.day
  day_le : m.day ≤ daysInMonth m.year m.month
  hour_le : m.hour ≤ 23
  minute_le : m.minute ≤ 59
  second_le : m.second ≤ 59

/-- The fields are within the ranges that do not look at each other, except that midnight may be the end of a
day, with a fraction of zeros only. -/
structure Moment.InRanges (m : Moment) : Prop where
  one_le_month : 1 ≤ m.month
  month_le : m.month ≤ 12
  one_le_day : 1 ≤ m.day
  day_le : m.day ≤ 31
  time : m.hour ≤ 23 ∧ m.minute ≤ 59 ∧ m.second ≤ 59 ∨
    m.hour = 24 ∧ m.minute = 0 ∧ m.second = 0 ∧ ∀ c ∈ m.fraction, c = '0'

lemma Moment.isInRange_iff (m : Moment) : m.isInRange = true ↔ m.InRanges := by
  simp only [Moment.isInRange, Bool.and_eq_true, Bool.or_eq_true, beq_iff_eq, decide_eq_true_eq, List.all_eq_true]
  constructor
  · rintro ⟨⟨⟨⟨hmonth, hmonth'⟩, hday⟩, hday'⟩, htime⟩
    exact ⟨hmonth, hmonth', hday, hday', by tauto⟩
  · rintro ⟨hmonth, hmonth', hday, hday', htime⟩
    exact ⟨⟨⟨⟨hmonth, hmonth'⟩, hday⟩, hday'⟩, by tauto⟩

lemma Moment.InRanges.exists_iff {m : Moment} (h : m.InRanges) :
    m.Exists ↔ m.day ≤ daysInMonth m.year m.month ∧ m.hour ≠ 24 := by
  constructor
  · intro hexists
    have hhour := hexists.hour_le
    exact ⟨hexists.day_le, by omega⟩
  · rintro ⟨hday, hhour⟩
    have htime := h.time
    exact ⟨h.one_le_month, h.month_le, h.one_le_day, hday, by omega, by omega, by omega⟩

/-- The moment with its fraction cut or filled up to three digits. -/
def Moment.toMilliseconds (m : Moment) : Moment :=
  ⟨m.year, m.month, m.day, m.hour, m.minute, m.second, (m.fraction ++ List.replicate 3 '0').take 3, m.zone⟩

/-- The milliseconds of a fraction are written with its first three digits; missing ones are zeros. -/
lemma padded_fractionMilliseconds {digits : List Char} (hdigits : ∀ c ∈ digits, Number.isDigit c = true)
    (hlength : digits.length ≤ 9) :
    fractionMilliseconds digits < 10 ^ 3 ∧
      padded 3 (fractionMilliseconds digits) = (digits ++ List.replicate 3 '0').take 3 := by
  rcases eq_or_ne digits [] with rfl | hne
  · decide
  have hpos := List.length_pos_of_ne_nil hne
  have hfirst : (digits ++ ['0', '0']).take 3 = (digits ++ List.replicate 3 '0').take 3 := by
    rw [List.take_append, List.take_append]
    obtain ⟨missing, hmissing⟩ : ∃ n, n = 3 - digits.length := ⟨_, rfl⟩
    have hfew : missing ≤ 2 := by omega
    rw [← hmissing]
    interval_cases missing <;> rfl
  have hfield : DigitField 3 ((digits ++ List.replicate 3 '0').take 3) := by
    refine ⟨by simp, fun c hc => ?_⟩
    rcases List.mem_append.mp (List.mem_of_mem_take hc) with hc | hc
    · exact hdigits c hc
    · exact Number.isDigit_of_mem_replicate hc
  rw [fractionMilliseconds, if_pos hlength, hfirst]
  exact ⟨hfield.digitsValue_lt, hfield.padded_digitsValue (by decide)⟩

/-- Zeros are no milliseconds. -/
lemma fractionMilliseconds_zeros {digits : List Char} (hzeros : ∀ c ∈ digits, c = '0') :
    fractionMilliseconds digits = 0 := by
  obtain ⟨n, rfl⟩ : ∃ n, digits = List.replicate n '0' := ⟨_, List.eq_replicate_iff.mpr ⟨rfl, hzeros⟩⟩
  unfold fractionMilliseconds
  split
  · have htwo : ['0', '0'] = List.replicate 2 '0' := rfl
    rw [htwo, List.replicate_append_replicate, List.take_replicate, Number.digitsValue_replicate_zero]
  · simp [Number.digitsValue]

/-- The days of the instant of a moment are those of its date, except at the end of the day. -/
lemma fdiv_milliseconds {m : Moment} (h : m.InRanges) (hfraction : fractionMilliseconds m.fraction < 10 ^ 3)
    (hzone : m.zone = 0) :
    m.milliseconds.fdiv millisecondsOfDay =
      daysFromCivil m.year m.month m.day + if m.hour = 24 then 1 else 0 := by
  rw [Moment.milliseconds, millisecondsOfDay, Int.fdiv_eq_ediv_of_nonneg _ (by decide), hzone]
  rcases h.time with ⟨hhour, hminute, hsecond⟩ | ⟨hhour, hminute, hsecond, hzeros⟩
  · rw [if_neg (by omega)]
    omega
  · rw [if_pos hhour, fractionMilliseconds_zeros hzeros]
    omega

/-- The moment of the instant of a moment is that moment up to the milliseconds, if and only if it exists. -/
theorem momentOf_milliseconds_iff {m : Moment} (h : m.InRanges)
    (hdigits : ∀ c ∈ m.fraction, Number.isDigit c = true) (hlength : m.fraction.length ≤ 9) (hzone : m.zone = 0) :
    momentOf m.milliseconds = m.toMilliseconds ↔ m.Exists := by
  obtain ⟨hfraction, hpadded⟩ := padded_fractionMilliseconds hdigits hlength
  obtain ⟨ms, hms⟩ : ∃ ms, ms = fractionMilliseconds m.fraction := ⟨_, rfl⟩
  rw [← hms] at hfraction hpadded
  obtain ⟨days, hdays⟩ : ∃ days, days = m.milliseconds.fdiv millisecondsOfDay := ⟨_, rfl⟩
  obtain ⟨time, htime⟩ : ∃ time, time = (m.milliseconds - days * millisecondsOfDay).toNat := ⟨_, rfl⟩
  have hmoment : momentOf m.milliseconds =
      ⟨(civilFromDays days).1, (civilFromDays days).2.1, (civilFromDays days).2.2, time / 3600000,
        time / 60000 % 60, time / 1000 % 60, padded 3 (time % 1000), 0⟩ := by
    rw [htime, hdays]
    rfl
  have hfound := civilFromDays_daysFromCivil_iff m.year h.one_le_month h.month_le h.one_le_day h.day_le
  have hdaysOf := fdiv_milliseconds h (hms ▸ hfraction) hzone
  rw [← hdays] at hdaysOf
  have htimeOf : m.hour ≠ 24 → time = ((m.hour * 60 + m.minute) * 60 + m.second) * 1000 + ms := by
    intro hhour
    rw [if_neg hhour, Int.add_zero] at hdaysOf
    have htimeRange := h.time
    rw [htime, Moment.milliseconds, hzone, hdaysOf, ← hms]
    omega
  rw [h.exists_iff, hmoment, Moment.toMilliseconds]
  constructor
  · intro hback
    have hhour : m.hour ≠ 24 := by
      have hclock : time / 3600000 = m.hour := congrArg Moment.hour hback
      have hbelow : time < 86400000 := by
        rw [htime, hdays, millisecondsOfDay, Int.fdiv_eq_ediv_of_nonneg _ (by decide)]
        omega
      omega
    rw [if_neg hhour, Int.add_zero] at hdaysOf
    have hyear : (civilFromDays days).1 = m.year := congrArg Moment.year hback
    have hmonth : (civilFromDays days).2.1 = m.month := congrArg Moment.month hback
    have hday : (civilFromDays days).2.2 = m.day := congrArg Moment.day hback
    refine ⟨hfound.mp ?_, hhour⟩
    rw [← hdaysOf, ← hyear, ← hmonth, ← hday]
  · rintro ⟨hday, hhour⟩
    have hclock := h.time
    have hread := htimeOf hhour
    rw [if_neg hhour, Int.add_zero] at hdaysOf
    rw [hdaysOf, hfound.mpr hday]
    have hhourOf : time / 3600000 = m.hour := by omega
    have hminuteOf : time / 60000 % 60 = m.minute := by omega
    have hsecondOf : time / 1000 % 60 = m.second := by omega
    have hmillisecondOf : time % 1000 = ms := by omega
    rw [hhourOf, hminuteOf, hsecondOf, hmillisecondOf, hpadded, hzone]

end Calendar

end EntitySchema
