import Mathlib.Tactic.Common
import EntitySchema.DefaultValue
import EntitySchema.Proofs.Dates
import EntitySchema.Table.OfModel

/-!
# Timestamps as defaults

A default of the type `DateTime` other than `now` has to be a timestamp.  A timestamp is the text of a moment
of the years 0 to 9999 in UTC, with at most six digits behind the seconds (`Moment.WrittenAs`); its fields are
checked one by one (`isTimestamp_iff`).  So the day need not be one of its month, and midnight may be the end
of a day.  The instant of a timestamp has the fields that are written if and only if they are those of a moment
that exists, and the literal of the column has the text as it is written in either case (`check_dateTime`).
-/

namespace EntitySchema

/-! ### Fractions of a second -/

namespace Calendar

/-- What stands behind the seconds, with the digits of the fraction: nothing or a point with one to six digits,
and the zone. -/
inductive IsFraction : List Char → List Char → Prop
  | none : IsFraction [] ['Z']
  | digits {digits : List Char} (hdigits : ∀ c ∈ digits, Number.isDigit c = true) (hpos : 1 ≤ digits.length)
      (hlength : digits.length ≤ 6) : IsFraction digits ('.' :: (digits ++ ['Z']))

variable {digits cs : List Char}

lemma takeFraction_of_isFraction (h : IsFraction digits cs) : takeFraction cs = some (digits, ['Z']) := by
  cases h with
  | none => rfl
  | digits hdigits hpos => exact takeFraction_cons hdigits (List.ne_nil_of_length_pos hpos)

lemma IsFraction.isDigit (h : IsFraction digits cs) : ∀ c ∈ digits, Number.isDigit c = true := by
  cases h with
  | none => exact fun c hc => absurd hc List.not_mem_nil
  | digits hdigits => exact hdigits

lemma IsFraction.length_le (h : IsFraction digits cs) : digits.length ≤ 6 := by
  cases h with
  | none => exact Nat.zero_le _
  | digits _ _ hlength => exact hlength

/-! ### Written moments -/

/-- The text is written with the fields of the moment: four digits for the year, two for each of the other
fields up to the seconds, and the digits of the fraction if there are any. -/
structure Moment.WrittenAs (m : Moment) (text : List Char) : Prop where
  year_nonneg : 0 ≤ m.year
  year_le : m.year ≤ 9999
  month_le : m.month ≤ 99
  day_le : m.day ≤ 99
  hour_le : m.hour ≤ 99
  minute_le : m.minute ≤ 99
  second_le : m.second ≤ 99
  zone_eq : m.zone = 0
  text_eq : ∃ rest, IsFraction m.fraction rest ∧ text = secondsText m rest

variable {m : Moment} {text : List Char}

lemma Moment.WrittenAs.fits (h : m.WrittenAs text) : m.Fits where
  year := by
    have hlow := h.year_nonneg
    have hhigh := h.year_le
    omega
  month := Nat.lt_succ_iff.mpr h.month_le
  day := Nat.lt_succ_iff.mpr h.day_le
  hour := Nat.lt_succ_iff.mpr h.hour_le
  minute := Nat.lt_succ_iff.mpr h.minute_le
  second := Nat.lt_succ_iff.mpr h.second_le
  zone := h.zone_eq

lemma Moment.WrittenAs.isDigit (h : m.WrittenAs text) : ∀ c ∈ m.fraction, Number.isDigit c = true := by
  obtain ⟨rest, hrest, -⟩ := h.text_eq
  exact hrest.isDigit

lemma Moment.WrittenAs.length_le (h : m.WrittenAs text) : m.fraction.length ≤ 9 := by
  obtain ⟨rest, hrest, -⟩ := h.text_eq
  exact Nat.le_trans hrest.length_le (by decide)

/-- The moment is the one that is read from the text. -/
lemma Moment.WrittenAs.moment?_eq (h : m.WrittenAs text) : moment? text = some m := by
  obtain ⟨rest, hrest, htext⟩ := h.text_eq
  rw [htext]
  exact moment?_secondsText h.fits (takeFraction_of_isFraction hrest)

/-- The instants of the years that are written are within the largest distance. -/
lemma Moment.WrittenAs.natAbs_milliseconds_le (h : m.WrittenAs text) :
    m.milliseconds.natAbs ≤ maxInstant.natAbs := by
  have hfraction := (padded_fractionMilliseconds h.isDigit h.length_le).1
  obtain ⟨hyear, hyear', hmonth, hday, hhour, hminute, hsecond, hzone, -⟩ := h
  have hdays := daysFromCivil_eq m.year m.month m.day
  have hmax : maxInstant.natAbs = 8640000000000000 := rfl
  have hbound : -800000 ≤ daysFromCivil m.year m.month m.day ∧ daysFromCivil m.year m.month m.day ≤ 4000000 := by
    split at hdays <;> omega
  rw [Moment.milliseconds, millisecondsOfDay, hzone, hmax]
  omega

/-- A timestamp is read as the instant of its fields if these are within their ranges. -/
lemma Moment.WrittenAs.read?_eq {value : String} (h : m.WrittenAs value.toList) :
    read? value = if m.isInRange then some m.milliseconds else none := by
  have hmax := h.natAbs_milliseconds_le
  rw [read?, h.moment?_eq, Option.bind_some, Moment.toInstant?]
  simp [hmax]

/-- The year of a timestamp has four digits. -/
lemma yearText_eq {year : Int} (hlow : 0 ≤ year) (hhigh : year ≤ 9999) : yearText year = padded 4 year.toNat := by
  simp [yearText, hlow, hhigh]

lemma secondsText_append (m : Moment) (rest : List Char) : secondsText m rest = secondsText m [] ++ rest := by
  simp [secondsText]

end Calendar

/-! ### The shape of a timestamp -/

namespace DefaultValue

open Calendar

lemma length_eq_of_hasShape {shape cs : List Char} (h : hasShape shape cs = true) : cs.length = shape.length := by
  induction shape generalizing cs with
  | nil =>
    cases cs with
    | nil => rfl
    | cons c cs => cases h
  | cons p shape ih =>
    cases cs with
    | nil => cases h
    | cons c cs =>
      rw [hasShape, Bool.and_eq_true] at h
      exact congrArg Nat.succ (ih h.2)

lemma hasShape_nil_iff {cs : List Char} : hasShape [] cs = true ↔ cs = [] := by
  cases cs <;> simp [hasShape]

/-- A mark in the shape is one in the text. -/
lemma hasShape_mark_iff {mark : Char} {shape cs : List Char} (hzero : mark ≠ '0') (hf : mark ≠ 'f') :
    hasShape (mark :: shape) cs = true ↔ ∃ rest, cs = mark :: rest ∧ hasShape shape rest = true := by
  cases cs with
  | nil => simp [hasShape]
  | cons c cs =>
    simp [hasShape, hzero, hf]
    tauto

/-- Zeros in the shape are as many digits in the text. -/
lemma hasShape_digits_iff {n : Nat} {shape cs : List Char} :
    hasShape (List.replicate n '0' ++ shape) cs = true ↔
      ∃ digits rest, cs = digits ++ rest ∧ DigitField n digits ∧ hasShape shape rest = true := by
  induction n generalizing cs with
  | zero => simp [DigitField]
  | succ n ih =>
    constructor
    · intro h
      cases cs with
      | nil => simp [List.replicate_succ, hasShape] at h
      | cons c cs =>
        rw [List.replicate_succ, List.cons_append, hasShape, Bool.and_eq_true] at h
        obtain ⟨digits, rest, rfl, ⟨hlength, hdigits⟩, hrest⟩ := ih.mp h.2
        have hc : Number.isDigit c = true := h.1
        exact ⟨c :: digits, rest, rfl, ⟨congrArg Nat.succ hlength, List.forall_mem_cons.mpr ⟨hc, hdigits⟩⟩, hrest⟩
    · rintro ⟨digits, rest, rfl, ⟨hlength, hdigits⟩, hrest⟩
      obtain ⟨c, digits, rfl⟩ := List.exists_cons_of_length_eq_add_one hlength
      obtain ⟨hc, hdigits⟩ := List.forall_mem_cons.mp hdigits
      have hbehind := ih.mpr ⟨digits, rest, rfl, ⟨Nat.succ.inj hlength, hdigits⟩, hrest⟩
      rw [List.replicate_succ, List.cons_append, List.cons_append, hasShape, hbehind, Bool.and_true]
      exact hc

lemma isTimestampEnd_iff {cs : List Char} : isTimestampEnd cs = true ↔ ∃ digits, IsFraction digits cs := by
  constructor
  · intro h
    unfold isTimestampEnd at h
    split at h
    · exact ⟨[], .none⟩
    · rename_i rest
      simp only [Bool.and_eq_true, decide_eq_true_eq, beq_iff_eq] at h
      obtain ⟨⟨hpos, hlength⟩, hrest⟩ := h
      have hsplit := List.prefix_iff_eq_append.mp (List.takeWhile_prefix Number.isDigit (l := rest))
      rw [hrest] at hsplit
      rw [← hsplit]
      exact ⟨_, .digits (fun c hc => List.mem_takeWhile_imp hc) hpos hlength⟩
    · cases h
  · rintro ⟨digits, h⟩
    cases h with
    | none => rfl
    | digits hdigits hpos hlength =>
      have htake : (digits ++ ['Z']).takeWhile Number.isDigit = digits := by
        rw [List.takeWhile_append_of_pos hdigits]
        exact List.append_nil _
      simp [isTimestampEnd, htake, hlength, hpos]

lemma timestampShape_eq :
    timestampShape =
      List.replicate 4 '0' ++ '-' :: (List.replicate 2 '0' ++ '-' :: (List.replicate 2 '0' ++
        'T' :: (List.replicate 2 '0' ++ ':' :: (List.replicate 2 '0' ++ ':' :: (List.replicate 2 '0' ++ []))))) :=
  rfl

/-- A field in the shape is one in the text, with the mark behind it. -/
lemma hasShape_field_iff {n : Nat} {mark : Char} {shape cs : List Char} (hzero : mark ≠ '0') (hf : mark ≠ 'f') :
    hasShape (List.replicate n '0' ++ mark :: shape) cs = true ↔
      ∃ digits rest, cs = digits ++ mark :: rest ∧ DigitField n digits ∧ hasShape shape rest = true := by
  rw [hasShape_digits_iff]
  constructor
  · rintro ⟨digits, behind, rfl, hdigits, hbehind⟩
    obtain ⟨rest, rfl, hrest⟩ := (hasShape_mark_iff hzero hf).mp hbehind
    exact ⟨digits, rest, rfl, hdigits, hrest⟩
  · rintro ⟨digits, rest, rfl, hdigits, hrest⟩
    exact ⟨digits, _, rfl, hdigits, (hasShape_mark_iff hzero hf).mpr ⟨rest, rfl, hrest⟩⟩

/-- The texts of the shape have six fields with marks between them. -/
lemma hasShape_timestampShape_iff {cs : List Char} :
    hasShape timestampShape cs = true ↔
      ∃ year month day hour minute second, DigitField 4 year ∧ DigitField 2 month ∧ DigitField 2 day ∧
        DigitField 2 hour ∧ DigitField 2 minute ∧ DigitField 2 second ∧
        cs = year ++ '-' :: (month ++ '-' :: (day ++ 'T' :: (hour ++ ':' :: (minute ++ ':' :: (second ++ []))))) := by
  rw [timestampShape_eq]
  constructor
  · intro h
    obtain ⟨year, cs, rfl, hyear, h⟩ := (hasShape_field_iff (by decide) (by decide)).mp h
    obtain ⟨month, cs, rfl, hmonth, h⟩ := (hasShape_field_iff (by decide) (by decide)).mp h
    obtain ⟨day, cs, rfl, hday, h⟩ := (hasShape_field_iff (by decide) (by decide)).mp h
    obtain ⟨hour, cs, rfl, hhour, h⟩ := (hasShape_field_iff (by decide) (by decide)).mp h
    obtain ⟨minute, cs, rfl, hminute, h⟩ := (hasShape_field_iff (by decide) (by decide)).mp h
    obtain ⟨second, cs, rfl, hsecond, h⟩ := hasShape_digits_iff.mp h
    obtain rfl := hasShape_nil_iff.mp h
    exact ⟨year, month, day, hour, minute, second, hyear, hmonth, hday, hhour, hminute, hsecond, rfl⟩
  · rintro ⟨year, month, day, hour, minute, second, hyear, hmonth, hday, hhour, hminute, hsecond, rfl⟩
    refine (hasShape_field_iff (by decide) (by decide)).mpr ⟨year, _, rfl, hyear, ?_⟩
    refine (hasShape_field_iff (by decide) (by decide)).mpr ⟨month, _, rfl, hmonth, ?_⟩
    refine (hasShape_field_iff (by decide) (by decide)).mpr ⟨day, _, rfl, hday, ?_⟩
    refine (hasShape_field_iff (by decide) (by decide)).mpr ⟨hour, _, rfl, hhour, ?_⟩
    refine (hasShape_field_iff (by decide) (by decide)).mpr ⟨minute, _, rfl, hminute, ?_⟩
    exact hasShape_digits_iff.mpr ⟨second, _, rfl, hsecond, rfl⟩

/-- A text in the shape of a timestamp is written with the fields of a moment. -/
lemma exists_writtenAs {cs : List Char} (hshape : hasShape timestampShape (cs.take timestampShape.length) = true)
    (hend : isTimestampEnd (cs.drop timestampShape.length) = true) : ∃ m : Moment, m.WrittenAs cs := by
  obtain ⟨year, month, day, hour, minute, second, hyear, hmonth, hday, hhour, hminute, hsecond, hfront⟩ :=
    hasShape_timestampShape_iff.mp hshape
  obtain ⟨fraction, hrest⟩ := isTimestampEnd_iff.mp hend
  have hyear' := hyear.digitsValue_lt
  refine ⟨⟨Number.digitsValue 10 year, Number.digitsValue 10 month, Number.digitsValue 10 day,
    Number.digitsValue 10 hour, Number.digitsValue 10 minute, Number.digitsValue 10 second, fraction, 0⟩, ?_⟩
  exact {
    year_nonneg := Int.natCast_nonneg _
    year_le := by dsimp only; omega
    month_le := Nat.lt_succ_iff.mp hmonth.digitsValue_lt
    day_le := Nat.lt_succ_iff.mp hday.digitsValue_lt
    hour_le := Nat.lt_succ_iff.mp hhour.digitsValue_lt
    minute_le := Nat.lt_succ_iff.mp hminute.digitsValue_lt
    second_le := Nat.lt_succ_iff.mp hsecond.digitsValue_lt
    zone_eq := rfl
    text_eq := by
      refine ⟨_, hrest, ?_⟩
      have htext := List.take_append_drop timestampShape.length cs
      rw [hfront] at htext
      rw [secondsText_append, secondsText, yearText_eq (Int.natCast_nonneg _) (by omega), Int.toNat_natCast,
        hyear.padded_digitsValue (by decide), hmonth.padded_digitsValue (by decide),
        hday.padded_digitsValue (by decide), hhour.padded_digitsValue (by decide),
        hminute.padded_digitsValue (by decide), hsecond.padded_digitsValue (by decide)]
      exact htext.symm }

/-- What is written with the fields of a moment is in the shape of a timestamp. -/
lemma hasShape_of_writtenAs {m : Moment} {cs : List Char} (hm : m.WrittenAs cs) :
    hasShape timestampShape (cs.take timestampShape.length) = true ∧
      isTimestampEnd (cs.drop timestampShape.length) = true := by
  obtain ⟨rest, hrest, htext⟩ := hm.text_eq
  have hyear : m.year.toNat < 10 ^ 4 := by
    have hhigh := hm.year_le
    omega
  have hfits := hm.fits
  have hshape : hasShape timestampShape (secondsText m []) = true := by
    rw [hasShape_timestampShape_iff, secondsText, yearText_eq hm.year_nonneg hm.year_le]
    exact ⟨_, _, _, _, _, _, digitField_padded (by decide) hyear, digitField_padded (by decide) hfits.month,
      digitField_padded (by decide) hfits.day, digitField_padded (by decide) hfits.hour,
      digitField_padded (by decide) hfits.minute, digitField_padded (by decide) hfits.second, rfl⟩
  have hlength := length_eq_of_hasShape hshape
  rw [htext, secondsText_append, List.take_left' hlength, List.drop_left' hlength]
  exact ⟨hshape, isTimestampEnd_iff.mpr ⟨_, hrest⟩⟩

/-- A text is a timestamp if and only if it is written with the fields of a moment that are within their
ranges. -/
theorem isTimestamp_iff {value : String} :
    isTimestamp value = true ↔ ∃ m : Moment, m.WrittenAs value.toList ∧ m.InRanges := by
  unfold isTimestamp
  rw [Bool.and_eq_true, Bool.and_eq_true]
  constructor
  · rintro ⟨⟨hshape, hend⟩, hread⟩
    obtain ⟨m, hm⟩ := exists_writtenAs hshape hend
    refine ⟨m, hm, m.isInRange_iff.mp ?_⟩
    rw [hm.read?_eq] at hread
    by_contra hrange
    rw [if_neg hrange] at hread
    cases hread
  · rintro ⟨m, hm, hrange⟩
    refine ⟨hasShape_of_writtenAs hm, ?_⟩
    rw [hm.read?_eq, if_pos (m.isInRange_iff.mpr hrange)]
    rfl

/-! ### Timestamps as column defaults -/

lemma doubleQuotes_eq_self {cs : List Char} (h : '\'' ∉ cs) : doubleQuotes cs = cs := by
  induction cs with
  | nil => rfl
  | cons c cs ih =>
    rw [List.mem_cons, not_or] at h
    have hc : ¬ (c == '\'') = true := by
      rw [beq_iff_eq]
      exact Ne.symm h.1
    rw [doubleQuotes, if_neg hc, ih h.2]

/-- A digit is no quote. -/
lemma quote_notMem_of_isDigit {digits : List Char} (h : ∀ c ∈ digits, Number.isDigit c = true) : '\'' ∉ digits :=
  fun hc => absurd (h _ hc) (by decide)

lemma quote_notMem_of_isFraction {digits cs : List Char} (h : IsFraction digits cs) : '\'' ∉ cs := by
  cases h with
  | none => decide
  | digits hdigits => simp [quote_notMem_of_isDigit hdigits]

lemma quote_notMem_of_writtenAs {m : Moment} {text : List Char} (h : m.WrittenAs text) : '\'' ∉ text := by
  obtain ⟨rest, hrest, rfl⟩ := h.text_eq
  have hpadded (n value : Nat) : '\'' ∉ padded n value :=
    quote_notMem_of_isDigit fun _ => isDigit_of_mem_padded
  have hrest' := quote_notMem_of_isFraction hrest
  rw [secondsText, yearText_eq h.year_nonneg h.year_le]
  simp [hpadded, hrest']

/-- The literal of a timestamp has its text between quotes. -/
lemma sqlLiteral_timestamp {m : Moment} {value : String} (h : m.WrittenAs value.toList) (cast : String) :
    sqlLiteral value cast = "'" ++ value ++ "'::" ++ cast := by
  rw [sqlLiteral, doubleQuotes_eq_self (quote_notMem_of_writtenAs h), ← String.toList_inj]
  simp

/-- A default of the type `DateTime` other than `now` is accepted if and only if it is written with the fields
of a moment that are within their ranges one by one.  Such a moment exists if its day is one of its month and
midnight is not the end of a day.  The default has an instant, whose fields are the written ones up to the
milliseconds if and only if the moment exists, and the column gets the literal with the text as it is written. -/
theorem check_dateTime {type : TypeDef} {value key : String} (hcategory : type.category = .scalar)
    (hname : type.name = "DateTime") (hnow : value ≠ "now") :
    (check type value key = .valid ↔ ∃ m : Moment, m.WrittenAs value.toList ∧ m.InRanges) ∧
      ∀ m : Moment, m.WrittenAs value.toList → m.InRanges →
        (m.Exists ↔ m.day ≤ daysInMonth m.year m.month ∧ m.hour ≠ 24) ∧
          (∃ instant, read? value = some instant ∧ (momentOf instant = m.toMilliseconds ↔ m.Exists)) ∧
          ∀ (enums : List EnumValues) (table : String) (f : FieldDef), f.type = type → f.persistDefault? = some value →
            columnDefault enums table f = some ("'" ++ value ++ "'::timestamp without time zone") := by
  have hexpected : expectation? type.name = some .timestamp := by
    rw [hname]
    rfl
  have hnow' : (value == "now") = false := beq_eq_false_iff_ne.mpr hnow
  constructor
  · have hmet : Expectation.timestamp.isMet value = isTimestamp value := by
      rw [Expectation.isMet, hnow', Bool.false_or]
    rw [← isTimestamp_iff, check, hcategory, hexpected]
    dsimp only
    rw [hmet]
    split <;> simp [*]
  · intro m hm hrange
    refine ⟨hrange.exists_iff, ⟨m.milliseconds, ?_, ?_⟩, ?_⟩
    · rw [hm.read?_eq, if_pos (m.isInRange_iff.mpr hrange)]
    · exact momentOf_milliseconds_iff hrange hm.isDigit hm.length_le hm.zone_eq
    · intro enums table f htype hdefault
      have hscalar : (type.category == .entity) = false := by
        rw [hcategory]
        rfl
      rw [columnDefault, hdefault, Option.bind_some, htype, hscalar, hname]
      simp only [builtinDefault, hnow', Bool.false_eq_true, if_false, sqlLiteral_timestamp hm]
      rw [String.append_assoc]
      rfl

/-- The 29th of February of a leap year exists, and the 30th is accepted without being one of the month. -/
theorem check_dateTime_february :
    check ⟨"DateTime", false, [], .scalar, none, none, none, none⟩ "2024-02-29T23:59:59.123456Z" "default" = .valid ∧
      Moment.Exists ⟨2024, 2, 29, 23, 59, 59, "123456".toList, 0⟩ ∧
      check ⟨"DateTime", false, [], .scalar, none, none, none, none⟩ "2024-02-30T00:00:00Z" "default" = .valid ∧
      ¬ Moment.Exists ⟨2024, 2, 30, 0, 0, 0, [], 0⟩ := by
  have hleap : Moment.WrittenAs ⟨2024, 2, 29, 23, 59, 59, "123456".toList, 0⟩ "2024-02-29T23:59:59.123456Z".toList :=
    ⟨by decide, by decide, by decide, by decide, by decide, by decide, by decide, rfl,
      _, @IsFraction.digits "123456".toList (List.all_eq_true.mp rfl) (by decide) (by decide), by decide⟩
  have hrange : Moment.InRanges ⟨2024, 2, 29, 23, 59, 59, "123456".toList, 0⟩ :=
    ⟨by decide, by decide, by decide, by decide, .inl (by decide)⟩
  have hbehind : Moment.WrittenAs ⟨2024, 2, 30, 0, 0, 0, [], 0⟩ "2024-02-30T00:00:00Z".toList :=
    ⟨by decide, by decide, by decide, by decide, by decide, by decide, by decide, rfl, _, .none, by decide⟩
  have hrange' : Moment.InRanges ⟨2024, 2, 30, 0, 0, 0, [], 0⟩ :=
    ⟨by decide, by decide, by decide, by decide, .inl (by decide)⟩
  obtain ⟨hvalid, hfields⟩ := @check_dateTime ⟨"DateTime", false, [], .scalar, none, none, none, none⟩
    "2024-02-29T23:59:59.123456Z" "default" rfl rfl (by decide)
  obtain ⟨hvalid', hfields'⟩ := @check_dateTime ⟨"DateTime", false, [], .scalar, none, none, none, none⟩
    "2024-02-30T00:00:00Z" "default" rfl rfl (by decide)
  refine ⟨hvalid.mpr ⟨_, hleap, hrange⟩, (hfields _ hleap hrange).1.mpr (by decide),
    hvalid'.mpr ⟨_, hbehind, hrange'⟩, fun hexists => ?_⟩
  have hday := ((hfields' _ hbehind hrange').1.mp hexists).1
  exact absurd hday (by decide)

end DefaultValue

end EntitySchema
