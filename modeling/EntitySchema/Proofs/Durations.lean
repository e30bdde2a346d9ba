import Mathlib.Data.List.DropRight
import Mathlib.Tactic.Ring
import EntitySchema.DefaultValue
import EntitySchema.Proofs.FieldExpr.Segments
import EntitySchema.Proofs.WholeText

/-!
# Durations as defaults

A duration is written with amounts of units, from days down to milliseconds, each at most once
(`WritesUnits`).  The reader takes the units in their order and looks at each of them once; no unit starts another
one, so it finds the amounts that are written and no others (`durationParts?_iff`).  Its milliseconds are computed
with numbers: each of at most five amounts is rounded, multiplied, rounded and added.  Up to `2 ^ 53` nothing is
rounded, and up to `2 ^ 13` below `2 ^ 63` the result stays below `2 ^ 63`, so that it is written as a whole
number (`exists_text_durationMilliseconds`).
-/

namespace EntitySchema

namespace DefaultValue

/-! ### Written amounts -/

/-- Digits that stand for an amount. -/
structure IsAmount (digits : List Char) : Prop where
  ne_nil : digits ≠ []
  isDigit : ∀ c ∈ digits, Number.isDigit c = true

/-- The text writes amounts of some of the units, in the order of the units, which add up to so many milliseconds.
White space may stand between an amount with its unit and the next one. -/
inductive WritesUnits : List (List Char × Nat) → List Char → Nat → Prop
  | skip {unit : List Char} {ms : Nat} {units : List (List Char × Nat)} {cs : List Char} {total : Nat}
      (h : WritesUnits units cs total) : WritesUnits ((unit, ms) :: units) cs total
  | last {unit : List Char} {ms : Nat} {units : List (List Char × Nat)} {digits : List Char}
      (hdigits : IsAmount digits) :
      WritesUnits ((unit, ms) :: units) (digits ++ unit) (Number.digitsValue 10 digits * ms)
  | next {unit : List Char} {ms : Nat} {units : List (List Char × Nat)} {digits blanks cs : List Char} {total : Nat}
      (hdigits : IsAmount digits) (hblanks : ∀ c ∈ blanks, Text.isBlank c = true) (h : WritesUnits units cs total) :
      WritesUnits ((unit, ms) :: units) (digits ++ (unit ++ (blanks ++ cs)))
        (Number.digitsValue 10 digits * ms + total)

/-- The milliseconds that amounts add up to. -/
def totalOf (parts : List (List Char × Nat)) : Nat :=
  (parts.map fun p => Number.digitsValue 10 p.1 * p.2).sum

@[simp] lemma totalOf_nil : totalOf [] = 0 := rfl

@[simp] lemma totalOf_cons (p : List Char × Nat) (parts : List (List Char × Nat)) :
    totalOf (p :: parts) = Number.digitsValue 10 p.1 * p.2 + totalOf parts := rfl

/-! ### Reading amounts -/

/-- A digit is no white space. -/
lemma isBlank_of_isDigit {c : Char} (h : Number.isDigit c = true) : Text.isBlank c = false := by
  simp only [Number.isDigit, Bool.and_eq_true, decide_eq_true_eq] at h
  have hlow : 0x30 ≤ c.toNat := h.1
  have hhigh : c.toNat ≤ 0x39 := h.2
  unfold Text.isBlank
  generalize c.toNat = n at hlow hhigh
  simp
  omega

/-- Neither text starts the other one. -/
def Apart (u v : List Char) : Prop :=
  ¬ u <+: v ∧ ¬ v <+: u

instance (u v : List Char) : Decidable (Apart u v) :=
  inferInstanceAs (Decidable (_ ∧ _))

/-- The units are made of letters, and none of them starts another one. -/
structure Distinct (units : List (List Char × Nat)) : Prop where
  letters : ∀ u ∈ units, u.1 ≠ [] ∧ ∀ c ∈ u.1, Number.isDigit c = false
  apart : units.Pairwise fun u v => Apart u.1 v.1

lemma distinct_durationUnits : Distinct durationUnits where
  letters := by simp [durationUnits, Number.isDigit]
  apart := by decide

variable {unit unit' : List Char} {ms : Nat} {units : List (List Char × Nat)} {cs digits rest : List Char} {total : Nat}
  {parts : List (List Char × Nat)}

/-- An amount ends where its unit starts. -/
lemma takeWhile_amount (hdigits : IsAmount digits) (hunit : unit ≠ [])
    (hletters : ∀ c ∈ unit, Number.isDigit c = false) :
    (digits ++ (unit ++ rest)).takeWhile Number.isDigit = digits := by
  obtain ⟨c, unit, rfl⟩ := List.exists_cons_of_ne_nil hunit
  have hc := hletters c List.mem_cons_self
  rw [List.takeWhile_append_of_pos hdigits.isDigit, List.cons_append, List.takeWhile_cons_of_neg (by simp [hc]),
    List.append_nil]

/-- A text that starts with no white space is not trimmed at its start. -/
lemma trimStart_of_head (h : ∀ c ∈ cs.head?, Text.isBlank c = false) : Text.trimStart cs = cs := by
  cases cs with
  | nil => rfl
  | cons c cs =>
    have hc := h c rfl
    rw [Text.trimStart, List.dropWhile_cons_of_neg (by simp [hc])]

lemma trimStart_amount (hdigits : IsAmount digits) (rest : List Char) :
    Text.trimStart (digits ++ rest) = digits ++ rest := by
  refine trimStart_of_head fun c hc => isBlank_of_isDigit (hdigits.isDigit c ?_)
  obtain ⟨d, digits, rfl⟩ := List.exists_cons_of_ne_nil hdigits.ne_nil
  obtain rfl := Option.some.inj hc
  exact List.mem_cons_self

/-- What is taken is an amount with its unit. -/
lemma takeUnit_eq_some (h : takeUnit unit cs = some (digits, rest)) :
    IsAmount digits ∧ cs = digits ++ (unit ++ rest) := by
  unfold takeUnit at h
  dsimp only at h
  split at h
  · rename_i hcond
    rw [Bool.and_eq_true, Bool.not_eq_true', List.isEmpty_eq_false_iff] at hcond
    obtain ⟨hne, hfront⟩ := hcond
    obtain ⟨behind, hbehind⟩ := List.isPrefixOf_iff_prefix.mp hfront
    simp only [Option.some.injEq, Prod.mk.injEq] at h
    obtain ⟨rfl, rfl⟩ := h
    refine ⟨⟨hne, fun c hc => List.mem_takeWhile_imp hc⟩, ?_⟩
    have hsplit := List.prefix_iff_eq_append.mp (List.takeWhile_prefix Number.isDigit (l := cs))
    rw [← hbehind, List.drop_left, hbehind, hsplit]
  · cases h

/-- An amount with its unit is taken. -/
lemma takeUnit_amount (hdigits : IsAmount digits) (hunit : unit ≠ [])
    (hletters : ∀ c ∈ unit, Number.isDigit c = false) (rest : List Char) :
    takeUnit unit (digits ++ (unit ++ rest)) = some (digits, rest) := by
  have hfront : unit.isPrefixOf (unit ++ rest) = true :=
    List.isPrefixOf_iff_prefix.mpr (List.prefix_append unit rest)
  have hne : digits.isEmpty = false := List.isEmpty_eq_false_iff.mpr hdigits.ne_nil
  unfold takeUnit
  rw [takeWhile_amount hdigits hunit hletters]
  simp [hfront, hne]

/-- An amount with another unit is left. -/
lemma takeUnit_eq_none (hdigits : IsAmount digits) (hunit : unit' ≠ [])
    (hletters : ∀ c ∈ unit', Number.isDigit c = false) (hapart : Apart unit unit') (rest : List Char) :
    takeUnit unit (digits ++ (unit' ++ rest)) = none := by
  have hfront : unit.isPrefixOf (unit' ++ rest) = false := by
    rw [← Bool.not_eq_true, List.isPrefixOf_iff_prefix]
    intro hstarts
    rcases List.prefix_or_prefix_of_prefix hstarts (List.prefix_append unit' rest) with h | h
    · exact hapart.1 h
    · exact hapart.2 h
  unfold takeUnit
  rw [takeWhile_amount hdigits hunit hletters]
  simp [hfront]

/-- Every written text starts with an amount of one of the units. -/
lemma WritesUnits.exists_amount (h : WritesUnits units cs total) :
    ∃ u ∈ units, ∃ digits rest, IsAmount digits ∧ cs = digits ++ (u.1 ++ rest) := by
  induction h with
  | skip _ ih =>
    obtain ⟨u, hu, digits, rest, hdigits, rfl⟩ := ih
    exact ⟨u, List.mem_cons_of_mem _ hu, digits, rest, hdigits, rfl⟩
  | last hdigits => exact ⟨_, List.mem_cons_self, _, [], hdigits, by rw [List.append_nil]⟩
  | next hdigits => exact ⟨_, List.mem_cons_self, _, _, hdigits, rfl⟩

lemma takeUnits_nil (units : List (List Char × Nat)) : takeUnits units [] = ([], []) := by
  induction units with
  | nil => rfl
  | cons u units ih =>
    obtain ⟨unit, ms⟩ := u
    exact ih

/-- White space in front of an amount is passed over. -/
lemma takeUnits_blanks {blanks : List Char} (hblanks : ∀ c ∈ blanks, Text.isBlank c = true)
    (h : WritesUnits units cs total) : takeUnits units (blanks ++ cs) = takeUnits units cs := by
  have htrim : Text.trimStart (blanks ++ cs) = Text.trimStart cs := List.dropWhile_append_of_pos hblanks
  cases h with
  | skip => rw [takeUnits, takeUnits, htrim]
  | last => rw [takeUnits, takeUnits, htrim]
  | next => rw [takeUnits, takeUnits, htrim]

/-- The amounts of a written text are taken, and nothing is left. -/
theorem WritesUnits.exists_takeUnits (h : WritesUnits units cs total) (hunits : Distinct units) :
    ∃ parts, takeUnits units cs = (parts, []) ∧ totalOf parts = total := by
  induction h with
  | @skip unit ms units cs total h ih =>
    obtain ⟨parts, htake, htotal⟩ :=
      ih ⟨fun u hu => hunits.letters u (List.mem_cons_of_mem _ hu), (List.pairwise_cons.mp hunits.apart).2⟩
    obtain ⟨u, hu, digits, rest, hdigits, rfl⟩ := h.exists_amount
    obtain ⟨hne, hletters⟩ := hunits.letters u (List.mem_cons_of_mem _ hu)
    have hnone := takeUnit_eq_none hdigits hne hletters ((List.pairwise_cons.mp hunits.apart).1 u hu) rest
    refine ⟨parts, ?_, htotal⟩
    rw [takeUnits, trimStart_amount hdigits, hnone]
    exact htake
  | @last unit ms units digits hdigits =>
    obtain ⟨hne, hletters⟩ := hunits.letters (unit, ms) List.mem_cons_self
    have hsome := takeUnit_amount hdigits hne hletters []
    rw [List.append_nil] at hsome
    refine ⟨[(digits, ms)], ?_, by simp⟩
    rw [takeUnits, trimStart_amount hdigits, hsome]
    dsimp only
    rw [takeUnits_nil]
  | @next unit ms units digits blanks cs total hdigits hblanks h ih =>
    obtain ⟨parts, htake, htotal⟩ :=
      ih ⟨fun u hu => hunits.letters u (List.mem_cons_of_mem _ hu), (List.pairwise_cons.mp hunits.apart).2⟩
    obtain ⟨hne, hletters⟩ := hunits.letters (unit, ms) List.mem_cons_self
    refine ⟨(digits, ms) :: parts, ?_, by rw [totalOf_cons, htotal]⟩
    rw [takeUnits, trimStart_amount hdigits, takeUnit_amount hdigits hne hletters]
    dsimp only
    rw [takeUnits_blanks hblanks h, htake]

/-- The text does not end with white space. -/
structure EndsVisibly (cs : List Char) : Prop where
  ne_nil : cs ≠ []
  last : ∀ c ∈ cs.getLast?, Text.isBlank c = false

lemma EndsVisibly.of_append {front : List Char} (h : EndsVisibly (front ++ cs)) (hne : cs ≠ []) : EndsVisibly cs where
  ne_nil := hne
  last := by
    intro c hc
    refine h.last c ?_
    rw [List.getLast?_append, Option.mem_def.mp hc]
    rfl

lemma EndsVisibly.trimStart (h : EndsVisibly cs) : EndsVisibly (Text.trimStart cs) := by
  have hsplit := Text.takeWhile_append_trimStart cs
  have hne : Text.trimStart cs ≠ [] := by
    intro hnil
    rw [hnil, List.append_nil] at hsplit
    obtain ⟨c, hc⟩ := Option.ne_none_iff_exists'.mp (mt List.getLast?_eq_none_iff.mp h.ne_nil)
    have hblank : Text.isBlank c = true := List.mem_takeWhile_imp (hsplit.symm ▸ List.mem_of_getLast? hc)
    rw [h.last c hc] at hblank
    cases hblank
  exact EndsVisibly.of_append (hsplit.symm ▸ h) hne

/-- If nothing is left of a text that does not end with white space, the text is written with the amounts that have
been taken. -/
theorem writesUnits_of_takeUnits (h : takeUnits units cs = (parts, [])) (hends : EndsVisibly cs) :
    WritesUnits units (Text.trimStart cs) (totalOf parts) := by
  induction units generalizing cs parts with
  | nil =>
    rw [takeUnits, Prod.mk.injEq] at h
    exact absurd h.2 hends.ne_nil
  | cons u units ih =>
    obtain ⟨unit, ms⟩ := u
    have hstart := hends.trimStart
    have hagain : Text.trimStart (Text.trimStart cs) = Text.trimStart cs := List.dropWhile_idempotent _ _
    rw [takeUnits] at h
    dsimp only at h
    cases htake : takeUnit unit (Text.trimStart cs) with
    | none =>
      rw [htake] at h
      have hwrites := ih h hstart
      rw [hagain] at hwrites
      exact .skip hwrites
    | some taken =>
      obtain ⟨digits, rest⟩ := taken
      obtain ⟨hdigits, htext⟩ := takeUnit_eq_some htake
      rw [htake] at h
      dsimp only at h
      rw [Prod.mk.injEq] at h
      obtain ⟨rfl, hrest⟩ := h
      rw [htext, totalOf_cons]
      by_cases hend : rest = []
      · rw [hend, takeUnits_nil, List.append_nil, totalOf_nil, Nat.add_zero]
        exact .last hdigits
      · have hends' : EndsVisibly rest := by
          rw [htext, ← List.append_assoc] at hstart
          exact hstart.of_append hend
        have htaken : takeUnits units rest = ((takeUnits units rest).1, []) := by rw [← hrest]
        have hblanks : ∀ c ∈ rest.takeWhile Text.isBlank, Text.isBlank c = true := fun c hc => List.mem_takeWhile_imp hc
        have hwrites := @WritesUnits.next unit ms units _ _ _ _ hdigits hblanks (ih htaken hends')
        rwa [Text.takeWhile_append_trimStart] at hwrites

/-- The units of the amounts are some of the units, in their order. -/
lemma sublist_takeUnits (units : List (List Char × Nat)) (cs : List Char) :
    ((takeUnits units cs).1.map Prod.snd).Sublist (units.map Prod.snd) := by
  induction units generalizing cs with
  | nil => exact List.Sublist.refl _
  | cons u units ih =>
    obtain ⟨unit, ms⟩ := u
    rw [takeUnits]
    dsimp only
    cases takeUnit unit (Text.trimStart cs) with
    | none => exact (ih _).cons _
    | some taken => exact (ih _).cons_cons _

/-! ### Durations -/

/-- The text is a duration that adds up to so many milliseconds. -/
def IsDuration (value : String) (total : Nat) : Prop :=
  WritesUnits durationUnits (Text.trim value.toList) total

/-- The amounts of a duration are read, and whatever is read is a duration. -/
theorem durationParts?_iff {value : String} {total : Nat} :
    (∃ parts, durationParts? value = some parts ∧ totalOf parts = total) ↔ IsDuration value total := by
  obtain ⟨cs, hcs⟩ : ∃ cs, cs = Text.trim value.toList := ⟨_, rfl⟩
  have hlast : ∀ c ∈ cs.getLast?, Text.isBlank c = false := hcs ▸ Segment.getLast?_trimEnd _
  have hhead : ∀ c ∈ cs.head?, Text.isBlank c = false :=
    hcs ▸ Segment.head?_trimEnd (Segment.head?_trimStart value.toList)
  unfold IsDuration durationParts?
  rw [← hcs]
  constructor
  · rintro ⟨parts, hparts, rfl⟩
    dsimp only at hparts
    split at hparts
    · cases hparts
    rename_i hne
    split at hparts
    · rename_i hrest
      have htake : takeUnits durationUnits cs = (parts, []) := by
        rw [← Option.some.inj hparts, ← List.isEmpty_iff.mp hrest]
      have hwrites := writesUnits_of_takeUnits htake ⟨fun hnil => hne (List.isEmpty_iff.mpr hnil), hlast⟩
      rwa [trimStart_of_head hhead] at hwrites
    · cases hparts
  · intro hwrites
    obtain ⟨parts, htake, htotal⟩ := hwrites.exists_takeUnits distinct_durationUnits
    have hne : ¬ cs.isEmpty = true := by
      obtain ⟨u, -, digits, rest, hdigits, rfl⟩ := hwrites.exists_amount
      rw [List.isEmpty_iff, List.append_eq_nil_iff]
      exact fun hnil => hdigits.ne_nil hnil.1
    refine ⟨parts, ?_, htotal⟩
    simp only [if_neg hne, htake, List.isEmpty_nil, if_true]

/-- A duration adds up to one number of milliseconds only. -/
theorem IsDuration.unique {value : String} {total total' : Nat} (h : IsDuration value total)
    (h' : IsDuration value total') : total = total' := by
  obtain ⟨parts, hparts, rfl⟩ := durationParts?_iff.mpr h
  obtain ⟨parts', hparts', rfl⟩ := durationParts?_iff.mpr h'
  rw [Option.some.inj (hparts.symm.trans hparts')]

/-! ### Milliseconds -/

/-- A whole numeral is the number nearest to what it denotes. -/
lemma ofDecimal_zero (n : Nat) : Number.ofDecimal false n 0 = Number.ofNat n := by
  by_cases hn : n = 0
  · subst hn
    rfl
  · have hlength : ¬ (0 : Int) + ((Nat.toDigits 10 n).length : Int) < -400 := by omega
    rw [Number.ofDecimal, if_neg hn, if_neg (by decide), if_neg hlength, if_pos (by decide)]
    simp [Number.ofNat]

/-- One step of the computation of the milliseconds. -/
def addPart (sum : Number) (p : List Char × Nat) : Number :=
  sum.add ((Number.ofDecimal false (Number.digitsValue 10 p.1) 0).mul (Number.ofNat p.2))

open Number (Near rounded near_self rounded_of_le)

/-- An amount is rounded, multiplied with its unit, rounded and added to what has been rounded before; nothing is
rounded up to `2 ^ 53`. -/
lemma exists_addPart {sum exact steps : Nat} (hsteps : 1 ≤ steps) (hnear : Near steps sum exact) {p : List Char × Nat}
    (hms : 1 ≤ p.2) (hms' : p.2 < 2 ^ 53) (hsteps' : steps ≤ 100)
    (hexact : exact + Number.digitsValue 10 p.1 * p.2 < 2 ^ 63) :
    ∃ sum', addPart (Number.ofNat sum) p = Number.ofNat sum' ∧
      Near (steps + 1) sum' (exact + Number.digitsValue 10 p.1 * p.2) ∧
      (sum = exact → exact + Number.digitsValue 10 p.1 * p.2 ≤ 2 ^ 53 →
        sum' = exact + Number.digitsValue 10 p.1 * p.2) := by
  obtain ⟨digits, ms⟩ := p
  dsimp only at hms hms' hexact ⊢
  generalize hamount : Number.digitsValue 10 digits = amount at hexact ⊢
  have hle : amount ≤ amount * ms := Nat.le_mul_of_pos_right amount hms
  have hproduct : Near 1 (rounded amount * ms) (amount * ms) := (near_self 0 amount).rounded.mul_right ms
  have hsumSmall : sum < 2 ^ 200 := hnear.lt_of_hundred hsteps' (by omega)
  have hproductSmall : rounded amount * ms < 2 ^ 200 := hproduct.lt_of_hundred (by decide) (by omega)
  have hamountSmall : amount < 2 ^ 200 := (near_self 0 amount).lt_of_hundred (by decide) (by omega)
  have hmsSmall : ms < 2 ^ 200 := (near_self 0 ms).lt_of_hundred (by decide) (by omega)
  refine ⟨rounded sum + rounded (rounded amount * ms), ?_, ?_, ?_⟩
  · rw [addPart, hamount, ofDecimal_zero, Number.mul_ofNat hamountSmall hmsSmall, rounded_of_le hms'.le,
      Number.add_ofNat hsumSmall hproductSmall]
  · exact hnear.rounded.add (hproduct.rounded.mono (by omega))
  · intro hsame hsmall
    rw [hsame, rounded_of_le (by omega), rounded_of_le (by omega : amount ≤ 2 ^ 53), rounded_of_le (by omega)]

/-- The milliseconds of all amounts are the number nearest to a whole number, which is near their sum. -/
lemma exists_foldl_addPart {parts : List (List Char × Nat)} (hparts : ∀ p ∈ parts, 1 ≤ p.2 ∧ p.2 < 2 ^ 53)
    {sum exact steps : Nat} (hsteps : 1 ≤ steps) (hsteps' : steps + parts.length ≤ 100) (hnear : Near steps sum exact)
    (hexact : exact + totalOf parts < 2 ^ 63) :
    ∃ sum', parts.foldl addPart (Number.ofNat sum) = Number.ofNat sum' ∧
      Near (steps + parts.length) sum' (exact + totalOf parts) ∧
      (sum = exact → exact + totalOf parts ≤ 2 ^ 53 → sum' = exact + totalOf parts) := by
  induction parts generalizing sum exact steps with
  | nil => exact ⟨sum, rfl, by simpa using hnear, fun h _ => by simpa using h⟩
  | cons p parts ih =>
    obtain ⟨hms, hms'⟩ := hparts p List.mem_cons_self
    rw [totalOf_cons, ← Nat.add_assoc] at hexact ⊢
    rw [List.length_cons] at hsteps' ⊢
    obtain ⟨sum₁, hsum₁, hnear₁, hexact₁⟩ := exists_addPart hsteps hnear hms hms' (by omega) (by omega)
    obtain ⟨sum₂, hsum₂, hnear₂, hexact₂⟩ :=
      ih (fun q hq => hparts q (List.mem_cons_of_mem _ hq)) (by omega) (by omega) hnear₁ hexact
    refine ⟨sum₂, ?_, ?_, ?_⟩
    · rw [List.foldl_cons, hsum₁, hsum₂]
    · rwa [Nat.add_comm parts.length, ← Nat.add_assoc]
    · intro hsame hsmall
      exact hexact₂ (hexact₁ hsame (by omega)) hsmall

/-- The amounts of a duration are at most five, and a unit has at most the milliseconds of a day. -/
lemma parts_of_durationParts? {value : String} {parts : List (List Char × Nat)}
    (h : durationParts? value = some parts) : parts.length ≤ 5 ∧ ∀ p ∈ parts, 1 ≤ p.2 ∧ p.2 < 2 ^ 53 := by
  have hsublist := sublist_takeUnits durationUnits (Text.trim value.toList)
  have hparts : (takeUnits durationUnits (Text.trim value.toList)).1 = parts := by
    unfold durationParts? at h
    dsimp only at h
    split at h
    · cases h
    split at h
    · exact Option.some.inj h
    · cases h
  rw [hparts] at hsublist
  have hunits : ∀ ms ∈ durationUnits.map Prod.snd, 1 ≤ ms ∧ ms < 2 ^ 53 := by decide
  refine ⟨?_, fun p hp => hunits _ (hsublist.subset (List.mem_map_of_mem hp))⟩
  have hlength := hsublist.length_le
  rwa [List.length_map] at hlength

/-- A duration of up to `2 ^ 13` milliseconds below `2 ^ 63` is written as a whole number below `2 ^ 63`, and as the
sum of its amounts if this is at most `2 ^ 53`. -/
theorem exists_text_durationMilliseconds {value : String} {total : Nat} (h : IsDuration value total)
    (hrange : total ≤ 2 ^ 63 - 2 ^ 13) :
    ∃ n, n < 2 ^ 63 ∧ (total ≤ 2 ^ 53 → n = total) ∧
      (durationMilliseconds? value).map Number.text = some (String.ofList (Nat.toDigits 10 n)) := by
  obtain ⟨parts, hparts, rfl⟩ := durationParts?_iff.mpr h
  obtain ⟨hlength, hms⟩ := parts_of_durationParts? hparts
  obtain ⟨sum, hsum, hnear, hexact⟩ :=
    exists_foldl_addPart hms (Nat.le_refl 1) (by omega) (near_self 1 0) (by omega)
  rw [Nat.zero_add] at hnear hexact
  have hmilliseconds : durationMilliseconds? value = some (Number.ofNat sum) := by
    rw [durationMilliseconds?, hparts, Option.map_some]
    exact congrArg some hsum
  rw [hmilliseconds, Option.map_some]
  have hbelow : rounded sum < 2 ^ 63 := (hnear.rounded.mono (by omega : 1 + parts.length + 1 ≤ 7)).lt_of_seven hrange
  rcases Nat.lt_trichotomy sum (2 ^ 53) with hlt | rfl | hgt
  · exact ⟨sum, by omega, hexact rfl, by rw [Number.text_ofNat hlt]⟩
  · exact ⟨2 ^ 53, by decide, hexact rfl, by decide +kernel⟩
  · have hsmall : sum < 2 ^ 200 := hnear.lt_of_hundred (by omega) (by omega)
    obtain ⟨mantissa, shift, hm, hm', -, heq, hrounded⟩ := Number.exists_ofNat_eq hgt.le hsmall
    rw [hrounded] at hbelow
    obtain ⟨n, hn, htext⟩ := Number.exists_text_eq hm hm' hbelow
    refine ⟨n, hn, fun hsmall => ?_, by rw [heq, htext]⟩
    have hsame := hexact rfl hsmall
    omega

end DefaultValue

end EntitySchema
