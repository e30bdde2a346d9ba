/-!
# Text measured in UTF-16 code units

Offsets, columns, lengths and distances count UTF-16 code units: a character below `U+10000` is one
unit, any other character is two.  Text is a list of characters; this file holds the measure, the
cuts at a given number of units, and the order of texts by their units.
-/

namespace EntitySchema

namespace Text

/-- The number of UTF-16 code units of a character. -/
def width (c : Char) : Nat :=
  if c.toNat < 0x10000 then 1 else 2

/-- The number of UTF-16 code units of a text. -/
def units : List Char → Nat
  | [] => 0
  | c :: cs => width c + units cs

/-- Every character takes at least one unit. -/
theorem width_pos (c : Char) : 0 < width c := by
  unfold width; split <;> decide

/-- Concatenation adds the measures. -/
theorem units_append (s t : List Char) : units (s ++ t) = units s + units t := by
  induction s with
  | nil => simp [units]
  | cons c s ih => simp [units, ih, Nat.add_assoc]

/-- What is left of a text after its first `n` units. -/
def dropUnits (n : Nat) : List Char → List Char
  | [] => []
  | c :: cs => if n = 0 then c :: cs else dropUnits (n - width c) cs

/-- The first `n` units of a text. -/
def takeUnits (n : Nat) : List Char → List Char
  | [] => []
  | c :: cs => if n = 0 then [] else c :: takeUnits (n - width c) cs

/-- The part of a text between two offsets. -/
def slice (cs : List Char) (start stop : Nat) : List Char :=
  takeUnits (stop - start) (dropUnits start cs)

/-- Dropping the measure of the first part of a text leaves the second part. -/
theorem dropUnits_units_append (s t : List Char) : dropUnits (units s) (s ++ t) = t := by
  induction s with
  | nil => cases t <;> simp [units, dropUnits]
  | cons c s ih =>
    have h := width_pos c
    simp only [List.cons_append, dropUnits, units]
    rw [if_neg (by omega), Nat.add_sub_cancel_left, ih]

/-- Taking the measure of the first part of a text gives the first part. -/
theorem takeUnits_units_append (s t : List Char) : takeUnits (units s) (s ++ t) = s := by
  induction s with
  | nil => cases t <;> simp [units, takeUnits]
  | cons c s ih =>
    have h := width_pos c
    simp only [List.cons_append, takeUnits, units]
    rw [if_neg (by omega), Nat.add_sub_cancel_left, ih]

/-- The part of a text at the offsets of one of its segments is that segment. -/
theorem slice_append (s t u : List Char) :
    slice (s ++ t ++ u) (units s) (units s + units t) = t := by
  unfold slice
  rw [List.append_assoc, dropUnits_units_append, Nat.add_sub_cancel_left, takeUnits_units_append]

/-! ### Code units and their order -/

/-- The code units of a character: itself, or its two surrogates. -/
def codeUnitsOf (c : Char) : List Nat :=
  if c.toNat < 0x10000 then [c.toNat]
  else [0xD800 + (c.toNat - 0x10000) / 0x400, 0xDC00 + (c.toNat - 0x10000) % 0x400]

/-- The code units of a text. -/
def codeUnits (cs : List Char) : List Nat :=
  cs.flatMap codeUnitsOf

/-- A text has as many code units as its measure says. -/
theorem length_codeUnits (cs : List Char) : (codeUnits cs).length = units cs := by
  induction cs with
  | nil => rfl
  | cons c cs ih =>
    have h : codeUnits (c :: cs) = codeUnitsOf c ++ codeUnits cs := by simp [codeUnits]
    rw [h, List.length_append, ih, units]
    congr 1
    unfold codeUnitsOf width
    split <;> rfl

/-- The lexicographic comparison of two lists of numbers; a proper initial segment comes first. -/
def compareUnits : List Nat → List Nat → Ordering
  | [], [] => .eq
  | [], _ :: _ => .lt
  | _ :: _, [] => .gt
  | a :: as, b :: bs => if a < b then .lt else if b < a then .gt else compareUnits as bs

/-- The order of two strings by their code units. -/
def compare (s t : String) : Ordering :=
  compareUnits (codeUnits s.toList) (codeUnits t.toList)

/-- Whether `s` comes before `t` or is equal to it, by code units. -/
def le (s t : String) : Bool :=
  compare s t != .gt

/-- Comparing the other way round gives the opposite order. -/
theorem compareUnits_swap (as bs : List Nat) : compareUnits bs as = (compareUnits as bs).swap := by
  induction as generalizing bs with
  | nil => cases bs <;> rfl
  | cons a as ih =>
    cases bs with
    | nil => rfl
    | cons b bs =>
      rcases Nat.lt_trichotomy a b with h | rfl | h
      · simp [compareUnits, h, Nat.lt_asymm h]
      · simp [compareUnits, ih bs]
      · simp [compareUnits, h, Nat.lt_asymm h]

/-- Of two strings one comes before the other or they are equal. -/
theorem le_total (s t : String) : le s t = true ∨ le t s = true := by
  unfold le compare
  rw [compareUnits_swap]
  cases compareUnits (codeUnits t.toList) (codeUnits s.toList) <;> simp

end Text

end EntitySchema
