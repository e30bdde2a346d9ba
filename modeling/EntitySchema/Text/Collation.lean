import EntitySchema.Text.LowerCase
import EntitySchema.Text.Units

/-!
# Collation

The order in which people look names up.  Texts are compared three times: by their letters alone, then
by the marks on the letters, then by case.  Each time a text is a list of weights, and the first of these
comparisons that tells two texts apart decides.
-/

namespace EntitySchema

namespace Collation

/-- The weights of a text, or of a part of it. -/
structure Weights where
  letters : List Nat
  marks : List Nat
  cases : List Nat
  deriving DecidableEq, Repr, Inhabited

/-- The blanks, punctuation marks and symbols that come first, in their order. -/
def leading : List Char :=
  "\t\n\x0b\x0c\r _-,;:!?.'\"()[]\x7b\x7d@*/\\&#%\x60^+<=>|~".toList

/-- The characters between the symbols and the letters, in their order. -/
def digits : List Char :=
  "$0123456789".toList

/-- The symbols beyond the basic ones: they stand between those and the digits. -/
def isSymbol (c : Char) : Bool :=
  let n := c.toNat
  (0xA0 ≤ n && n < 0xC0 && n != 0xAA && n != 0xBA) || n == 0xD7 || n == 0xF7 ||
    (0x2000 ≤ n && n < 0x2C00) || (0x3000 ≤ n && n < 0x3040) || (0x1F000 ≤ n && n < 0x1FB00)

/-- The weight of the character at an index of a group; all of one group stand before all of the next. -/
def groupWeight (group index : Nat) : Nat :=
  group * Nat.pow 2 21 + index

/-- A mark, the letters that may bear it, and these letters with the mark. -/
structure MarkedLetters where
  mark : Nat
  plain : String
  marked : String

/-- The Latin letters with one mark.  The marks are numbered in their order: acute, grave, breve,
circumflex, caron, ring, diaeresis, double acute, tilde, dot, stroke, cedilla, ogonek, macron. -/
def markedLetters : List MarkedLetters := [
  ⟨1, "AEIOUYaeiouyCcLlNnRrSsZz", "ÁÉÍÓÚÝáéíóúýĆćĹĺŃńŔŕŚśŹź"⟩,
  ⟨2, "AEIOUaeiou", "ÀÈÌÒÙàèìòù"⟩,
  ⟨3, "AaEeGgIiOoUu", "ĂăĔĕĞğĬĭŎŏŬŭ"⟩,
  ⟨4, "AEIOUaeiouCcGgHhJjSsWwYy", "ÂÊÎÔÛâêîôûĈĉĜĝĤĥĴĵŜŝŴŵŶŷ"⟩,
  ⟨5, "CcDdEeLlNnRrSsTtZz", "ČčĎďĚěĽľŇňŘřŠšŤťŽž"⟩,
  ⟨6, "AaUu", "ÅåŮů"⟩,
  ⟨7, "AEIOUaeiouyY", "ÄËÏÖÜäëïöüÿŸ"⟩,
  ⟨8, "OoUu", "ŐőŰű"⟩,
  ⟨9, "ANOanoIiUu", "ÃÑÕãñõĨĩŨũ"⟩,
  ⟨10, "CcEeGgIZz", "ĊċĖėĠġİŻż"⟩,
  ⟨11, "OoDdHhLlTt", "ØøĐđĦħŁłŦŧ"⟩,
  ⟨12, "CcGgKkLlNnRrSsTt", "ÇçĢģĶķĻļŅņŖŗŞşŢţ"⟩,
  ⟨13, "AaEeIiUu", "ĄąĘęĮįŲų"⟩,
  ⟨14, "AaEeIiOoUu", "ĀāĒēĪīŌōŪū"⟩]

/-- The code points of the marks as characters of their own, in the order of the marks. -/
def combiningMarks : List Nat :=
  [0x301, 0x300, 0x306, 0x302, 0x30C, 0x30A, 0x308, 0x30B, 0x303, 0x307, 0x338, 0x327, 0x328, 0x304]

/-- The letter and the mark that a letter with a mark consists of. -/
def splitMark? (c : Char) : Option (Char × Nat) :=
  markedLetters.findSome? fun m =>
    ((m.marked.toList.zip m.plain.toList).find? (·.1 == c)).map fun p => (p.2, m.mark)

/-- The weight of a letter without mark.  Letters of one alphabet stand in the order of their code
points, whatever their case. -/
def letterWeight (c : Char) : Nat :=
  groupWeight 3 (Text.lowerChar c).toNat

/-- The weight of the case of a letter: small letters come first. -/
def caseWeight (c : Char) : Nat :=
  if Text.lowerChar c = c then 0 else 1

/-- Whether a character has no weight at all. -/
def isIgnored (c : Char) : Bool :=
  c.toNat < 0x20 || c.toNat == 0x7F

/-- The weights of a character. -/
def ofChar (c : Char) : Weights :=
  if leading.contains c then ⟨[groupWeight 0 (leading.idxOf c)], [0], [0]⟩
  else if isSymbol c then ⟨[groupWeight 1 c.toNat], [0], [0]⟩
  else if digits.contains c then ⟨[groupWeight 2 (digits.idxOf c)], [0], [0]⟩
  else if isIgnored c then ⟨[], [], []⟩
  else if combiningMarks.contains c.toNat then ⟨[], [combiningMarks.idxOf c.toNat + 1], [0]⟩
  else
    match splitMark? c with
    | some (base, mark) => ⟨[letterWeight base], [0, mark], [caseWeight base, 0]⟩
    | none => ⟨[letterWeight c], [0], [caseWeight c]⟩

/-- The weights of a text. -/
def weights (s : String) : Weights :=
  let parts := s.toList.map ofChar
  ⟨parts.flatMap (·.letters), parts.flatMap (·.marks), parts.flatMap (·.cases)⟩

/-- The order of two lists of weights. -/
def Weights.compare (v w : Weights) : Ordering :=
  ((Text.compareUnits v.letters w.letters).then (Text.compareUnits v.marks w.marks)).then
    (Text.compareUnits v.cases w.cases)

/-- Whether one text comes before another or neither comes first. -/
def le (s t : String) : Bool :=
  (weights s).compare (weights t) != .gt

/-- The texts in their order.  Texts of the same weights stay in the order they come in. -/
def sortBy {α : Type} (text : α → String) (xs : List α) : List α :=
  xs.mergeSort fun a b => le (text a) (text b)

end Collation

end EntitySchema
