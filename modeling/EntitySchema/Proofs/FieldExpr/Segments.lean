import Mathlib.Data.List.TakeWhile
import Mathlib.Tactic.Common
import EntitySchema.Proofs.FieldExpr.Pieces
import EntitySchema.Proofs.TypeExpr.Grammar

/-!
# Where segments stand

A text is cut at the commas outside of quotes and brackets and nowhere else, and every segment knows where its
trimmed piece stands (`Cuts`).  Splitting does this for every text (`cuts_split`).  A segment of a text that starts
at an offset has offsets inside of this text (`CutFrom`), also if the text is itself inside of a segment of a longer
text (`CutFrom.inside`), and in the whole text the offsets give back the text of the segment (`CutFrom.isSliceOf`).
-/

namespace EntitySchema

open Text (units IsBlanks)

namespace Segment

/-! ### Cutting at commas -/

/-- Where the reader is behind a text. -/
def Level.behind (l : Level) (cs : List Char) : Level :=
  cs.foldl Level.after l

/-- No comma of the text is outside of quotes and brackets, if the text starts at the level. -/
def Uncut (l : Level) (cs : List Char) : Prop :=
  ∀ before after, cs = before ++ ',' :: after → l.behind before ≠ {}

/-- The segment is the trimmed piece, which starts at the offset. -/
structure Trims (s : Segment) (offset : Nat) (piece : List Char) : Prop where
  exists_blanks : ∃ before after, IsBlanks before ∧ IsBlanks after ∧ piece = before ++ s.text.toList ++ after ∧
    s.start = offset + units before
  stop_eq : s.stop = s.start + units s.text.toList
  head : ∀ c ∈ s.text.toList.head?, Text.isBlank c = false
  last : ∀ c ∈ s.text.toList.getLast?, Text.isBlank c = false

/-- The segments are what stands between the commas of a text outside of quotes and brackets; the text starts at the
offset, and one unit separates two pieces. -/
inductive Cuts : Level → Nat → List Segment → List Char → Prop
  | last {l : Level} {offset : Nat} {s : Segment} {piece : List Char} (huncut : Uncut l piece)
      (h : s.Trims offset piece) : Cuts l offset [s] piece
  | more {l : Level} {offset : Nat} {s : Segment} {ss : List Segment} {piece rest : List Char}
      (huncut : Uncut l piece) (hclosed : l.behind piece = {}) (h : s.Trims offset piece)
      (hrest : Cuts {} (offset + units piece + 1) ss rest) : Cuts l offset (s :: ss) (piece ++ ',' :: rest)

/-- No separator of the text is outside of quotes and brackets, if the text starts at the level. -/
def UncutAt (sep : Char) (l : Level) (cs : List Char) : Prop :=
  ∀ before after, cs = before ++ sep :: after → l.behind before ≠ {}

/-- A character that is neither a quote nor a bracket. -/
structure IsPlain (c : Char) : Prop where
  isQuote_eq : isQuote c = false
  isOpening_eq : isOpening c = false
  isClosing_eq : isClosing c = false

lemma isPlain_comma : IsPlain ',' := ⟨rfl, rfl, rfl⟩

lemma splits_iff {sep : Char} (hsep : IsPlain sep) (l : Level) (c : Char) :
    l.splits (· == sep) c = true ↔ c = sep ∧ l = {} := by
  obtain ⟨quote, depth⟩ := l
  simp only [Level.splits, Bool.and_eq_true, Option.isNone_iff_eq_none, beq_iff_eq, Bool.not_eq_true', Level.mk.injEq]
  constructor
  · rintro ⟨⟨⟨⟨hquote, hdepth⟩, -⟩, -⟩, hc⟩
    exact ⟨hc, hquote, hdepth⟩
  · rintro ⟨rfl, hquote, hdepth⟩
    exact ⟨⟨⟨⟨hquote, hdepth⟩, hsep.isQuote_eq⟩, hsep.isOpening_eq⟩, rfl⟩

lemma uncutAt_nil (sep : Char) (l : Level) : UncutAt sep l [] := by
  intro before after h
  simp at h

/-- A character that is not cut at may be put in front. -/
lemma UncutAt.cons {sep : Char} {l : Level} {c : Char} {cs : List Char} (hc : ¬ (c = sep ∧ l = {}))
    (h : UncutAt sep (l.after c) cs) : UncutAt sep l (c :: cs) := by
  intro before after hsplit
  cases before with
  | nil =>
    obtain ⟨hsep, -⟩ := List.cons.inj hsplit
    exact fun hlevel => hc ⟨hsep, hlevel⟩
  | cons d before =>
    obtain ⟨rfl, hrest⟩ := List.cons.inj hsplit
    exact h before after hrest

/-- The pieces of a text: the text itself, or what stands in front of the first separator outside of quotes and
brackets and the pieces of what stands behind it. -/
lemma pieces_cases {sep : Char} (hsep : IsPlain sep) (l : Level) (cs : List Char) :
    (UncutAt sep l cs ∧ pieces (· == sep) l cs = [cs]) ∨
      ∃ piece rest, cs = piece ++ sep :: rest ∧ UncutAt sep l piece ∧ l.behind piece = {} ∧
        pieces (· == sep) l cs = piece :: pieces (· == sep) {} rest := by
  induction cs generalizing l with
  | nil => exact .inl ⟨uncutAt_nil sep l, rfl⟩
  | cons c cs ih =>
    rw [pieces]
    split
    · rename_i hsplits
      obtain ⟨rfl, rfl⟩ := (splits_iff hsep l c).mp hsplits
      exact .inr ⟨[], cs, rfl, uncutAt_nil c _, rfl, rfl⟩
    · rename_i hsplits
      rw [splits_iff hsep] at hsplits
      rcases ih (l.after c) with ⟨huncut, hpieces⟩ | ⟨piece, rest, rfl, huncut, hclosed, hpieces⟩
      · rw [hpieces]
        exact .inl ⟨huncut.cons hsplits, rfl⟩
      · rw [hpieces]
        exact .inr ⟨c :: piece, rest, rfl, huncut.cons hsplits, hclosed, rfl⟩

/-! ### Trimming -/

lemma isBlanks_trailingBlanks (cs : List Char) : IsBlanks (Text.trailingBlanks cs) := by
  intro c hc
  rw [Text.trailingBlanks, List.mem_reverse] at hc
  exact List.mem_takeWhile_imp hc

/-- A text that starts with no white space starts with none without the white space at its end. -/
lemma head?_trimEnd {cs : List Char} (h : ∀ c ∈ cs.head?, Text.isBlank c = false) :
    ∀ c ∈ (Text.trimEnd cs).head?, Text.isBlank c = false := by
  intro c hc
  refine h c ?_
  rw [← Text.trimEnd_append_trailingBlanks cs, List.head?_append, hc]
  rfl

lemma head?_trimStart (cs : List Char) : ∀ c ∈ (Text.trimStart cs).head?, Text.isBlank c = false := by
  intro c hc
  have hnot := List.head?_dropWhile_not Text.isBlank cs
  rw [Text.trimStart] at hc
  rw [Option.mem_def.mp hc] at hnot
  exact hnot

lemma getLast?_trimEnd (cs : List Char) : ∀ c ∈ (Text.trimEnd cs).getLast?, Text.isBlank c = false := by
  intro c hc
  rw [Text.trimEnd, List.getLast?_reverse] at hc
  exact head?_trimStart cs.reverse c hc

lemma trims_ofPiece (offset : Nat) (piece : List Char) : (ofPiece offset piece).Trims offset piece := by
  have htext : (ofPiece offset piece).text.toList = Text.trim piece := String.toList_ofList
  refine ⟨⟨piece.takeWhile Text.isBlank, Text.trailingBlanks (Text.trimStart piece), ?_, ?_, ?_, rfl⟩, ?_, ?_, ?_⟩
  · exact fun c hc => List.mem_takeWhile_imp hc
  · exact isBlanks_trailingBlanks _
  · rw [htext, List.append_assoc, Text.trim, Text.trimEnd_append_trailingBlanks, Text.takeWhile_append_trimStart]
  · rw [htext]
    rfl
  · rw [htext]
    exact head?_trimEnd (head?_trimStart piece)
  · rw [htext]
    exact getLast?_trimEnd _

/-! ### Segments of a text -/

lemma cuts_ofPieces (l : Level) (offset : Nat) (cs : List Char) :
    Cuts l offset (ofPieces offset (pieces (· == ',') l cs)) cs := by
  induction hlength : cs.length using Nat.strong_induction_on generalizing l offset cs with
  | _ n ih =>
    rcases pieces_cases isPlain_comma l cs with ⟨huncut, hpieces⟩ | ⟨piece, rest, rfl, huncut, hclosed, hpieces⟩
    · rw [hpieces]
      exact .last huncut (trims_ofPiece offset cs)
    · have hshorter : rest.length < n := by
        rw [← hlength, List.length_append, List.length_cons]
        omega
      rw [hpieces]
      exact .more huncut hclosed (trims_ofPiece offset piece) (ih rest.length hshorter {} _ rest rfl)

/-- Splitting cuts a text at the commas outside of quotes and brackets. -/
theorem cuts_split (cs : List Char) (offset : Nat) : Cuts {} offset (split cs offset) cs := by
  rw [split_eq_ofPieces]
  exact cuts_ofPieces {} offset cs

/-- The segment is a part of the text, which starts at the offset. -/
structure CutFrom (s : Segment) (offset : Nat) (cs : List Char) : Prop where
  exists_around : ∃ before after, cs = before ++ s.text.toList ++ after ∧ s.start = offset + units before
  stop_eq : s.stop = s.start + units s.text.toList

lemma Trims.cutFrom {s : Segment} {offset : Nat} {piece : List Char} (h : s.Trims offset piece) :
    s.CutFrom offset piece := by
  obtain ⟨before, after, -, -, hpiece, hstart⟩ := h.exists_blanks
  exact ⟨⟨before, after, hpiece, hstart⟩, h.stop_eq⟩

/-- A part of a part of a text is a part of the text. -/
lemma CutFrom.extend {s : Segment} {offset : Nat} {front cs : List Char} (h : s.CutFrom (offset + units front) cs)
    (back : List Char) : s.CutFrom offset (front ++ cs ++ back) := by
  obtain ⟨⟨before, after, rfl, hstart⟩, hstop⟩ := h
  refine ⟨⟨front ++ before, after ++ back, by simp, ?_⟩, hstop⟩
  rw [hstart, Text.units_append, Nat.add_assoc]

/-- A part of what is inside of a segment is a part of the text of the segment. -/
lemma CutFrom.inside {s p : Segment} {offset : Nat} {cs front inner back : List Char} (h : s.CutFrom offset cs)
    (htext : s.text.toList = front ++ inner ++ back) (hp : p.CutFrom (s.start + units front) inner) :
    p.CutFrom offset cs := by
  obtain ⟨⟨before, after, rfl, hstart⟩, -⟩ := h
  rw [hstart, Nat.add_assoc, ← Text.units_append] at hp
  have hwhole := hp.extend (back ++ after)
  rw [htext]
  simpa using hwhole

lemma Cuts.cutFrom {l : Level} {offset : Nat} {ss : List Segment} {cs : List Char} (h : Cuts l offset ss cs) :
    ∀ s ∈ ss, s.CutFrom offset cs := by
  induction h with
  | last _ h =>
    intro s hs
    rw [List.mem_singleton.mp hs]
    exact h.cutFrom
  | @more l offset s ss piece rest _ _ h _ ih =>
    intro s' hs'
    rcases List.mem_cons.mp hs' with rfl | hs'
    · have hfirst : s'.CutFrom (offset + units []) piece := h.cutFrom
      exact hfirst.extend (',' :: rest)
    · have hlater : s'.CutFrom (offset + units (piece ++ [','])) rest := by
        rw [Text.units_append]
        exact ih s' hs'
      simpa using hlater.extend []

/-- The offsets of the segment are offsets of the text, and the text between them is the text of the segment. -/
structure IsSliceOf (s : Segment) (text : String) : Prop where
  start_le_stop : s.start ≤ s.stop
  stop_le : s.stop ≤ units text.toList
  slice_eq : String.ofList (Text.slice text.toList s.start s.stop) = s.text

lemma CutFrom.isSliceOf {s : Segment} {text : String} (h : s.CutFrom 0 text.toList) : s.IsSliceOf text := by
  obtain ⟨⟨before, after, htext, hstart⟩, hstop⟩ := h
  rw [Nat.zero_add] at hstart
  refine ⟨by omega, ?_, ?_⟩
  · rw [htext, Text.units_append, Text.units_append]
    omega
  · rw [hstop, hstart, htext, Text.slice_append, String.ofList_toList]

end Segment

end EntitySchema
