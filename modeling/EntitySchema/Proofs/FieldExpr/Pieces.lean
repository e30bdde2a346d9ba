import Mathlib.Tactic.Common
import EntitySchema.FieldExpr.Segment

/-!
# The pieces of a text

What stands between the separators of a text is read off the text alone, without an index (`pieces`).  The scanner
keeps two indices, the one where its piece starts and the one where it is.  The text between the two is the part of the
piece that is behind it, in front of a separator it is the whole piece, and one unit further the next piece starts.  So
the segments are those of the pieces, of which each one starts behind the pieces in front of it (`splitBy_eq_ofPieces`).
-/

namespace EntitySchema

open Text (units)

namespace Segment

/-- The pieces of a text between its separators, from a level on. -/
def pieces (isSeparator : Char → Bool) (l : Level) : List Char → List (List Char)
  | [] => [[]]
  | c :: cs =>
    if l.splits isSeparator c then [] :: pieces isSeparator l cs
    else
      match pieces isSeparator (l.after c) cs with
      | [] => [[c]]
      | p :: ps => (c :: p) :: ps

/-- The trimmed piece that starts at an offset. -/
def ofPiece (offset : Nat) (piece : List Char) : Segment :=
  let start := offset + units (piece.takeWhile Text.isBlank)
  let body := Text.trim piece
  ⟨String.ofList body, start, start + units body⟩

/-- The segments of pieces of which the first starts at an offset; one unit separates two pieces. -/
def ofPieces (offset : Nat) : List (List Char) → List Segment
  | [] => []
  | p :: ps => ofPiece offset p :: ofPieces (offset + units p + 1) ps

variable {isSeparator : Char → Bool}

/-- A text has at least one piece. -/
lemma pieces_ne_nil (isSeparator : Char → Bool) (l : Level) (cs : List Char) :
    pieces isSeparator l cs ≠ [] := by
  induction cs generalizing l with
  | nil => simp [pieces]
  | cons c cs ih =>
    rw [pieces]
    split
    · simp
    · cases h : pieces isSeparator (l.after c) cs with
      | nil => simp
      | cons p ps => simp

/-- What the reader is behind goes in front of the first of the pieces that are left. -/
def behindOf (current : List Char) : List (List Char) → List (List Char)
  | [] => [current]
  | p :: ps => (current ++ p) :: ps

lemma behindOf_nil {ps : List (List Char)} (h : ps ≠ []) : behindOf [] ps = ps := by
  cases ps with
  | nil => exact absurd rfl h
  | cons p ps => rw [behindOf, List.nil_append]

/-- A part of a text is the segment of the piece that stands there. -/
lemma create_eq_ofPiece (front piece back : List Char) (offset : Nat) :
    create (front ++ piece ++ back) (units front) (units (front ++ piece)) offset =
      ofPiece (offset + units front) piece := by
  have hraw : Text.slice (front ++ piece ++ back) (units front) (units (front ++ piece)) = piece := by
    rw [Text.units_append, Text.slice_append]
  have hleading : units piece - units (Text.trimStart piece) = units (piece.takeWhile Text.isBlank) := by
    have hpiece := congrArg units (Text.takeWhile_append_trimStart piece)
    rw [Text.units_append] at hpiece
    omega
  rw [create, hraw, hleading]
  rfl

/-- The induction is on the rest of the text: behind a front, the reader is behind a part of a piece. -/
lemma scan_eq_ofPieces (hwidth : ∀ c, isSeparator c = true → Text.width c = 1) (offset : Nat)
    (front current rest : List Char) (l : Level) :
    scan isSeparator (front ++ current ++ rest) offset l (units front) (units (front ++ current)) rest =
      ofPieces (offset + units front) (behindOf current (pieces isSeparator l rest)) := by
  induction rest generalizing front current l with
  | nil =>
    have hlast := create_eq_ofPiece front current [] offset
    rw [scan, pieces, behindOf, ofPieces, ofPieces, hlast, List.append_nil]
  | cons c cs ih =>
    rw [scan, pieces]
    by_cases hsplits : l.splits isSeparator c = true
    · -- The piece ends here, and the next one starts behind the separator.
      have hsep : Text.width c = 1 := hwidth c (Bool.and_eq_true_iff.mp hsplits).2
      have hrest := ih (front ++ current ++ [c]) [] l
      have hindex : units (front ++ current ++ [c]) = units (front ++ current) + 1 := by
        rw [Text.units_append, units, units, hsep]
      have hoffset : offset + units (front ++ current ++ [c]) = offset + units front + units current + 1 := by
        rw [hindex, Text.units_append]
        omega
      rw [List.append_nil, hoffset, hindex, List.append_assoc _ [c] cs, List.singleton_append] at hrest
      rw [behindOf_nil (pieces_ne_nil isSeparator l cs)] at hrest
      rw [if_pos hsplits, if_pos hsplits, create_eq_ofPiece, hsep, hrest, behindOf, ofPieces, List.append_nil]
    · have hrest := ih front (current ++ [c]) (l.after c)
      have hindex : units (front ++ (current ++ [c])) = units (front ++ current) + Text.width c := by
        rw [← List.append_assoc, Text.units_append (front ++ current) [c]]
        rfl
      have htext : front ++ (current ++ [c]) ++ cs = front ++ current ++ c :: cs := by simp
      rw [hindex, htext] at hrest
      rw [if_neg hsplits, if_neg hsplits, hrest]
      cases hpieces : pieces isSeparator (l.after c) cs with
      | nil => exact absurd hpieces (pieces_ne_nil isSeparator (l.after c) cs)
      | cons p ps => rw [behindOf, behindOf, List.append_assoc, List.singleton_append]

/-- The segments of a text are those of its pieces. -/
theorem splitBy_eq_ofPieces {sep : Char} (hsep : Text.width sep = 1) (text : List Char) (offset : Nat) :
    splitBy (· == sep) text offset = ofPieces offset (pieces (· == sep) {} text) := by
  have hwidth : ∀ c, (c == sep) = true → Text.width c = 1 := fun c hc => eq_of_beq hc ▸ hsep
  have hscan := scan_eq_ofPieces hwidth offset [] [] text {}
  rw [behindOf_nil (pieces_ne_nil (· == sep) {} text)] at hscan
  exact hscan

lemma split_eq_ofPieces (text : List Char) (offset : Nat) :
    split text offset = ofPieces offset (pieces (· == ',') {} text) :=
  splitBy_eq_ofPieces rfl text offset

lemma split_ne_nil (cs : List Char) (offset : Nat) : split cs offset ≠ [] := by
  rw [split_eq_ofPieces]
  cases h : pieces (· == ',') {} cs with
  | nil => exact absurd h (pieces_ne_nil _ _ _)
  | cons p ps => exact List.cons_ne_nil _ _

end Segment

end EntitySchema
