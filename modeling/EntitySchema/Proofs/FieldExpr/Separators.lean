import Mathlib.Data.Set.Card
import Mathlib.Tactic.Common
import EntitySchema.Proofs.FieldExpr.Segments

/-!
# Splitting loses nothing

A separator of a text is at the top level if all quotes in front of it are closed and, outside of these quotes, as many
brackets are closed as are opened, where a bracket that closes nothing does not count (`SeparatorAt`).  The level of the
reader says this (`behind_eq_iff`), so a text is put together from its pieces, which are joined at the separators at the
top level and at no other place (`CutsAt`).  What holds of the segments of a text, where they stand (`CutFrom`) and what
stands between two of them (`Separated`), follows by induction over the pieces.
-/

namespace EntitySchema

open Text (units IsBlanks)

namespace Segment

/-! ### The top level of a text -/

/-- What stands outside of the quotes of a text in which every quote is closed. -/
inductive Outside : List Char → List Char → Prop
  | nil : Outside [] []
  | plain {c : Char} {cs outside : List Char} (hc : isQuote c = false) (h : Outside cs outside) :
      Outside (c :: cs) (c :: outside)
  | quoted {q : Char} {inner cs outside : List Char} (hq : isQuote q = true) (hinner : q ∉ inner)
      (h : Outside cs outside) : Outside (q :: (inner ++ q :: cs)) outside

/-- How many brackets are open behind a character; a bracket that closes nothing does not count. -/
def bracketsAfter (n : Nat) (c : Char) : Nat :=
  if isOpening c then n + 1 else if isClosing c then n - 1 else n

/-- How many brackets are open behind a text without quotes. -/
def openBrackets (n : Nat) (cs : List Char) : Nat :=
  cs.foldl bracketsAfter n

/-- Behind the text all quotes and brackets are closed. -/
def TopLevel (front : List Char) : Prop :=
  ∃ outside, Outside front outside ∧ openBrackets 0 outside = 0

/-- The character at the position is a separator at the top level. -/
def SeparatorAt (sep : Char) (text : List Char) (k : Nat) : Prop :=
  text[k]? = some sep ∧ TopLevel (text.take k)

lemma after_of_isQuote {c : Char} (hc : isQuote c = true) (n : Nat) :
    (⟨none, n⟩ : Level).after c = ⟨some c, n⟩ := by
  simp only [Level.after, hc, if_true]

lemma after_outside {c : Char} (hc : isQuote c = false) (n : Nat) :
    (⟨none, n⟩ : Level).after c = ⟨none, bracketsAfter n c⟩ := by
  simp only [Level.after, hc, bracketsAfter, Bool.false_eq_true, if_false]
  split_ifs <;> rfl

lemma after_quoted (q c : Char) (n : Nat) :
    (⟨some q, n⟩ : Level).after c = if c = q then ⟨none, n⟩ else ⟨some q, n⟩ := by
  simp only [Level.after, beq_iff_eq]

lemma behind_append (l : Level) (s t : List Char) : l.behind (s ++ t) = (l.behind s).behind t :=
  List.foldl_append

lemma behind_cons (l : Level) (c : Char) (cs : List Char) : l.behind (c :: cs) = (l.after c).behind cs :=
  rfl

/-- A quote goes on up to the same quote. -/
lemma behind_inner {q : Char} {inner : List Char} (n : Nat) (h : q ∉ inner) :
    (⟨some q, n⟩ : Level).behind inner = ⟨some q, n⟩ := by
  induction inner with
  | nil => rfl
  | cons c cs ih =>
    obtain ⟨hc, hcs⟩ := List.ne_and_not_mem_of_not_mem_cons h
    rw [behind_cons, after_quoted, if_neg (Ne.symm hc), ih hcs]

lemma behind_quoted {q : Char} {inner cs : List Char} (n : Nat) (hq : isQuote q = true) (hinner : q ∉ inner) :
    (⟨none, n⟩ : Level).behind (q :: (inner ++ q :: cs)) = (⟨none, n⟩ : Level).behind cs := by
  rw [behind_cons, after_of_isQuote hq, behind_append, behind_inner n hinner, behind_cons, after_quoted, if_pos rfl]

/-- A quote that is closed later has its other end. -/
lemma exists_inner {q : Char} {n m : Nat} {cs : List Char} (h : (⟨some q, n⟩ : Level).behind cs = ⟨none, m⟩) :
    ∃ inner rest, cs = inner ++ q :: rest ∧ q ∉ inner ∧ (⟨none, n⟩ : Level).behind rest = ⟨none, m⟩ := by
  induction cs with
  | nil => cases h
  | cons c cs ih =>
    rw [behind_cons, after_quoted] at h
    split at h
    · rename_i hc
      exact ⟨[], cs, by rw [hc, List.nil_append], List.not_mem_nil, h⟩
    · rename_i hc
      obtain ⟨inner, rest, rfl, hinner, hrest⟩ := ih h
      exact ⟨c :: inner, rest, rfl, List.not_mem_cons_of_ne_of_not_mem (Ne.symm hc) hinner, hrest⟩

/-- The reader is outside of quotes behind a text if all quotes of the text are closed, and it counts the brackets that
are open outside of them. -/
lemma behind_eq_iff (n m : Nat) (cs : List Char) :
    (⟨none, n⟩ : Level).behind cs = ⟨none, m⟩ ↔ ∃ outside, Outside cs outside ∧ openBrackets n outside = m := by
  constructor
  · -- A quote is passed in one step, up to its other end, so the induction is on the length.
    induction hlength : cs.length using Nat.strong_induction_on generalizing n cs with
    | _ len ih =>
      intro h
      cases cs with
      | nil => exact ⟨[], .nil, (Level.mk.inj h).2⟩
      | cons c cs =>
        rw [List.length_cons] at hlength
        rcases Bool.eq_false_or_eq_true (isQuote c) with hc | hc
        · rw [behind_cons, after_of_isQuote hc] at h
          obtain ⟨inner, rest, rfl, hinner, hrest⟩ := exists_inner h
          have hshorter : rest.length < len := by
            rw [List.length_append, List.length_cons] at hlength
            omega
          obtain ⟨outside, houtside, hopen⟩ := ih rest.length hshorter n rest rfl hrest
          exact ⟨outside, .quoted hc hinner houtside, hopen⟩
        · rw [behind_cons, after_outside hc] at h
          obtain ⟨outside, houtside, hopen⟩ := ih cs.length (by omega) (bracketsAfter n c) cs rfl h
          exact ⟨c :: outside, .plain hc houtside, hopen⟩
  · rintro ⟨outside, houtside, rfl⟩
    induction houtside generalizing n with
    | nil => rfl
    | plain hc _ ih =>
      rw [behind_cons, after_outside hc]
      exact ih (bracketsAfter n _)
    | quoted hq hinner _ ih =>
      rw [behind_quoted n hq hinner]
      exact ih n

lemma topLevel_iff (front : List Char) : TopLevel front ↔ Level.behind {} front = {} :=
  (behind_eq_iff 0 0 front).symm

/-! ### The pieces of a text -/

/-- The positions at which pieces are joined by one character. -/
def joins : List (List Char) → List Nat
  | p :: q :: ps => p.length :: (joins (q :: ps)).map (· + (p.length + 1))
  | _ => []

lemma length_joins (p : List Char) (ps : List (List Char)) : (joins (p :: ps)).length = ps.length := by
  induction ps generalizing p with
  | nil => rfl
  | cons q ps ih => rw [joins, List.length_cons, List.length_map, ih, List.length_cons]

lemma joins_increasing (p : List Char) (ps : List (List Char)) : (joins (p :: ps)).Pairwise (· < ·) := by
  induction ps generalizing p with
  | nil => exact .nil
  | cons q ps ih =>
    rw [joins, List.pairwise_cons, List.pairwise_map]
    refine ⟨?_, (ih q).imp fun h => Nat.add_lt_add_right h _⟩
    intro k hk
    obtain ⟨j, -, rfl⟩ := List.mem_map.mp hk
    omega

/-- A text is put together from its pieces, with a separator between two of them; a piece has no separator at the top
level, and behind every piece but the last one all quotes and brackets are closed. -/
inductive CutsAt (sep : Char) : List (List Char) → List Char → Prop
  | last {piece : List Char} (huncut : UncutAt sep {} piece) : CutsAt sep [piece] piece
  | more {piece q rest : List Char} {ps : List (List Char)} (huncut : UncutAt sep {} piece)
      (hclosed : Level.behind {} piece = {}) (hrest : CutsAt sep (q :: ps) rest) :
      CutsAt sep (piece :: q :: ps) (piece ++ sep :: rest)

section Pieces

variable {sep : Char} {ps : List (List Char)} {cs : List Char}

lemma cutsAt_pieces (hsep : IsPlain sep) (cs : List Char) : CutsAt sep (pieces (· == sep) {} cs) cs := by
  induction hlength : cs.length using Nat.strong_induction_on generalizing cs with
  | _ n ih =>
    rcases pieces_cases hsep {} cs with ⟨huncut, hpieces⟩ | ⟨piece, rest, rfl, huncut, hclosed, hpieces⟩
    · rw [hpieces]
      exact .last huncut
    · have hshorter : rest.length < n := by
        rw [← hlength, List.length_append, List.length_cons]
        omega
      have hrest := ih rest.length hshorter rest rfl
      rw [hpieces]
      cases hps : pieces (· == sep) {} rest with
      | nil =>
        rw [hps] at hrest
        cases hrest
      | cons q ps =>
        rw [hps] at hrest
        exact .more huncut hclosed hrest

lemma CutsAt.intercalate (h : CutsAt sep ps cs) : [sep].intercalate ps = cs := by
  induction h with
  | last _ => exact List.intercalate_singleton
  | more _ _ _ ih => rw [List.intercalate_cons_cons, ih, List.append_assoc, List.singleton_append]

lemma UncutAt.behind_take_ne {l : Level} {k : Nat} (h : UncutAt sep l cs) (hk : cs[k]? = some sep) :
    l.behind (cs.take k) ≠ {} := by
  obtain ⟨hlt, hget⟩ := List.getElem?_eq_some_iff.mp hk
  refine h (cs.take k) (cs.drop (k + 1)) ?_
  rw [← hget, ← List.drop_eq_getElem_cons hlt, List.take_append_drop]

/-- The pieces are joined where the reader is outside of quotes and brackets in front of a separator. -/
lemma CutsAt.mem_joins_iff (hsep : IsPlain sep) (h : CutsAt sep ps cs) (k : Nat) :
    k ∈ joins ps ↔ cs[k]? = some sep ∧ Level.behind {} (cs.take k) = {} := by
  induction h generalizing k with
  | last huncut =>
    constructor
    · intro hk
      cases hk
    · rintro ⟨hk, hlevel⟩
      exact absurd hlevel (huncut.behind_take_ne hk)
  | @more piece q rest ps huncut hclosed _ ih =>
    have hmem : k ∈ joins (piece :: q :: ps) ↔
        k = piece.length ∨ ∃ j ∈ joins (q :: ps), j + (piece.length + 1) = k := by
      rw [joins, List.mem_cons, List.mem_map]
    rw [hmem]
    rcases Nat.lt_trichotomy k piece.length with hk | rfl | hk
    · -- Inside of the first piece nothing is joined, and the piece has no separator at the top level.
      rw [List.getElem?_append_left hk, List.take_append_of_le_length hk.le]
      constructor
      · rintro (rfl | ⟨j, -, rfl⟩) <;> omega
      · rintro ⟨hget, hlevel⟩
        exact absurd hlevel (huncut.behind_take_ne hget)
    · simp [hclosed]
    · obtain ⟨j, rfl⟩ : ∃ j, k = j + (piece.length + 1) := ⟨k - (piece.length + 1), by omega⟩
      have hget : (piece ++ sep :: rest)[j + (piece.length + 1)]? = rest[j]? := by
        rw [List.getElem?_append_right (by omega), show j + (piece.length + 1) - piece.length = j + 1 by omega,
          List.getElem?_cons_succ]
      have htake : (piece ++ sep :: rest).take (j + (piece.length + 1)) = piece ++ sep :: rest.take j := by
        rw [List.take_append, List.take_of_length_le (by omega),
          show j + (piece.length + 1) - piece.length = j + 1 by omega, List.take_succ_cons]
      have hafter : Level.after {} sep = {} := by
        rw [after_outside hsep.isQuote_eq, bracketsAfter, hsep.isOpening_eq, hsep.isClosing_eq]
        rfl
      rw [hget, htake, behind_append, hclosed, behind_cons, hafter, ← ih j]
      constructor
      · rintro (hj | ⟨i, hi, hij⟩)
        · omega
        · rwa [show j = i by omega]
      · exact fun hj => .inr ⟨j, hj, rfl⟩

/-- There is one piece more than there are separators at the top level. -/
lemma CutsAt.length_eq (hsep : IsPlain sep) (h : CutsAt sep ps cs) :
    ps.length = {k | SeparatorAt sep cs k}.ncard + 1 := by
  have hset : {k | SeparatorAt sep cs k} = (joins ps).toFinset := by
    ext k
    rw [Set.mem_ofPred_eq, SeparatorAt, topLevel_iff, ← h.mem_joins_iff hsep, Finset.mem_coe, List.mem_toFinset]
  obtain ⟨p, ps, rfl⟩ : ∃ p ps', ps = p :: ps' := by
    cases h with
    | last _ => exact ⟨_, _, rfl⟩
    | more _ _ _ => exact ⟨_, _, rfl⟩
  have hnodup : (joins (p :: ps)).Nodup := (joins_increasing p ps).imp Nat.ne_of_lt
  rw [hset, Set.ncard_coe_finset, List.toFinset_card_of_nodup hnodup, length_joins, List.length_cons]

/-- Behind the first piece the text goes on. -/
lemma CutsAt.exists_rest {piece : List Char} (h : CutsAt sep (piece :: ps) cs) :
    UncutAt sep {} piece ∧ ∃ back, cs = piece ++ back := by
  cases h with
  | last huncut => exact ⟨huncut, [], (List.append_nil cs).symm⟩
  | more huncut _ _ => exact ⟨huncut, _, rfl⟩

end Pieces

/-! ### White space at the ends of a piece -/

lemma isPlain_of_isBlank {c : Char} (hc : Text.isBlank c = true) : IsPlain c := by
  have hne {d : Char} (hd : Text.isBlank d = false) : (c == d) = false := by
    rw [beq_eq_false_iff_ne]
    rintro rfl
    rw [hc] at hd
    cases hd
  refine ⟨?_, ?_, ?_⟩
  · rw [isQuote, hne rfl, hne rfl, Bool.or_self]
  · rw [isOpening, hne rfl, hne rfl, Bool.or_self]
  · rw [isClosing, hne rfl, hne rfl, Bool.or_self]

/-- The reader waits for a quote only behind one. -/
lemma isQuote_of_behind {cs : List Char} {l : Level} (hl : ∀ q ∈ l.quote, isQuote q = true) :
    ∀ q ∈ (l.behind cs).quote, isQuote q = true := by
  induction cs generalizing l with
  | nil => exact hl
  | cons c cs ih =>
    rw [behind_cons]
    refine ih ?_
    obtain ⟨_ | q, n⟩ := l
    · rcases Bool.eq_false_or_eq_true (isQuote c) with hc | hc
      · rw [after_of_isQuote hc]
        rintro q ⟨rfl⟩
        exact hc
      · rw [after_outside hc]
        exact fun q hq => nomatch hq
    · rw [after_quoted]
      split
      · exact fun q hq => nomatch hq
      · exact hl

/-- White space does not change the level. -/
lemma behind_of_isBlanks {cs : List Char} {l : Level} (hl : ∀ q ∈ l.quote, isQuote q = true) (hcs : IsBlanks cs) :
    l.behind cs = l := by
  induction cs with
  | nil => rfl
  | cons c cs ih =>
    have hplain : IsPlain c := isPlain_of_isBlank (hcs c List.mem_cons_self)
    have hafter : l.after c = l := by
      obtain ⟨_ | q, n⟩ := l
      · rw [after_outside hplain.isQuote_eq, bracketsAfter, hplain.isOpening_eq, hplain.isClosing_eq]
        rfl
      · rw [after_quoted, if_neg]
        rintro rfl
        exact absurd (hl c rfl) (by simp [hplain.isQuote_eq])
    rw [behind_cons, hafter]
    exact ih fun d hd => hcs d (List.mem_cons_of_mem c hd)

lemma no_quote : ∀ q ∈ ({} : Level).quote, isQuote q = true :=
  fun _ hq => nomatch hq

/-- No separator is among the white space in front of what a piece has. -/
lemma UncutAt.not_mem_before {sep : Char} {before back : List Char} (h : UncutAt sep {} (before ++ back))
    (hbefore : IsBlanks before) : sep ∉ before := by
  intro hmem
  obtain ⟨front, rest, rfl⟩ := List.append_of_mem hmem
  refine h front (rest ++ back) (by simp) ?_
  exact behind_of_isBlanks no_quote fun c hc => hbefore c (List.mem_append_left _ hc)

/-- No separator is among the white space behind what a piece has, if all its quotes and brackets are closed. -/
lemma UncutAt.not_mem_after {sep : Char} {front after : List Char} (h : UncutAt sep {} (front ++ after))
    (hclosed : Level.behind {} (front ++ after) = {}) (hafter : IsBlanks after) : sep ∉ after := by
  intro hmem
  rw [behind_append, behind_of_isBlanks (isQuote_of_behind no_quote) hafter] at hclosed
  obtain ⟨blanks, rest, rfl⟩ := List.append_of_mem hmem
  refine h (front ++ blanks) rest (by simp) ?_
  rw [behind_append, hclosed]
  exact behind_of_isBlanks no_quote fun c hc => hafter c (List.mem_append_left _ hc)

/-! ### The segments of a text -/

lemma map_text_ofPieces (offset : Nat) (ps : List (List Char)) :
    (ofPieces offset ps).map (·.text) = ps.map (String.ofList ∘ Text.trim) := by
  induction ps generalizing offset with
  | nil => rfl
  | cons p ps ih => rw [ofPieces, List.map_cons, List.map_cons, ih, ofPiece, Function.comp_apply]

/-- The text between the segments is one separator with white space around it; the text starts at the offset. -/
def Separated (sep : Char) (offset : Nat) (text : List Char) (s t : Segment) : Prop :=
  ∃ before after, Text.slice text (s.stop - offset) (t.start - offset) = before ++ sep :: after ∧
    IsBlanks before ∧ IsBlanks after ∧ sep ∉ before ∧ sep ∉ after

/-- The segments are the trimmed pieces of a text, which starts at the offset, between its separators at the top
level. -/
structure SplitsInto (sep : Char) (offset : Nat) (text : List Char) (ss : List Segment) : Prop where
  exists_pieces : ∃ ps, [sep].intercalate ps = text ∧ (∀ k, k ∈ joins ps ↔ SeparatorAt sep text k) ∧
    ss.map (·.text) = ps.map (String.ofList ∘ Text.trim)
  length_eq : ss.length = {k | SeparatorAt sep text k}.ncard + 1
  inside : ∀ s ∈ ss, offset ≤ s.start ∧ s.start ≤ s.stop ∧ s.stop ≤ offset + units text
  slice_eq : ∀ s ∈ ss, String.ofList (Text.slice text (s.start - offset) (s.stop - offset)) = s.text
  separated : ss.IsChain (Separated sep offset text)

lemma CutFrom.slice_eq {s : Segment} {offset : Nat} {text : List Char} (h : s.CutFrom offset text) :
    String.ofList (Text.slice text (s.start - offset) (s.stop - offset)) = s.text := by
  obtain ⟨⟨before, after, rfl, hstart⟩, hstop⟩ := h
  rw [hstop, hstart, Nat.add_assoc, Nat.add_sub_cancel_left, Nat.add_sub_cancel_left, Text.slice_append,
    String.ofList_toList]

lemma CutFrom.inside_text {s : Segment} {offset : Nat} {text : List Char} (h : s.CutFrom offset text) :
    offset ≤ s.start ∧ s.start ≤ s.stop ∧ s.stop ≤ offset + units text := by
  obtain ⟨⟨before, after, rfl, hstart⟩, hstop⟩ := h
  rw [Text.units_append, Text.units_append]
  omega

section Segments

variable {sep : Char} {ps : List (List Char)} {cs : List Char}

/-- What stands in front of the rest of a text, of which the first piece stands behind a front. -/
lemma units_next (hwidth : Text.width sep = 1) (offset : Nat) (front piece : List Char) :
    offset + units (front ++ piece ++ [sep]) = offset + units front + units piece + 1 := by
  rw [Text.units_append, Text.units_append, units, units, hwidth]
  omega

lemma CutsAt.cutFrom_ofPieces (hwidth : Text.width sep = 1) (h : CutsAt sep ps cs) (offset : Nat) (front : List Char) :
    ∀ s ∈ ofPieces (offset + units front) ps, s.CutFrom offset (front ++ cs) := by
  induction h generalizing front with
  | @last piece _ =>
    intro s hs
    rw [List.mem_singleton.mp hs]
    simpa using (trims_ofPiece (offset + units front) piece).cutFrom.extend []
  | @more piece q rest ps _ _ _ ih =>
    intro s hs
    rw [ofPieces] at hs
    rcases List.mem_cons.mp hs with rfl | hs
    · simpa using (trims_ofPiece (offset + units front) piece).cutFrom.extend (sep :: rest)
    · rw [← units_next hwidth] at hs
      simpa using ih (front ++ piece ++ [sep]) s hs

/-- Between the segments of two pieces stands what is trimmed of the pieces and the separator. -/
lemma separated_ofPiece (hwidth : Text.width sep = 1) (offset : Nat) (front back : List Char) {piece q : List Char}
    (huncut : UncutAt sep {} piece) (hclosed : Level.behind {} piece = {}) (hnext : UncutAt sep {} q) :
    Separated sep offset (front ++ (piece ++ sep :: (q ++ back))) (ofPiece (offset + units front) piece)
      (ofPiece (offset + units front + units piece + 1) q) := by
  have hfirst := trims_ofPiece (offset + units front) piece
  have hsecond := trims_ofPiece (offset + units front + units piece + 1) q
  revert hfirst hsecond
  generalize ofPiece (offset + units front) piece = s
  generalize ofPiece (offset + units front + units piece + 1) q = t
  intro hfirst hsecond
  obtain ⟨lead, before, -, hbefore, rfl, hstart⟩ := hfirst.exists_blanks
  obtain ⟨after, trail, hafter, -, rfl, hnextStart⟩ := hsecond.exists_blanks
  have hstop := hfirst.stop_eq
  rw [List.append_assoc] at hnext
  refine ⟨before, after, ?_, hbefore, hafter, huncut.not_mem_after hclosed hbefore, hnext.not_mem_before hafter⟩
  have htext : front ++ (lead ++ s.text.toList ++ before ++ sep :: (after ++ t.text.toList ++ trail ++ back)) =
      (front ++ lead ++ s.text.toList) ++ (before ++ sep :: after) ++ (t.text.toList ++ trail ++ back) := by
    simp
  have hleft : s.stop - offset = units (front ++ lead ++ s.text.toList) := by
    rw [Text.units_append, Text.units_append]
    omega
  have hright : t.start - offset = units (front ++ lead ++ s.text.toList) + units (before ++ sep :: after) := by
    simp only [Text.units_append, units, hwidth] at hnextStart ⊢
    omega
  rw [htext, hleft, hright, Text.slice_append]

lemma CutsAt.isChain_ofPieces (hwidth : Text.width sep = 1) (h : CutsAt sep ps cs) (offset : Nat) (front : List Char) :
    (ofPieces (offset + units front) ps).IsChain (Separated sep offset (front ++ cs)) := by
  induction h generalizing front with
  | last _ => exact .singleton _
  | @more piece q rest ps huncut hclosed hrest ih =>
    obtain ⟨hnext, back, rfl⟩ := hrest.exists_rest
    have hlater := ih (front ++ piece ++ [sep])
    rw [units_next hwidth, ofPieces, List.append_assoc, List.append_assoc, List.singleton_append] at hlater
    rw [ofPieces, ofPieces]
    exact .cons_cons (separated_ofPiece hwidth offset front back huncut hclosed hnext) hlater

end Segments

/-- A character that is no quote and no bracket. -/
lemma isPlain_of_not_mem {sep : Char} (hsep : sep ∉ ['\'', '"', '<', '>', '(', ')']) : IsPlain sep := by
  simp only [List.mem_cons, List.not_mem_nil, or_false, not_or] at hsep
  obtain ⟨hsingle, hdouble, hless, hgreater, hopen, hclose⟩ := hsep
  exact ⟨by simp [isQuote, hsingle, hdouble], by simp [isOpening, hless, hopen],
    by simp [isClosing, hgreater, hclose]⟩

/-- The segments of a text that starts at an offset are its trimmed pieces between the separators at the top level; the
offsets of a segment give back its text, and between two segments that follow each other there is one separator and
nothing else but white space. -/
theorem splitsInto_splitBy (sep : Char) (hsep : sep ∉ ['\'', '"', '<', '>', '(', ')']) (hwidth : Text.width sep = 1)
    (offset : Nat) (text : List Char) : SplitsInto sep offset text (splitBy (· == sep) text offset) := by
  have hplain := isPlain_of_not_mem hsep
  have hcuts := cutsAt_pieces hplain text
  have hfrom : ∀ s ∈ ofPieces offset (pieces (· == sep) {} text), s.CutFrom offset text :=
    hcuts.cutFrom_ofPieces hwidth offset []
  have htexts := map_text_ofPieces offset (pieces (· == sep) {} text)
  rw [splitBy_eq_ofPieces hwidth]
  refine ⟨⟨pieces (· == sep) {} text, hcuts.intercalate, ?_, htexts⟩, ?_, ?_, ?_, ?_⟩
  · intro k
    rw [hcuts.mem_joins_iff hplain, SeparatorAt, topLevel_iff]
  · have hlength := congrArg List.length htexts
    rw [List.length_map, List.length_map] at hlength
    rw [hlength, hcuts.length_eq hplain]
  · exact fun s hs => (hfrom s hs).inside_text
  · exact fun s hs => (hfrom s hs).slice_eq
  · exact hcuts.isChain_ofPieces hwidth offset []

/-- Commas inside of a bracket and of a quote do not separate. -/
theorem splitsInto_list : ',' ∉ ['\'', '"', '<', '>', '(', ')'] ∧ Text.width ',' = 1 ∧
    SplitsInto ',' 3 "a<b,c>, 'x,y' ,d".toList
      [⟨"a<b,c>", 3, 9⟩, ⟨"'x,y'", 11, 16⟩, ⟨"d", 18, 19⟩] := by
  have hsplit : splitBy (· == ',') "a<b,c>, 'x,y' ,d".toList 3 =
      [⟨"a<b,c>", 3, 9⟩, ⟨"'x,y'", 11, 16⟩, ⟨"d", 18, 19⟩] := by decide +kernel
  refine ⟨by decide, rfl, ?_⟩
  rw [← hsplit]
  exact splitsInto_splitBy ',' (by decide) rfl 3 "a<b,c>, 'x,y' ,d".toList

end Segment

end EntitySchema
