import Mathlib.Data.List.Basic
import Mathlib.Tactic.Common
import EntitySchema.Diagnostic.Issue

/-!
# Reading a pointer back

A pointer is read by splitting it at the slashes behind the leading one and by replacing in each part first `~1` by a
slash and then `~0` by a tilde (`segmentsOf`).  This gives back the segments that the pointer was made of, whatever
characters they have (`segmentsOf_pointer`).

A segment is escaped by two replacements as well, of its tildes first (`escapeSegment_eq`), and each is undone by one
of the reader.  A character that is replaced by a mark and a second character comes back if these two do not already
stand in the text, or if the character is the mark itself (`replaceAll_undo`).  So the slashes come back because the
tildes have been replaced before them: no tilde has a `1` behind it then (`not_infix_tildes`).
-/

namespace EntitySchema

namespace Pointer

/-! ### Replacing a word -/

/-- The text with a word replaced wherever it stands, from the left on; the word is not empty. -/
def replaceAll {α : Type*} [DecidableEq α] (word other : List α) : List α → List α
  | [] => []
  | c :: cs =>
    if word.isPrefixOf (c :: cs) then other ++ replaceAll word other (cs.drop (word.length - 1))
    else c :: replaceAll word other cs
termination_by cs => cs.length
decreasing_by
  · rw [List.length_drop, List.length_cons]
    omega
  · rw [List.length_cons]
    omega

lemma pair_prefix_cons_iff {α : Type*} {a b x : α} {cs : List α} : [a, b] <+: x :: cs ↔ a = x ∧ cs.head? = some b := by
  rw [List.cons_prefix_cons]
  cases cs with
  | nil => simp
  | cons y ys => simp [List.cons_prefix_cons, eq_comm]

section Replacing

variable {α : Type*} [DecidableEq α] {word other cs : List α} {c d mark : α}

@[simp] lemma replaceAll_nil (word other : List α) : replaceAll word other [] = [] := by
  rw [replaceAll]

/-- The word is replaced where the text starts with it. -/
lemma replaceAll_append (hword : word ≠ []) (other cs : List α) :
    replaceAll word other (word ++ cs) = other ++ replaceAll word other cs := by
  obtain ⟨c, rest, rfl⟩ := List.exists_cons_of_ne_nil hword
  have hprefix : (c :: rest).isPrefixOf (c :: (rest ++ cs)) = true :=
    List.isPrefixOf_iff_prefix.mpr (List.prefix_append (c :: rest) cs)
  rw [List.cons_append, replaceAll, if_pos hprefix, List.length_cons, Nat.add_sub_cancel, List.drop_left]

/-- A character stays where the text does not start with the word. -/
lemma replaceAll_cons (h : ¬ word <+: c :: cs) : replaceAll word other (c :: cs) = c :: replaceAll word other cs := by
  rw [replaceAll, if_neg (mt List.isPrefixOf_iff_prefix.mp h)]

/-- A single character is replaced one by one. -/
lemma replaceAll_singleton (c : α) (other cs : List α) :
    replaceAll [c] other cs = cs.flatMap fun a => if a = c then other else [a] := by
  induction cs with
  | nil => exact replaceAll_nil [c] other
  | cons a cs ih =>
    rw [List.flatMap_cons, ← ih]
    by_cases h : a = c
    · rw [if_pos h, h]
      exact replaceAll_append (List.cons_ne_nil c []) other cs
    · have hprefix : ¬ [c] <+: a :: cs := fun hp => h (List.cons_prefix_cons.mp hp).1.symm
      rw [if_neg h, replaceAll_cons hprefix, List.singleton_append]

lemma replaceAll_singleton_cons (c : α) (other : List α) (a : α) (cs : List α) :
    replaceAll [c] other (a :: cs) = (if a = c then other else [a]) ++ replaceAll [c] other cs := by
  rw [replaceAll_singleton, replaceAll_singleton, List.flatMap_cons]

/-- A character is gone when it is replaced by a text without it. -/
lemma not_mem_replaceAll (hother : c ∉ other) : c ∉ replaceAll [c] other cs := by
  rw [replaceAll_singleton, List.mem_flatMap]
  rintro ⟨a, -, hmem⟩
  split at hmem
  · exact hother hmem
  · rename_i h
    exact h (List.mem_singleton.mp hmem).symm

/-- Replacing a character by a mark and a second character does not put the second character in front. -/
lemma head?_replaceAll (hd : d ≠ mark) (h : (replaceAll [c] [mark, d] cs).head? = some d) : cs.head? = some d := by
  cases cs with
  | nil =>
    rw [replaceAll_nil] at h
    exact h
  | cons a cs =>
    rw [replaceAll_singleton_cons] at h
    split at h
    · exact absurd (Option.some.inj h).symm hd
    · exact h

/-- A character that was replaced by a mark and a second character comes back. -/
lemma replaceAll_undo (hd : d ≠ mark) (h : c = mark ∨ ¬ [mark, d] <:+: cs) :
    replaceAll [mark, d] [c] (replaceAll [c] [mark, d] cs) = cs := by
  induction cs with
  | nil => rw [replaceAll_nil, replaceAll_nil]
  | cons a cs ih =>
    have hrest := ih (h.imp_right fun hcs hinfix => hcs (List.infix_cons hinfix))
    rw [replaceAll_singleton_cons]
    by_cases ha : a = c
    · rw [if_pos ha, replaceAll_append (List.cons_ne_nil mark [d]), hrest, ha, List.singleton_append]
    · -- It is not read as the mark of a replaced character, since the second character was not behind it before.
      have hprefix : ¬ [mark, d] <+: a :: replaceAll [c] [mark, d] cs := by
        intro hp
        obtain ⟨hmark, hhead⟩ := pair_prefix_cons_iff.mp hp
        rcases h with hc | hcs
        · exact ha (hmark.symm.trans hc.symm)
        · have hbefore : [mark, d] <+: a :: cs := pair_prefix_cons_iff.mpr ⟨hmark, head?_replaceAll hd hhead⟩
          exact hcs hbefore.isInfix
      rw [if_neg ha, List.singleton_append, replaceAll_cons hprefix, hrest]

end Replacing

/-! ### Escaped segments -/

/-- Once the tildes are replaced, none of them has a `1` behind it. -/
lemma not_infix_tildes (cs : List Char) : ¬ ['~', '1'] <:+: replaceAll ['~'] ['~', '0'] cs := by
  induction cs with
  | nil => simp
  | cons a cs ih =>
    rw [replaceAll_singleton_cons]
    split
    · simpa [List.infix_cons_iff, pair_prefix_cons_iff] using ih
    · rename_i ha
      simpa [List.infix_cons_iff, pair_prefix_cons_iff, Ne.symm ha] using ih

/-- A segment is escaped by replacing the tildes and after them the slashes. -/
lemma escapeSegment_eq (cs : List Char) :
    escapeSegment cs = replaceAll ['/'] ['~', '1'] (replaceAll ['~'] ['~', '0'] cs) := by
  induction cs with
  | nil => rw [replaceAll_nil, replaceAll_nil, escapeSegment]
  | cons c cs ih =>
    rw [escapeSegment, ih, replaceAll_singleton_cons]
    by_cases htilde : c = '~'
    · simp [htilde, replaceAll_singleton_cons]
    · by_cases hslash : c = '/'
      · simp [hslash, replaceAll_singleton_cons]
      · simp [htilde, hslash, replaceAll_singleton_cons]

lemma slash_not_mem_escapeSegment (cs : List Char) : '/' ∉ escapeSegment cs := by
  rw [escapeSegment_eq]
  exact not_mem_replaceAll (by decide)

/-- What a part of a pointer stands for: first every `~1` is read as a slash, then every `~0` as a tilde. -/
def unescape (part : List Char) : List Char :=
  replaceAll ['~', '0'] ['~'] (replaceAll ['~', '1'] ['/'] part)

lemma unescape_escapeSegment (cs : List Char) : unescape (escapeSegment cs) = cs := by
  have hslashes : replaceAll ['~', '1'] ['/'] (escapeSegment cs) = replaceAll ['~'] ['~', '0'] cs := by
    rw [escapeSegment_eq]
    exact replaceAll_undo (by decide) (.inr (not_infix_tildes cs))
  rw [unescape, hslashes]
  exact replaceAll_undo (by decide) (.inl rfl)

/-! ### The segments of a pointer -/

/-- The segments of a pointer: it is split at the slashes behind the leading one, and the escapes of every part are
undone.  The empty pointer has no segments, and another text that does not start with a slash is no pointer. -/
def segmentsOf (pointer : String) : Option (List String) :=
  match pointer.toList with
  | [] => some []
  | '/' :: rest => some ((rest.splitOn '/').map fun part => String.ofList (unescape part))
  | _ => none

/-- Behind the leading slash of a pointer its escaped segments are joined by slashes. -/
lemma toList_pointer_cons (s : String) (ss : List String) :
    (pointer (s :: ss)).toList = '/' :: ['/'].intercalate ((s :: ss).map fun t => escapeSegment t.toList) := by
  induction ss generalizing s with
  | nil => simp [pointer]
  | cons t ts ih =>
    have hrest := ih t
    rw [pointer, String.toList_ofList] at hrest ⊢
    simp only [List.flatMap_cons, hrest, List.map_cons, List.intercalate_cons_cons, List.cons_append, List.append_assoc,
      List.nil_append]

lemma splitOn_joined (s : String) (ss : List String) :
    (['/'].intercalate ((s :: ss).map fun t => escapeSegment t.toList)).splitOn '/' =
      (s :: ss).map fun t => escapeSegment t.toList := by
  refine List.splitOn_intercalate '/' ?_ (List.cons_ne_nil _ _)
  intro part hpart
  obtain ⟨t, -, rfl⟩ := List.mem_map.mp hpart
  exact slash_not_mem_escapeSegment t.toList

lemma segmentsOf_eq (ss : List String) : segmentsOf (pointer ss) = some ss := by
  cases ss with
  | nil => rfl
  | cons s ss =>
    have hparts : ((s :: ss).map fun t => escapeSegment t.toList).map (fun part => String.ofList (unescape part)) =
        s :: ss := by
      rw [List.map_map]
      refine List.map_id'' (fun t => ?_) (s :: ss)
      rw [Function.comp_apply, unescape_escapeSegment, String.ofList_toList]
    rw [segmentsOf, toList_pointer_cons]
    simp only [splitOn_joined, hparts]

/-- Reading a pointer gives back the segments it was made of, and different lists of segments have different
pointers. -/
theorem segmentsOf_pointer (ss ts : List String) :
    segmentsOf (pointer ss) = some ss ∧ (pointer ss = pointer ts ↔ ss = ts) := by
  refine ⟨segmentsOf_eq ss, fun h => ?_, congrArg pointer⟩
  have hread : some ss = some ts := by rw [← segmentsOf_eq ss, ← segmentsOf_eq ts, h]
  exact Option.some.inj hread

/-- A tilde of a segment is not taken for the tilde of an escaped slash, and an empty segment is one. -/
example : pointer ["~1", "", "a/b", "~01"] = "/~01//a~1b/~001" ∧
    segmentsOf "/~01//a~1b/~001" = some ["~1", "", "a/b", "~01"] := by
  decide +kernel

end Pointer

end EntitySchema
