import Mathlib.Data.List.Basic
import Mathlib.Data.List.GetD
import Mathlib.Order.Bounds.Basic
import Mathlib.Order.Lattice.Nat
import Mathlib.Tactic.Common
import EntitySchema.Suggestion

/-!
# What a suggestion is

The distance of two words is the least number of edits of one unit that lead from one to the other.  The usual
recursion over the ends of the words computes it (`isLeast_recursiveDistance`); that no shorter way exists rests on
one observation: an edit changes the distance to any third word by at most one (`Edit.shift`), and this is kept when
a unit is put in front (`Shift.cons`).

The two rows are shown to hold the distances of the starts of the words.  The current row is right up to the column
filled last, whatever its other cells still hold (`holdsUpTo_fillCell`), so a filled row is right as a whole
(`holdsUpTo_fillRow`), and so is the previous row after every swap (`holds_rowsAfter`).  Edits read backwards and from
right to left give the recursion for starts in place of ends and for the words in either order.

The suggestion is then the first of the candidates that are nearest to the word, if they are near enough
(`closest_isNearest`).
-/

namespace EntitySchema

namespace Suggestion

/-! ### Edits -/

/-- One unit of a word is inserted, deleted or replaced. -/
inductive Edit : List Nat → List Nat → Prop
  | insert (before after : List Nat) (y : Nat) : Edit (before ++ after) (before ++ y :: after)
  | delete (before after : List Nat) (x : Nat) : Edit (before ++ x :: after) (before ++ after)
  | replace (before after : List Nat) (x y : Nat) : Edit (before ++ x :: after) (before ++ y :: after)

/-- So many edits lead from one word to the other. -/
inductive Edits : Nat → List Nat → List Nat → Prop
  | refl (xs : List Nat) : Edits 0 xs xs
  | step {n : Nat} {xs ys zs : List Nat} (h : Edit xs ys) (hrest : Edits n ys zs) : Edits (n + 1) xs zs

/-- The least number of edits that lead from one word to the other. -/
noncomputable def levenshtein (xs ys : List Nat) : Nat :=
  sInf {n | Edits n xs ys}

lemma Edit.cons (z : Nat) {xs ys : List Nat} (h : Edit xs ys) : Edit (z :: xs) (z :: ys) := by
  cases h with
  | insert before after y => exact .insert (z :: before) after y
  | delete before after x => exact .delete (z :: before) after x
  | replace before after x y => exact .replace (z :: before) after x y

/-- Edits may be made behind any unit. -/
lemma Edits.cons (z : Nat) {n : Nat} {xs ys : List Nat} (h : Edits n xs ys) : Edits n (z :: xs) (z :: ys) := by
  induction h with
  | refl xs => exact .refl _
  | step h _ ih => exact .step (h.cons z) ih

/-- Edits may be undone. -/
lemma Edit.symm {xs ys : List Nat} (h : Edit xs ys) : Edit ys xs := by
  cases h with
  | insert before after y => exact .delete before after y
  | delete before after x => exact .insert before after x
  | replace before after x y => exact .replace before after y x

lemma Edits.concat {n : Nat} {xs ys zs : List Nat} (h : Edits n xs ys) (hlast : Edit ys zs) :
    Edits (n + 1) xs zs := by
  induction h with
  | refl xs => exact .step hlast (.refl zs)
  | step h _ ih => exact .step h (ih hlast)

lemma Edits.symm {n : Nat} {xs ys : List Nat} (h : Edits n xs ys) : Edits n ys xs := by
  induction h with
  | refl xs => exact .refl xs
  | step h _ ih => exact ih.concat h.symm

/-- Edits may be read from right to left. -/
lemma Edit.reverse {xs ys : List Nat} (h : Edit xs ys) : Edit xs.reverse ys.reverse := by
  cases h with
  | insert before after y => simpa using Edit.insert after.reverse before.reverse y
  | delete before after x => simpa using Edit.delete after.reverse before.reverse x
  | replace before after x y => simpa using Edit.replace after.reverse before.reverse x y

lemma Edits.reverse {n : Nat} {xs ys : List Nat} (h : Edits n xs ys) : Edits n xs.reverse ys.reverse := by
  induction h with
  | refl xs => exact .refl _
  | step h _ ih => exact .step h.reverse ih

/-! ### The usual recursion -/

/-- The distance of two words from the distances of their ends: the first unit of one word is deleted, that of the
other is inserted, or one is replaced by the other. -/
def recursiveDistance : List Nat → List Nat → Nat
  | [], ys => ys.length
  | x :: xs, [] => xs.length + 1
  | x :: xs, y :: ys =>
    min (min (recursiveDistance xs (y :: ys) + 1) (recursiveDistance (x :: xs) ys + 1))
      (recursiveDistance xs ys + if x = y then 0 else 1)
termination_by xs ys => xs.length + ys.length

@[simp] lemma recursiveDistance_nil_left (ys : List Nat) : recursiveDistance [] ys = ys.length := by
  rw [recursiveDistance]

@[simp] lemma recursiveDistance_nil_right (xs : List Nat) : recursiveDistance xs [] = xs.length := by
  cases xs with
  | nil => simp
  | cons x xs => rw [recursiveDistance, List.length_cons]

lemma recursiveDistance_cons_cons (x : Nat) (xs : List Nat) (y : Nat) (ys : List Nat) :
    recursiveDistance (x :: xs) (y :: ys) =
      min (min (recursiveDistance xs (y :: ys) + 1) (recursiveDistance (x :: xs) ys + 1))
        (recursiveDistance xs ys + if x = y then 0 else 1) := by
  rw [recursiveDistance]

/-! ### As many edits as the distance -/

/-- There are as many edits from one word to the other as the distance says. -/
lemma edits_recursiveDistance (xs ys : List Nat) : Edits (recursiveDistance xs ys) xs ys := by
  induction xs generalizing ys with
  | nil =>
    induction ys with
    | nil =>
      rw [recursiveDistance_nil_left]
      exact .refl []
    | cons y ys ih =>
      rw [recursiveDistance_nil_left] at ih ⊢
      exact .step (.insert [] [] y) (ih.cons y)
  | cons x xs ihx =>
    induction ys with
    | nil =>
      have hrest := ihx []
      rw [recursiveDistance_nil_right] at hrest ⊢
      exact .step (.delete [] xs x) hrest
    | cons y ys ihy =>
      have hdelete : Edits (recursiveDistance xs (y :: ys) + 1) (x :: xs) (y :: ys) :=
        .step (.delete [] xs x) (ihx (y :: ys))
      have hinsert : Edits (recursiveDistance (x :: xs) ys + 1) (x :: xs) (y :: ys) :=
        .step (.insert [] (x :: xs) y) (ihy.cons y)
      have hreplace : Edits (recursiveDistance xs ys + if x = y then 0 else 1) (x :: xs) (y :: ys) := by
        split
        · rename_i hxy
          subst hxy
          exact (ihx ys).cons x
        · exact .step (.replace [] xs x y) ((ihx ys).cons y)
      rw [recursiveDistance_cons_cons]
      rcases min_choice (min (recursiveDistance xs (y :: ys) + 1) (recursiveDistance (x :: xs) ys + 1))
        (recursiveDistance xs ys + if x = y then 0 else 1) with hmin | hmin
      · rw [hmin]
        rcases min_choice (recursiveDistance xs (y :: ys) + 1) (recursiveDistance (x :: xs) ys + 1) with hmin' | hmin'
        · rwa [hmin']
        · rwa [hmin']
      · rwa [hmin]

/-! ### No fewer edits than the distance -/

/-- The distance from the first word to any word is at most one more than that from the second word. -/
def Shift (us vs : List Nat) : Prop :=
  ∀ zs, recursiveDistance us zs ≤ recursiveDistance vs zs + 1

lemma recursiveDistance_cons_le_left (x : Nat) (xs zs : List Nat) :
    recursiveDistance (x :: xs) zs ≤ recursiveDistance xs zs + 1 := by
  cases zs with
  | nil => simp
  | cons z zs =>
    rw [recursiveDistance_cons_cons]
    omega

lemma recursiveDistance_cons_le_right (z : Nat) (xs zs : List Nat) :
    recursiveDistance xs (z :: zs) ≤ recursiveDistance xs zs + 1 := by
  cases xs with
  | nil => simp
  | cons x xs =>
    rw [recursiveDistance_cons_cons]
    omega

lemma recursiveDistance_cons_cons_le (x : Nat) (xs : List Nat) (z : Nat) (zs : List Nat) :
    recursiveDistance (x :: xs) (z :: zs) ≤ recursiveDistance xs zs + 1 := by
  rw [recursiveDistance_cons_cons]
  split <;> omega

lemma shift_insert (y : Nat) (us : List Nat) : Shift us (y :: us) := by
  intro zs
  induction zs with
  | nil =>
    simp only [recursiveDistance_nil_right, List.length_cons]
    omega
  | cons z zs ih =>
    have hright := recursiveDistance_cons_le_right z us zs
    rw [recursiveDistance_cons_cons y us z zs]
    omega

lemma shift_replace (x y : Nat) (us : List Nat) : Shift (x :: us) (y :: us) := by
  intro zs
  induction zs with
  | nil => simp
  | cons z zs ih =>
    have hleft := recursiveDistance_cons_le_left x us (z :: zs)
    have hright := recursiveDistance_cons_le_right z (x :: us) zs
    have hboth := recursiveDistance_cons_cons_le x us z zs
    rw [recursiveDistance_cons_cons y us z zs]
    omega

/-- A unit in front of both words does not make them differ more. -/
lemma Shift.cons (b : Nat) {us vs : List Nat} (h : Shift us vs) : Shift (b :: us) (b :: vs) := by
  intro zs
  induction zs with
  | nil => simpa using h []
  | cons z zs ih =>
    have hboth := h (z :: zs)
    have hends := h zs
    rw [recursiveDistance_cons_cons b us z zs, recursiveDistance_cons_cons b vs z zs]
    omega

lemma Shift.append (before : List Nat) {us vs : List Nat} (h : Shift us vs) :
    Shift (before ++ us) (before ++ vs) := by
  induction before with
  | nil => exact h
  | cons b before ih => exact ih.cons b

/-- An edit changes the distance to a third word by at most one. -/
lemma Edit.shift {xs ys : List Nat} (h : Edit xs ys) : Shift xs ys := by
  cases h with
  | insert before after y => exact (shift_insert y after).append before
  | delete before after x =>
    have hdelete : Shift (x :: after) after := recursiveDistance_cons_le_left x after
    exact hdelete.append before
  | replace before after x y => exact (shift_replace x y after).append before

lemma recursiveDistance_self (xs : List Nat) : recursiveDistance xs xs = 0 := by
  induction xs with
  | nil => simp
  | cons x xs ih => simp [recursiveDistance_cons_cons, ih]

lemma Edits.recursiveDistance_le {n : Nat} {xs ys : List Nat} (h : Edits n xs ys) : recursiveDistance xs ys ≤ n := by
  induction h with
  | refl xs => rw [recursiveDistance_self]
  | @step n xs ys zs h _ ih =>
    calc recursiveDistance xs zs ≤ recursiveDistance ys zs + 1 := h.shift zs
      _ ≤ n + 1 := Nat.add_le_add_right ih 1

/-- The distance is the least number of edits that lead from one word to the other. -/
theorem isLeast_recursiveDistance (xs ys : List Nat) : IsLeast {n | Edits n xs ys} (recursiveDistance xs ys) :=
  ⟨edits_recursiveDistance xs ys, fun _ h => h.recursiveDistance_le⟩

/-- The recursion gives the least number of edits. -/
theorem recursiveDistance_eq_levenshtein (xs ys : List Nat) : recursiveDistance xs ys = levenshtein xs ys := by
  have hleast := isLeast_recursiveDistance xs ys
  exact le_antisymm (hleast.2 (Nat.sInf_mem ⟨_, hleast.1⟩)) (Nat.sInf_le hleast.1)

/-! ### Distances of the starts of words -/

lemma levenshtein_comm (xs ys : List Nat) : levenshtein xs ys = levenshtein ys xs := by
  have hedits : {n | Edits n xs ys} = {n | Edits n ys xs} :=
    Set.ext fun n => ⟨Edits.symm, Edits.symm⟩
  rw [levenshtein, levenshtein, hedits]

lemma levenshtein_reverse (xs ys : List Nat) : levenshtein xs.reverse ys.reverse = levenshtein xs ys := by
  have hedits : {n | Edits n xs.reverse ys.reverse} = {n | Edits n xs ys} :=
    Set.ext fun n => ⟨fun h => by simpa using h.reverse, Edits.reverse⟩
  rw [levenshtein, levenshtein, hedits]

lemma levenshtein_nil_left (ys : List Nat) : levenshtein [] ys = ys.length := by
  rw [← recursiveDistance_eq_levenshtein, recursiveDistance_nil_left]

lemma levenshtein_nil_right (xs : List Nat) : levenshtein xs [] = xs.length := by
  rw [← recursiveDistance_eq_levenshtein, recursiveDistance_nil_right]

/-- The recursion holds at the last units as it does at the first ones. -/
lemma levenshtein_concat_concat (xs : List Nat) (x : Nat) (ys : List Nat) (y : Nat) :
    levenshtein (xs ++ [x]) (ys ++ [y]) =
      min (min (levenshtein (xs ++ [x]) ys + 1) (levenshtein xs (ys ++ [y]) + 1))
        (levenshtein xs ys + if x = y then 0 else 1) := by
  have hrecursion := recursiveDistance_cons_cons x xs.reverse y ys.reverse
  simp only [recursiveDistance_eq_levenshtein, ← List.reverse_concat, levenshtein_reverse] at hrecursion
  rw [hrecursion, min_comm (levenshtein xs (ys ++ [y]) + 1)]

/-! ### The rows -/

/-- The row has a cell for each start of the shorter word, and up to a column the cells hold the distances of these
starts to a start of the longer word.  Nothing is said about the cells behind the column. -/
def HoldsUpTo (shorter longer : List Nat) (row column : Nat) (cells : Array Nat) : Prop :=
  cells.size = shorter.length + 1 ∧
    ∀ c ≤ column, cells.getD c 0 = levenshtein (shorter.take c) (longer.take row)

/-- The previous row holds all distances for the units looked at so far, and the current row has as many cells. -/
def Rows.Hold (shorter longer : List Nat) (row : Nat) (rows : Rows) : Prop :=
  HoldsUpTo shorter longer row shorter.length rows.previous ∧ rows.current.size = shorter.length + 1

lemma getD_setIfInBounds (cells : Array Nat) (i j value : Nat) (hj : j < cells.size) :
    (cells.setIfInBounds i value).getD j 0 = if i = j then value else cells.getD j 0 := by
  simp only [Array.getD_eq_getD_getElem?, Array.getElem?_setIfInBounds]
  split
  · rename_i hij
    rw [if_pos (hij ▸ hj), Option.getD_some]
  · rfl

lemma range'_one_succ (n : Nat) : List.range' 1 (n + 1) = List.range' 1 n ++ [n + 1] := by
  rw [List.range'_1_concat, Nat.add_comm 1 n]

/-- The next cell is filled with the distance of the next start, from the cell before it and two cells of the row of
the longer start that is one unit shorter. -/
lemma holdsUpTo_fillCell {shorter longer : List Nat} {row column : Nat} {previous current : Array Nat}
    (hprevious : HoldsUpTo shorter longer row shorter.length previous)
    (hcurrent : HoldsUpTo shorter longer (row + 1) column current) (hrow : row < longer.length)
    (hcolumn : column < shorter.length) :
    HoldsUpTo shorter longer (row + 1) (column + 1)
      (fillCell shorter (longer.getD row 0) previous current (column + 1)) := by
  obtain ⟨hsize, hcells⟩ := hcurrent
  refine ⟨by rw [fillCell, Array.size_setIfInBounds, hsize], fun c hc => ?_⟩
  rw [fillCell, getD_setIfInBounds _ _ _ _ (by omega)]
  split
  · rename_i hlast
    subst hlast
    have hshorter : shorter.take (column + 1) = shorter.take column ++ [shorter.getD column 0] := by
      rw [List.take_succ_eq_append_getElem hcolumn, List.getD_eq_getElem _ _ hcolumn]
    have hlonger : longer.take (row + 1) = longer.take row ++ [longer.getD row 0] := by
      rw [List.take_succ_eq_append_getElem hrow, List.getD_eq_getElem _ _ hrow]
    have habove := hprevious.2 (column + 1) hcolumn
    have hbefore := hcells column le_rfl
    have hdiagonal := hprevious.2 column hcolumn.le
    rw [hshorter] at habove
    rw [hlonger] at hbefore
    rw [hshorter, hlonger, levenshtein_concat_concat, ← habove, ← hbefore, ← hdiagonal, Nat.add_sub_cancel]
  · exact hcells c (by omega)

lemma holdsUpTo_fillRow {shorter longer : List Nat} {row column : Nat} {rows : Rows}
    (hrows : rows.Hold shorter longer row) (hrow : row < longer.length) (hcolumn : column ≤ shorter.length) :
    HoldsUpTo shorter longer (row + 1) column (fillRow shorter (longer.getD row 0) (row + 1) rows column) := by
  obtain ⟨hprevious, hsize⟩ := hrows
  induction column with
  | zero =>
    refine ⟨by simpa [fillRow] using hsize, fun c hc => ?_⟩
    obtain rfl : c = 0 := by omega
    have hfirst : (fillRow shorter (longer.getD row 0) (row + 1) rows 0).getD 0 0 = row + 1 := by
      simp only [fillRow, List.range'_zero, List.foldl_nil]
      rw [getD_setIfInBounds _ _ _ _ (by omega), if_pos rfl]
    rw [hfirst, List.take_zero, levenshtein_nil_left, List.length_take]
    omega
  | succ column ih =>
    have hstep := holdsUpTo_fillCell hprevious (ih (by omega)) hrow hcolumn
    simpa only [fillRow, range'_one_succ, List.foldl_append, List.foldl_cons, List.foldl_nil] using hstep

/-- After every swap the previous row holds the distances for all units looked at so far; the stale cells of the
current row do not matter. -/
lemma holds_rowsAfter (shorter longer : List Nat) {count : Nat} (hcount : count ≤ longer.length) :
    (rowsAfter shorter longer count).Hold shorter longer count := by
  induction count with
  | zero =>
    refine ⟨⟨by simp [rowsAfter, Rows.initial], fun c hc => ?_⟩, by simp [rowsAfter, Rows.initial]⟩
    have hcell : (rowsAfter shorter longer 0).previous.getD c 0 = c := by
      simp [rowsAfter, Rows.initial, Array.getD_eq_getD_getElem?, Nat.lt_succ_of_le hc]
    rw [hcell, List.take_zero, levenshtein_nil_right, List.length_take]
    omega
  | succ count ih =>
    have hrows := ih (by omega)
    have hnext : rowsAfter shorter longer (count + 1) =
        (rowsAfter shorter longer count).next shorter longer (count + 1) := by
      simp only [rowsAfter, range'_one_succ, List.foldl_append, List.foldl_cons, List.foldl_nil]
    rw [hnext]
    exact ⟨holdsUpTo_fillRow hrows (by omega) le_rfl, hrows.1.1⟩

lemma orderedDistance_eq_levenshtein (shorter longer : List Nat) :
    orderedDistance shorter longer = levenshtein shorter longer := by
  unfold orderedDistance
  split
  · rename_i hempty
    rw [List.length_eq_zero_iff.mp hempty, levenshtein_nil_left]
  · rw [(holds_rowsAfter shorter longer le_rfl).1.2 _ le_rfl, List.take_length, List.take_length]

/-- What the rows compute is the least number of edits that lead from one word to the other. -/
theorem unitDistance_eq_levenshtein (xs ys : List Nat) : unitDistance xs ys = levenshtein xs ys := by
  unfold unitDistance
  split
  · exact orderedDistance_eq_levenshtein xs ys
  · rw [orderedDistance_eq_levenshtein, levenshtein_comm]

/-! ### The nearest candidate -/

/-- The least number of edits that lead from one text to the other when case does not count. -/
noncomputable def caselessLevenshtein (s t : String) : Nat :=
  levenshtein (Text.codeUnits (Text.lower s.toList)) (Text.codeUnits (Text.lower t.toList))

/-- The text is the first of the candidates that are nearest to a word: those in front of it are farther away, and
those behind it are not nearer. -/
def IsNearest (needle : String) (candidates : List String) (c : String) : Prop :=
  ∃ before after, candidates = before ++ c :: after ∧
    (∀ d ∈ before, caselessLevenshtein needle c < caselessLevenshtein needle d) ∧
    ∀ d ∈ after, caselessLevenshtein needle c ≤ caselessLevenshtein needle d

/-- Of two texts that are the first of the nearest candidates, the one that comes first is the other one. -/
lemma IsNearest.unique {needle : String} {candidates : List String} {c c' : String}
    (h : IsNearest needle candidates c) (h' : IsNearest needle candidates c') : c = c' := by
  obtain ⟨before, after, rfl, hbefore, hafter⟩ := h
  obtain ⟨before', after', hsplit, hbefore', hafter'⟩ := h'
  rcases List.append_eq_append_iff.mp hsplit with ⟨between, hfront, hback⟩ | ⟨between, hfront, hback⟩
  · cases between with
    | nil => exact (List.cons.inj hback).1
    | cons b between =>
      obtain ⟨rfl, rfl⟩ := List.cons.inj hback
      have hfarther := hbefore' c (by simp [hfront])
      have hnearer := hafter c' (by simp)
      omega
  · cases between with
    | nil => exact (List.cons.inj hback).1.symm
    | cons b between =>
      obtain ⟨rfl, rfl⟩ := List.cons.inj hback
      have hfarther := hbefore c' (by simp [hfront])
      have hnearer := hafter' c (by simp)
      omega

/-- What is known once some candidates have been looked at: the first of the nearest ones with its distance, or that
none is near enough. -/
def Best (needle : String) (maxDistance : Int) (candidates : List String) : Option (String × Nat) → Prop
  | some (c, d) => IsNearest needle candidates c ∧ caselessLevenshtein needle c = d ∧ d ≤ maxDistance
  | none => ∀ c ∈ candidates, maxDistance < caselessLevenshtein needle c

/-- The best candidate once one more has been looked at. -/
def consider (needle : String) (maxDistance : Int) (best : Option (String × Nat)) (candidate : String) :
    Option (String × Nat) :=
  let d := caselessDistance needle candidate
  if maxDistance < d then best else better best candidate d

lemma closest_eq (needle : String) (candidates : List String) (maxDistance : Int) :
    closest needle candidates maxDistance = (candidates.foldl (consider needle maxDistance) none).map (·.1) := rfl

/-- A candidate that is farther away than the nearest one so far, or as far away, changes nothing. -/
lemma IsNearest.concat {needle : String} {seen : List String} {c c' : String} (h : IsNearest needle seen c)
    (hle : caselessLevenshtein needle c ≤ caselessLevenshtein needle c') : IsNearest needle (seen ++ [c']) c := by
  obtain ⟨before, after, rfl, hbefore, hafter⟩ := h
  refine ⟨before, after ++ [c'], by simp, hbefore, fun d hd => ?_⟩
  rcases List.mem_append.mp hd with hd | hd
  · exact hafter d hd
  · rwa [List.mem_singleton.mp hd]

/-- No candidate is nearer than the first of the nearest ones. -/
lemma IsNearest.le {needle : String} {seen : List String} {c d : String} (h : IsNearest needle seen c)
    (hd : d ∈ seen) : caselessLevenshtein needle c ≤ caselessLevenshtein needle d := by
  obtain ⟨before, after, rfl, hbefore, hafter⟩ := h
  rcases List.mem_append.mp hd with hd | hd
  · exact (hbefore d hd).le
  · rcases List.mem_cons.mp hd with rfl | hd
    · exact le_rfl
    · exact hafter d hd

lemma best_consider {needle : String} {maxDistance : Int} {seen : List String} {best : Option (String × Nat)}
    (h : Best needle maxDistance seen best) (c : String) :
    Best needle maxDistance (seen ++ [c]) (consider needle maxDistance best c) := by
  have hdistance : caselessDistance needle c = caselessLevenshtein needle c := unitDistance_eq_levenshtein _ _
  simp only [consider, hdistance]
  split
  · rename_i hfar
    cases best with
    | none =>
      intro d hd
      rcases List.mem_append.mp hd with hd | hd
      · exact h d hd
      · rwa [List.mem_singleton.mp hd]
    | some b =>
      obtain ⟨hnearest, hdist, hle⟩ := h
      exact ⟨hnearest.concat (by omega), hdist, hle⟩
  · rename_i hnear
    cases best with
    | none =>
      refine ⟨⟨seen, [], rfl, fun d hd => ?_, fun d hd => absurd hd List.not_mem_nil⟩, rfl, by omega⟩
      have hfar := h d hd
      omega
    | some b =>
      obtain ⟨hnearest, hdist, hle⟩ := h
      simp only [better]
      split
      · refine ⟨⟨seen, [], rfl, fun d hd => ?_, fun d hd => absurd hd List.not_mem_nil⟩, rfl, by omega⟩
        have hfar := hnearest.le hd
        omega
      · exact ⟨hnearest.concat (by omega), hdist, hle⟩

lemma best_foldl {needle : String} {maxDistance : Int} {seen : List String} {best : Option (String × Nat)}
    (h : Best needle maxDistance seen best) (candidates : List String) :
    Best needle maxDistance (seen ++ candidates) (candidates.foldl (consider needle maxDistance) best) := by
  induction candidates generalizing seen best with
  | nil => simpa using h
  | cons c candidates ih => simpa using ih (best_consider h c)

/-- The suggestion is one of the candidates. -/
lemma mem_of_closest {needle : String} {candidates : List String} {maxDistance : Int} {c : String}
    (h : closest needle candidates maxDistance = some c) : c ∈ candidates := by
  have hbest := best_foldl (show Best needle maxDistance [] none by simp [Best]) candidates
  rw [List.nil_append] at hbest
  rw [closest_eq, Option.map_eq_some_iff] at h
  obtain ⟨⟨_, d⟩, hfold, rfl⟩ := h
  rw [hfold] at hbest
  obtain ⟨⟨before, after, rfl, -, -⟩, -⟩ := hbest
  simp

/-- The distance of two texts is the least number of edits of their units.  The suggestion is the first of the
candidates that are nearest to the word, whatever their case, if they are near enough; otherwise there is none. -/
theorem closest_isNearest (needle : String) (candidates : List String) (maxDistance : Int) :
    (∀ s t : String, distance s t = levenshtein (Text.codeUnits s.toList) (Text.codeUnits t.toList)) ∧
      (∀ c, closest needle candidates maxDistance = some c ↔
        IsNearest needle candidates c ∧ caselessLevenshtein needle c ≤ maxDistance) ∧
      (closest needle candidates maxDistance = none ↔
        ∀ c ∈ candidates, maxDistance < caselessLevenshtein needle c) := by
  have hnone : Best needle maxDistance [] none := by simp [Best]
  have hbest := best_foldl hnone candidates
  rw [List.nil_append] at hbest
  refine ⟨fun s t => unitDistance_eq_levenshtein _ _, ?_⟩
  rw [closest_eq]
  revert hbest
  cases candidates.foldl (consider needle maxDistance) none with
  | none =>
    intro hfar
    refine ⟨fun c => ⟨fun h => by simp at h, ?_⟩, fun _ => hfar, fun _ => rfl⟩
    rintro ⟨⟨before, after, rfl, -, -⟩, hle⟩
    exact absurd (hfar c (by simp)) (not_lt.mpr hle)
  | some b =>
    rintro ⟨hnearest, hdist, hle⟩
    have hnear : caselessLevenshtein needle b.1 ≤ maxDistance := by omega
    constructor
    · intro c
      simp only [Option.map_some, Option.some.injEq]
      constructor
      · rintro rfl
        exact ⟨hnearest, hnear⟩
      · rintro ⟨hnearest', -⟩
        exact hnearest.unique hnearest'
    · simp only [Option.map_some, reduceCtorEq, false_iff]
      intro hfar
      obtain ⟨before, after, rfl, -, -⟩ := hnearest
      exact absurd (hfar b.1 (by simp)) (not_lt.mpr hnear)

end Suggestion

end EntitySchema
