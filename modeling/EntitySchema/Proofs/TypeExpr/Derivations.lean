import Mathlib.Data.List.TakeWhile
import Mathlib.Tactic.Common
import EntitySchema.Proofs.TypeExpr.Grammar

/-!
# What is read is derived

Every step of the reader passes over a text (`Cursor.Passes`) and gives what the grammar says about this text, or
fails at a place between the cursor and the end (`Reads`).  The steps are put together in the order in which the
reader takes them, from the name to the nested arguments (`reads_takeType`, `reads_takeTypes`).  So a text that is
read derives what is read (`derives_of_read`), and an error lies inside of the text (`located_of_read`).
-/

namespace EntitySchema

open Text (units IsBlanks isBlanks_nil)

namespace TypeExpr

/-! ### Moving through a text -/

namespace Cursor

/-- What stands between two cursors. -/
structure Passes (c : Cursor) (cs : List Char) (c' : Cursor) : Prop where
  rest : c.rest = cs ++ c'.rest
  offset : c'.offset = c.offset + units cs

variable {c c' : Cursor} {cs : List Char}

lemma Passes.refl (c : Cursor) : c.Passes [] c :=
  ⟨rfl, rfl⟩

lemma Passes.trans {c'' : Cursor} {ds : List Char} (h : c.Passes cs c') (h' : c'.Passes ds c'') :
    c.Passes (cs ++ ds) c'' := by
  refine ⟨by rw [h.rest, h'.rest, List.append_assoc], ?_⟩
  rw [h'.offset, h.offset, Text.units_append, Nat.add_assoc]

/-- Moving behind a text that stands at the cursor. -/
lemma passes_advance (h : cs <+: c.rest) : c.Passes cs (c.advance cs.length) := by
  obtain ⟨rest, hrest⟩ := h
  constructor <;> simp [advance, ← hrest]

lemma passes_advance_one {ch : Char} (h : c.sees ch = true) : c.Passes [ch] (c.advance 1) := by
  rw [sees, beq_iff_eq, List.head?_eq_some_iff] at h
  obtain ⟨rest, hrest⟩ := h
  have hstarts : [ch] <+: c.rest := ⟨rest, hrest.symm⟩
  exact passes_advance hstarts

lemma exists_passes_skipBlanks (c : Cursor) : ∃ blanks, IsBlanks blanks ∧ c.Passes blanks c.skipBlanks :=
  ⟨_, fun _ h => List.mem_takeWhile_imp h, passes_advance (List.takeWhile_prefix _)⟩

/-- An error at an offset between the cursor and the end of the text. -/
structure Locates (c : Cursor) (e : TypeExprError) : Prop where
  le_start : c.offset ≤ e.start
  start_le_stop : e.start ≤ e.stop
  stop_le : e.stop ≤ c.offset + units c.rest

lemma locates_fail (c : Cursor) (fault : TypeExprFault) : c.Locates (c.fail fault) := by
  unfold fail
  cases hrest : c.rest with
  | nil => exact ⟨Nat.le_refl _, Nat.le_refl _, by simp [hrest]⟩
  | cons a as =>
    have hwidth := Text.width_pos a
    refine ⟨Nat.le_refl _, by simp, ?_⟩
    simp only [hrest, List.isEmpty_cons, Bool.false_eq_true, if_false, Text.units]
    omega

/-- An error behind a later cursor is one behind the earlier cursor. -/
lemma Passes.locates {e : TypeExprError} (h : c.Passes cs c') (he : c'.Locates e) : c.Locates e := by
  have hoffset := h.offset
  have hunits : units c.rest = units cs + units c'.rest := by rw [h.rest, Text.units_append]
  obtain ⟨hstart, horder, hstop⟩ := he
  exact ⟨by omega, horder, by omega⟩

end Cursor

/-! ### What is read -/

/-- What a step reads: either a text with the given property stands between the cursor and the one that the step
gives back, or the error is behind the cursor. -/
def Reads {α : Type} {p : α × Cursor → Prop} (P : List Char → α → Prop) (c : Cursor) :
    Except TypeExprError { r : α × Cursor // p r } → Prop
  | .ok r => ∃ cs, P cs r.1.1 ∧ c.Passes cs r.1.2
  | .error e => c.Locates e

/-- White space may be added behind an expression. -/
lemma DerivesSpaced.append_blanks {offset : Nat} {cs blanks : List Char} {e : TypeExpr} (h : DerivesSpaced offset cs e)
    (hblanks : IsBlanks blanks) : DerivesSpaced offset (cs ++ blanks) e := by
  cases h with
  | @intro _ before body after _ hbefore h hafter =>
    rw [List.append_assoc]
    exact .intro hbefore h (List.forall_mem_append.mpr ⟨hafter, hblanks⟩)

section Reads

variable {α : Type} {p : α × Cursor → Prop} {P : List Char → α → Prop} {c : Cursor}
  {result : Except TypeExprError { r : α × Cursor // p r }}

lemma Reads.of_ok (h : Reads P c result) {a : α} {c' : Cursor} {hp : p (a, c')} (hresult : result = .ok ⟨(a, c'), hp⟩) :
    ∃ cs, P cs a ∧ c.Passes cs c' := by
  rw [hresult] at h
  exact h

lemma Reads.of_error (h : Reads P c result) {e : TypeExprError} (hresult : result = .error e) : c.Locates e := by
  rw [hresult] at h
  exact h

/-- What holds of every text with the property may be said of the text that is read. -/
lemma Reads.imp {Q : List Char → α → Prop} (h : Reads P c result) (hQ : ∀ cs a, P cs a → Q cs a) :
    Reads Q c result := by
  cases result with
  | error e => exact h
  | ok r =>
    obtain ⟨cs, hP, hpasses⟩ := h
    exact ⟨cs, hQ cs r.1.1 hP, hpasses⟩

end Reads

section Steps

variable {c : Cursor}

lemma reads_takeWord {word : List Char} (h : word <+: c.rest) (fault : TypeExprFault) :
    Reads (fun cs s => cs = word ∧ word ≠ [] ∧ s = String.ofList word) c (takeWord c word fault) := by
  unfold takeWord
  split
  · rename_i hlength
    exact ⟨word, ⟨rfl, List.ne_nil_of_length_pos hlength.1, rfl⟩, Cursor.passes_advance h⟩
  · exact Cursor.locates_fail c fault

lemma reads_takeChar (c : Cursor) (ch : Char) (fault : TypeExprFault) :
    Reads (fun cs _ => cs = [ch]) c (takeChar c ch fault) := by
  unfold takeChar
  split
  · rename_i hsees
    exact ⟨[ch], rfl, Cursor.passes_advance_one hsees⟩
  · exact Cursor.locates_fail c fault

lemma nameAt_prefix_self (cs : List Char) : nameAt cs <+: cs := by
  unfold nameAt
  split
  · split
    · exact List.cons_prefix_cons.mpr ⟨rfl, List.takeWhile_prefix _⟩
    · exact List.nil_prefix
  · exact List.nil_prefix

lemma isName_nameAt {cs : List Char} (h : nameAt cs ≠ []) : IsName (nameAt cs) := by
  unfold nameAt at h ⊢
  split at h
  · split at h
    · rename_i c rest hstart
      rw [if_pos hstart]
      exact ⟨c, _, rfl, hstart, fun d hd => List.mem_takeWhile_imp hd⟩
    · exact absurd rfl h
  · exact absurd rfl h

lemma reads_name (c : Cursor) (fault : TypeExprFault) :
    Reads (fun cs s => IsName cs ∧ s = String.ofList cs) c (takeWord c (nameAt c.rest) fault) := by
  refine (reads_takeWord (nameAt_prefix_self c.rest) fault).imp ?_
  rintro cs s ⟨rfl, hne, hs⟩
  exact ⟨isName_nameAt hne, hs⟩

lemma reads_digits (c : Cursor) (fault : TypeExprFault) :
    Reads (fun cs _ => IsDigits cs ∧ cs = c.rest.takeWhile Number.isDigit) c
      (takeWord c (c.rest.takeWhile Number.isDigit) fault) := by
  refine (reads_takeWord (List.takeWhile_prefix _) fault).imp ?_
  rintro cs s ⟨rfl, hne, -⟩
  exact ⟨⟨hne, fun d hd => List.mem_takeWhile_imp hd⟩, rfl⟩

lemma reads_takeAlias (c : Cursor) : Reads AliasPart c (takeAlias c) := by
  unfold takeAlias
  split
  · rename_i hword
    have hstarts := Cursor.passes_advance (List.isPrefixOf_iff_prefix.mp hword)
    dsimp only
    split
    · rename_i e hresult
      exact hstarts.locates ((reads_name _ _).of_error hresult)
    · rename_i moduleAlias c₂ h₂ hresult
      obtain ⟨word, ⟨hword, rfl⟩, hname⟩ := (reads_name _ _).of_ok hresult
      split
      · rename_i e hresult
        exact hstarts.locates (hname.locates ((reads_takeChar _ _ _).of_error hresult))
      · rename_i c₃ h₃ hresult
        obtain ⟨_, rfl, hcolon⟩ := (reads_takeChar _ _ _).of_ok hresult
        exact ⟨_, .present hword, (hstarts.trans hname).trans hcolon⟩
  · exact ⟨[], .absent, Cursor.Passes.refl c⟩

/-- The number nearest to a natural number, from its decimal digits. -/
lemma ofDecimal_zero (n : Nat) : Number.ofDecimal false n 0 = Number.ofNat n := by
  unfold Number.ofDecimal Number.ofNat
  split
  · rename_i hn
    rw [hn]
    rfl
  · rw [if_neg (by decide), if_neg (by omega), if_pos (Int.le_refl 0)]
    simp

lemma reads_takeDimension (name : String) (c : Cursor) : Reads DimensionInside c (takeDimension name c) := by
  unfold takeDimension
  obtain ⟨before, hbefore, hskip⟩ := c.exists_passes_skipBlanks
  have hdigits := reads_digits c.skipBlanks (.missingDimension name)
  dsimp only
  split
  · rename_i e hresult
    exact hskip.locates (hdigits.of_error hresult)
  · rename_i c₂ h₂ hresult
    obtain ⟨digits, ⟨hisDigits, hvalue⟩, hpasses⟩ := hdigits.of_ok hresult
    obtain ⟨after, hafter, hskip'⟩ := c₂.exists_passes_skipBlanks
    split
    · rename_i e hresult
      exact hskip.locates (hpasses.locates (hskip'.locates ((reads_takeChar _ _ _).of_error hresult)))
    · rename_i c₄ h₄ hresult
      obtain ⟨_, rfl, hclose⟩ := (reads_takeChar _ _ _).of_ok hresult
      refine ⟨_, ?_, ((hskip.trans hpasses).trans hskip').trans hclose⟩
      rw [ofDecimal_zero, ← hvalue]
      exact .intro hbefore hisDigits hafter

/-- The text at the offset is what stands in front of the arguments. -/
inductive DerivesHead (offset : Nat) : List Char → Head → Prop
  | intro {as name ds : List Char} {moduleAlias : Option String} {dimension : Option Number}
      (halias : AliasPart as moduleAlias) (hname : IsName name) (hdimension : DimensionPart ds dimension) :
      DerivesHead offset (as ++ name ++ ds)
        ⟨moduleAlias, String.ofList name, dimension, offset, offset + units (as ++ name ++ ds)⟩

lemma DerivesHead.stop_eq {offset : Nat} {cs : List Char} {head : Head} (h : DerivesHead offset cs head) :
    head.stop = offset + units cs := by
  cases h
  rfl

/-- What stands in front of the arguments, with white space around it. -/
inductive DerivesHeadSpaced (offset : Nat) : List Char → Head → Prop
  | intro {before body after : List Char} {head : Head} (hbefore : IsBlanks before)
      (h : DerivesHead (offset + units before) body head) (hafter : IsBlanks after) :
      DerivesHeadSpaced offset (before ++ body ++ after) head

/-- The three texts that are passed one after the other. -/
lemma DerivesHead.of_passes {c c₁ c₂ c₃ : Cursor} {before as name ds after : List Char} {moduleAlias : Option String}
    {dimension : Option Number} (halias : AliasPart as moduleAlias) (hname : IsName name)
    (hdimension : DimensionPart ds dimension) (hskip : c.Passes before c₁) (hbefore : IsBlanks before)
    (hbody : c₁.Passes (as ++ name ++ ds) c₂) (hskip' : c₂.Passes after c₃) (hafter : IsBlanks after) :
    ∃ cs, DerivesHeadSpaced c.offset cs ⟨moduleAlias, String.ofList name, dimension, c₁.offset, c₂.offset⟩ ∧
      c.Passes cs c₃ := by
  refine ⟨_, ?_, (hskip.trans hbody).trans hskip'⟩
  rw [hbody.offset, hskip.offset]
  exact .intro hbefore (.intro halias hname hdimension) hafter

lemma reads_takeHead (c : Cursor) : Reads (DerivesHeadSpaced c.offset) c (takeHead c) := by
  unfold takeHead
  obtain ⟨before, hbefore, hskip⟩ := c.exists_passes_skipBlanks
  dsimp only
  split
  · rename_i e hresult
    exact hskip.locates ((reads_takeAlias _).of_error hresult)
  rename_i moduleAlias c₂ h₂ hresult
  obtain ⟨as, halias, hpassesAlias⟩ := (reads_takeAlias _).of_ok hresult
  split
  · rename_i e hresult
    exact hskip.locates (hpassesAlias.locates ((reads_name _ _).of_error hresult))
  rename_i name c₃ h₃ hresult
  obtain ⟨word, ⟨hname, rfl⟩, hpassesName⟩ := (reads_name _ _).of_ok hresult
  obtain ⟨blanks, hblanks, hskip'⟩ := c₃.exists_passes_skipBlanks
  have hfront := hpassesAlias.trans hpassesName
  split
  · rename_i hopen
    have hbracket := hskip'.trans (Cursor.passes_advance_one hopen)
    split
    · rename_i e hresult
      exact hskip.locates (hfront.locates (hbracket.locates ((reads_takeDimension _ _).of_error hresult)))
    · rename_i dimension c₆ h₆ hresult
      obtain ⟨inside, hinside, hpasses⟩ := (reads_takeDimension _ _).of_ok hresult
      obtain ⟨after, hafter, hskip''⟩ := c₆.exists_passes_skipBlanks
      have hdimension : c₃.Passes (blanks ++ '(' :: inside) c₆ := by simpa using hbracket.trans hpasses
      exact DerivesHead.of_passes halias hname (.present hblanks hinside) hskip hbefore (hfront.trans hdimension) hskip''
        hafter
  · have hbody : c.skipBlanks.Passes (as ++ word ++ []) c₃ := by simpa using hfront
    exact DerivesHead.of_passes halias hname .absent hskip hbefore hbody hskip' hblanks

/-- The question mark is taken where it may stand behind white space. -/
lemma passes_finish {c c₁ : Cursor} {blanks : List Char} (hskip : c.Passes blanks c₁) (hblanks : IsBlanks blanks)
    (head : Head) (generics : List TypeExpr) :
    ∃ qs nullable after, MarkPart qs nullable ∧ IsBlanks after ∧
      c.Passes (qs ++ after) (finish head generics c.offset c₁).1.2 ∧
      (finish head generics c.offset c₁).1.1 =
        ⟨head.name, head.moduleAlias, nullable, head.dimension, generics, head.start, c.offset + units qs⟩ := by
  unfold finish
  split
  · rename_i hmark
    have hpasses := hskip.trans (Cursor.passes_advance_one hmark)
    refine ⟨blanks ++ ['?'], true, [], .present hblanks, isBlanks_nil, ?_, ?_⟩
    · rwa [List.append_nil]
    · rw [← hpasses.offset, (Cursor.passes_advance_one hmark).offset]
      rfl
  · exact ⟨[], false, blanks, .absent, hblanks, hskip, rfl⟩

/-- An expression is put together from what stands in front of its arguments, the arguments and the question mark. -/
lemma DerivesHead.finish {c c₀ c₁ c₂ : Cursor} {before body gs blanks : List Char} {head : Head}
    {generics : List TypeExpr} (hhead : DerivesHead (c.offset + units before) body head) (hbefore : IsBlanks before)
    (hfront : c.Passes (before ++ body) c₀) (hgenerics : DerivesArguments c₀.offset gs generics)
    (harguments : c₀.Passes gs c₁) (hskip : c₁.Passes blanks c₂) (hblanks : IsBlanks blanks) :
    ∃ cs, DerivesSpaced c.offset cs (TypeExpr.finish head generics c₁.offset c₂).1.1 ∧
      c.Passes cs (TypeExpr.finish head generics c₁.offset c₂).1.2 := by
  obtain ⟨qs, nullable, after, hmark, hafter, hpasses, heq⟩ := passes_finish hskip hblanks head generics
  have hinside : c₀.offset = c.offset + units before + units body := by
    rw [hfront.offset, Text.units_append, Nat.add_assoc]
  have hstop : c₁.offset + units qs = c.offset + units before + units (body ++ gs ++ qs) := by
    rw [harguments.offset, hinside, Text.units_append _ qs, Text.units_append _ gs]
    omega
  refine ⟨before ++ (body ++ gs ++ qs) ++ after, ?_, ?_⟩
  · rw [heq, hstop]
    rw [hinside] at hgenerics
    cases hhead with
    | intro halias hname hdimension => exact .intro hbefore (.intro halias hname hdimension hgenerics hmark) hafter
  · have hwhole := (hfront.trans harguments).trans hpasses
    simpa using hwhole

mutual

/-- What is taken as an expression is derived, and an error is behind the cursor. -/
theorem reads_takeType (c : Cursor) : Reads (DerivesSpaced c.offset) c (takeType c) := by
  unfold takeType
  split
  · rename_i e hresult
    exact (reads_takeHead _).of_error hresult
  rename_i head c₁ h₁ hresult
  obtain ⟨_, hhead, hpasses⟩ := (reads_takeHead _).of_ok hresult
  cases hhead with
  | @intro before body after _ hbefore hhead hafter =>
  -- The cursor behind the name and the dimension, in front of the white space.
  have hfront : c.Passes (before ++ body) ⟨c.offset + units before + units body, after ++ c₁.rest⟩ := by
    refine ⟨by rw [hpasses.rest, List.append_assoc], ?_⟩
    rw [Text.units_append, Nat.add_assoc]
  have hskip : Cursor.Passes ⟨c.offset + units before + units body, after ++ c₁.rest⟩ after c₁ := by
    refine ⟨rfl, ?_⟩
    rw [hpasses.offset, Text.units_append, Text.units_append, Nat.add_assoc, Nat.add_assoc, Nat.add_assoc]
  split
  · rename_i hopen
    have hbracket := Cursor.passes_advance_one hopen
    have hlt : 2 * (c₁.advance 1).rest.length + 1 < 2 * c.rest.length := by
      have hadvance := c₁.length_advance_lt hopen
      simp only at h₁
      omega
    dsimp only
    have harguments := reads_takeTypes (c₁.advance 1)
    split
    · rename_i e hresult
      exact hpasses.locates (hbracket.locates (harguments.of_error hresult))
    rename_i generics c₃ h₃ hresult
    obtain ⟨inside, hinside, hpassesInside⟩ := harguments.of_ok hresult
    have hopened := (hpasses.trans hbracket).trans hpassesInside
    split
    · rename_i e hresult
      exact hopened.locates ((reads_takeChar _ _ _).of_error hresult)
    rename_i c₄ h₄ hresult
    obtain ⟨_, rfl, hclose⟩ := (reads_takeChar _ _ _).of_ok hresult
    obtain ⟨blanks, hblanks, hskip'⟩ := c₄.exists_passes_skipBlanks
    have hgenerics := (((hskip.trans hbracket).trans hpassesInside).trans hclose)
    rw [hbracket.offset, hskip.offset] at hinside
    have hpresent := DerivesArguments.present hafter hinside
    exact hhead.finish hbefore hfront hpresent (by simpa using hgenerics) hskip' hblanks
  · rw [hhead.stop_eq]
    exact hhead.finish hbefore hfront .absent (.refl _) hskip hafter
termination_by 2 * c.rest.length

theorem reads_takeTypes (c : Cursor) : Reads (DerivesAll c.offset) c (takeTypes c) := by
  unfold takeTypes
  have hfirst := reads_takeType c
  split
  · rename_i e hresult
    exact hfirst.of_error hresult
  rename_i e c₁ h₁ hresult
  obtain ⟨cs, he, hpasses⟩ := hfirst.of_ok hresult
  obtain ⟨blanks, hblanks, hskip⟩ := c₁.exists_passes_skipBlanks
  have hspaced := he.append_blanks hblanks
  dsimp only
  split
  · rename_i hcomma
    have hlt : (c₁.skipBlanks.advance 1).rest.length < c.rest.length := by
      have h₂ := c₁.length_skipBlanks_le
      have h₃ := c₁.skipBlanks.length_advance_lt hcomma
      simp only at h₁
      omega
    have hbehind := (hpasses.trans hskip).trans (Cursor.passes_advance_one hcomma)
    have hrest := reads_takeTypes (c₁.skipBlanks.advance 1)
    split
    · rename_i e hresult
      exact hbehind.locates (hrest.of_error hresult)
    rename_i es c₂ h₂ hresult
    obtain ⟨rest, hes, hpassesRest⟩ := hrest.of_ok hresult
    rw [hbehind.offset, Text.units_append _ [',']] at hes
    refine ⟨_, .more hspaced hes, ?_⟩
    simpa using hbehind.trans hpassesRest
  · exact ⟨_, .one hspaced, hpasses.trans hskip⟩
termination_by 2 * c.rest.length + 1

end

end Steps

/-- A text that is read derives what is read. -/
lemma derives_of_read {text : String} {e : TypeExpr} (h : read text = .ok e) : DerivesSpaced 0 text.toList e := by
  have hreads := reads_takeType ⟨0, text.toList⟩
  unfold read at h
  dsimp only at h
  split at h
  · cases h
  rename_i t c hc hresult
  obtain ⟨cs, hcs, hpasses⟩ := hreads.of_ok hresult
  obtain ⟨blanks, hblanks, hskip⟩ := c.exists_passes_skipBlanks
  split at h
  · rename_i hend
    cases h
    have hwhole : text.toList = cs ++ blanks := by
      simpa [List.isEmpty_iff.mp hend] using (hpasses.trans hskip).rest
    rw [hwhole]
    exact hcs.append_blanks hblanks
  · cases h

/-- An error is inside of the text. -/
lemma located_of_read {text : String} {e : TypeExprError} (h : read text = .error e) :
    e.start ≤ e.stop ∧ e.stop ≤ units text.toList := by
  have hreads := reads_takeType ⟨0, text.toList⟩
  unfold read at h
  dsimp only at h
  split at h
  · rename_i e' hresult
    cases h
    obtain ⟨-, horder, hstop⟩ := hreads.of_error hresult
    exact ⟨horder, by simpa using hstop⟩
  rename_i t c hc hresult
  obtain ⟨cs, -, hpasses⟩ := hreads.of_ok hresult
  obtain ⟨blanks, -, hskip⟩ := c.exists_passes_skipBlanks
  split at h
  · cases h
  · cases h
    have hwhole := hpasses.trans hskip
    have hoffset : c.skipBlanks.offset = units (cs ++ blanks) := by simpa using hwhole.offset
    have hunits : units text.toList = units (cs ++ blanks) + units c.skipBlanks.rest := by
      rw [← Text.units_append, ← hwhole.rest]
    refine ⟨?_, Nat.le_refl _⟩
    dsimp only
    omega

end TypeExpr

end EntitySchema
