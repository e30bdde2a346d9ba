import Mathlib.Data.List.Basic
import Mathlib.Tactic.Common
import EntitySchema.Proofs.Diagnostics
import EntitySchema.Proofs.Numerals
import EntitySchema.Proofs.Suggestion
import EntitySchema.Proofs.TypeExpr.Rendering

/-!
# Texts of one line

A text is a line if it has no line feed (`IsLine`).  A message is put together from texts that are written out, which
are lines (`IsLine.lit`), and from others, so it is a line if these are; a numeral always is one (`isLine_text`), and so
is the text of a type whose names are (`TypeDef.HasLines.describe`).
-/

namespace EntitySchema

/-- The text has no line feed. -/
def IsLine (s : String) : Prop := '\n' ∉ s.toList

instance (s : String) : Decidable (IsLine s) := inferInstanceAs (Decidable ('\n' ∉ s.toList))

lemma isLine_ofList (cs : List Char) : IsLine (String.ofList cs) ↔ '\n' ∉ cs := by
  rw [IsLine, String.toList_ofList]

/-- A text that is written out is known by its characters. -/
lemma IsLine.lit {cs : List Char} (h : '\n' ∉ cs) : IsLine (String.ofList cs) :=
  (isLine_ofList cs).mpr h

@[simp] lemma isLine_append (s t : String) : IsLine (s ++ t) ↔ IsLine s ∧ IsLine t := by
  rw [IsLine, String.toList_append, List.mem_append, not_or]
  rfl

lemma IsLine.append {s t : String} (hs : IsLine s) (ht : IsLine t) : IsLine (s ++ t) :=
  (isLine_append s t).mpr ⟨hs, ht⟩

/-- A text between two texts that are written out. -/
lemma IsLine.between {s : String} (h : IsLine s) {before after : List Char} (hbefore : '\n' ∉ before)
    (hafter : '\n' ∉ after) : IsLine (String.ofList before ++ s ++ String.ofList after) :=
  ((IsLine.lit hbefore).append h).append (.lit hafter)

/-- A further text and a text that is written out. -/
lemma IsLine.and {s t : String} (hs : IsLine s) (ht : IsLine t) {after : List Char} (hafter : '\n' ∉ after) :
    IsLine (s ++ t ++ String.ofList after) :=
  (hs.append ht).append (.lit hafter)

/-- What is cut out of a line is a line. -/
lemma IsLine.of_subset {s : String} {cs : List Char} (h : IsLine s) (hcs : cs ⊆ s.toList) : IsLine (String.ofList cs) :=
  IsLine.lit fun hmem => h (hcs hmem)

/-- A text whose characters all pass a test that a line feed does not pass is a line. -/
lemma isLine_of_forall {cs : List Char} (p : Char → Bool) (hfeed : p '\n' = false) (h : ∀ c ∈ cs, p c = true) :
    IsLine (String.ofList cs) :=
  IsLine.lit fun hmem => by simpa [hfeed] using h '\n' hmem

lemma IsLine.quoted {s : String} (h : IsLine s) : IsLine (quoted s) :=
  h.between (by decide) (by decide)

lemma isLine_intercalate {sep : String} {ss : List String} (hsep : IsLine sep) (h : ∀ s ∈ ss, IsLine s) :
    IsLine (sep.intercalate ss) := by
  induction ss with
  | nil => exact .lit (by decide)
  | cons s ss ih =>
    obtain ⟨hs, hss⟩ := List.forall_mem_cons.mp h
    cases ss with
    | nil =>
      rw [String.intercalate_singleton]
      exact hs
    | cons t ss =>
      rw [String.intercalate_cons_cons]
      exact .append (.append hs hsep) (ih hss)

lemma isLine_quoteList {values : List String} (h : ∀ v ∈ values, IsLine v) : IsLine (quoteList values) := by
  unfold quoteList
  have hreversed : ∀ v ∈ values.reverse, IsLine v := fun v hv => h v (List.mem_reverse.mp hv)
  revert hreversed
  rcases values.reverse with _ | ⟨last, _ | ⟨before, rest⟩⟩
  · exact fun _ => .lit (by decide)
  · exact fun hvalues => (hvalues last List.mem_cons_self).quoted
  · intro hvalues
    obtain ⟨hlast, hbefore⟩ := List.forall_mem_cons.mp hvalues
    refine .append (.append (isLine_intercalate (.lit (by decide)) ?_) (.lit (by decide))) hlast.quoted
    intro s hs
    obtain ⟨v, hv, rfl⟩ := List.mem_map.mp hs
    exact (hbefore v (List.mem_reverse.mp hv)).quoted

/-- The hint behind a message is a line if the words that it may name are. -/
lemma isLine_hint {needle : String} {candidates : List String} {otherwise : String}
    (h : ∀ c ∈ candidates, IsLine c) (hotherwise : IsLine otherwise) :
    IsLine (Suggestion.hint needle candidates otherwise) := by
  unfold Suggestion.hint
  split
  · rename_i c hc
    exact (h c (Suggestion.mem_of_closest hc)).between (by decide) (by decide)
  · exact hotherwise

/-! ### Results -/

/-- One property holds if there is a result, and the other one if there is an error. -/
def Either {ε α : Type} (P : α → Prop) (Q : ε → Prop) : Except ε α → Prop
  | .ok a => P a
  | .error e => Q e

section Either

variable {ε α : Type} {P : α → Prop} {Q : ε → Prop} {r : Except ε α}

lemma Either.of_ok (h : Either P Q r) {a : α} (hr : r = .ok a) : P a := by
  rw [hr] at h
  exact h

lemma Either.of_error (h : Either P Q r) {e : ε} (hr : r = .error e) : Q e := by
  rw [hr] at h
  exact h

end Either

/-- The property holds of the value if there is one. -/
def Each {α : Type} (P : α → Prop) (o : Option α) : Prop :=
  ∀ a, o = some a → P a

section Each

variable {α : Type} {P : α → Prop}

lemma each_none : Each P none :=
  fun _ h => nomatch h

lemma each_some {a : α} (h : P a) : Each P (some a) := by
  intro b hb
  rwa [← Option.some.inj hb]

end Each

/-- The text, if there is one, is a line. -/
def OptionalLine (o : Option (Spanned String)) : Prop :=
  Each (fun s : Spanned String => IsLine s.value) o

/-! ### Numerals -/

lemma isLine_digits {cs : List Char} (h : ∀ c ∈ cs, Number.isDigit c = true) : IsLine (String.ofList cs) :=
  isLine_of_forall Number.isDigit rfl h

lemma isLine_natText (n : Nat) : IsLine (toString n) :=
  isLine_digits fun _ => Number.isDigit_of_mem_toDigits

lemma isLine_intText (n : Int) : IsLine (toString n) := by
  cases n with
  | ofNat n => exact isLine_natText n
  | negSucc n => exact .append (.lit (by decide)) (isLine_natText (n + 1))

namespace Number

/-- The characters of numerals. -/
def isNumeralChar (c : Char) : Bool :=
  isDigit c || c == '.' || c == 'e' || c == '+' || c == '-'

lemma isNumeralChar_of_isDigit {c : Char} (h : isDigit c = true) : isNumeralChar c = true := by
  simp [isNumeralChar, h]

lemma isNumeralChar_layOut {d : Digits} (h : ∀ c ∈ d.digits, isDigit c = true) :
    ∀ c ∈ d.layOut plainStyle, isNumeralChar c = true := by
  have hdigits : ∀ c ∈ d.digits, isNumeralChar c = true := fun c hc => isNumeralChar_of_isDigit (h c hc)
  have hzeros : ∀ n, ∀ c ∈ List.replicate n '0', isNumeralChar c = true :=
    fun n c hc => isNumeralChar_of_isDigit (isDigit_of_mem_replicate hc)
  have hpower : ∀ n, ∀ c ∈ decimal n, isNumeralChar c = true :=
    fun n c hc => isNumeralChar_of_isDigit (isDigit_of_mem_toDigits hc)
  have hsign : isNumeralChar (if d.exponent - 1 < 0 then '-' else '+') = true := by
    split <;> decide
  have hexponent : ∀ c ∈ 'e' :: (if d.exponent - 1 < 0 then '-' else '+') :: decimal (d.exponent - 1).natAbs,
      isNumeralChar c = true :=
    List.forall_mem_cons.mpr ⟨by decide, List.forall_mem_cons.mpr ⟨hsign, hpower _⟩⟩
  rw [Digits.layOut]
  dsimp only
  by_cases hwhole :
      (decide ((d.digits.length : Int) ≤ d.exponent) && decide (d.exponent ≤ plainStyle.positionalUpTo)) = true
  · rw [if_pos hwhole]
    exact List.forall_mem_append.mpr ⟨hdigits, hzeros _⟩
  rw [if_neg hwhole]
  by_cases hpoint : (decide (0 < d.exponent) && decide (d.exponent ≤ plainStyle.positionalUpTo)) = true
  · rw [if_pos hpoint]
    refine List.forall_mem_append.mpr ⟨fun c hc => hdigits c (List.mem_of_mem_take hc), ?_⟩
    exact List.forall_mem_cons.mpr ⟨by decide, fun c hc => hdigits c (List.mem_of_mem_drop hc)⟩
  rw [if_neg hpoint]
  by_cases hfraction : (decide (plainStyle.positionalFrom ≤ d.exponent) && decide (d.exponent ≤ 0)) = true
  · rw [if_pos hfraction]
    refine List.forall_mem_append.mpr ⟨?_, hdigits⟩
    exact List.forall_mem_cons.mpr ⟨by decide, List.forall_mem_cons.mpr ⟨by decide, hzeros _⟩⟩
  rw [if_neg hfraction]
  rcases hds : d.digits with _ | ⟨a, _ | ⟨b, rest⟩⟩
  · simp
  · rw [hds] at hdigits
    exact List.forall_mem_cons.mpr ⟨hdigits a List.mem_cons_self, hexponent⟩
  · rw [hds] at hdigits
    obtain ⟨ha, hrest⟩ := List.forall_mem_cons.mp hdigits
    refine List.forall_mem_cons.mpr ⟨ha, List.forall_mem_cons.mpr ⟨by decide, ?_⟩⟩
    exact List.forall_mem_append.mpr ⟨hrest, hexponent⟩

lemma isDigit_shortest (m : Nat) (e : Int) : ∀ c ∈ (shortest m e).digits, isDigit c = true := by
  intro c hc
  simp only [shortest, dropTrailingZeros, List.mem_reverse] at hc
  exact isDigit_of_mem_toDigits (List.mem_reverse.mp ((List.dropWhile_sublist _).mem hc))

/-- The text of a number is a line. -/
lemma isLine_text (x : Number) : IsLine x.text := by
  have hinfinity : IsLine plainStyle.infinity := .lit (by decide)
  cases x with
  | nan => exact .lit (by decide)
  | infinite negative =>
    rw [text]
    split
    · exact .append (.lit (by decide)) hinfinity
    · exact hinfinity
  | finite negative m e =>
    have hbody : IsLine (String.ofList ((shortest m e).layOut plainStyle)) :=
      isLine_of_forall isNumeralChar rfl (isNumeralChar_layOut (isDigit_shortest m e))
    rw [text]
    split
    · exact .lit (by decide)
    dsimp only
    split
    · exact .append (.lit (by decide)) hbody
    · exact hbody

end Number

/-! ### Types -/

namespace TypeDef

/-- All names in the type are lines. -/
inductive HasLines : TypeDef → Prop
  | intro {t : TypeDef} (name : IsLine t.name) (moduleAlias : ∀ a, t.moduleAlias = some a → IsLine a)
      (generics : ∀ g ∈ t.generics, HasLines g) : HasLines t

lemma HasLines.name {t : TypeDef} (h : t.HasLines) : IsLine t.name := by
  cases h with
  | intro name _ _ => exact name

lemma HasLines.moduleAlias {t : TypeDef} (h : t.HasLines) : ∀ a, t.moduleAlias = some a → IsLine a := by
  cases h with
  | intro _ moduleAlias _ => exact moduleAlias

lemma HasLines.generics {t : TypeDef} (h : t.HasLines) : ∀ g ∈ t.generics, g.HasLines := by
  cases h with
  | intro _ _ generics => exact generics

lemma HasLines.withNullable {t : TypeDef} (h : t.HasLines) (nullable : Bool) : (t.withNullable nullable).HasLines :=
  .intro h.name h.moduleAlias h.generics

lemma hasLines_scalar {name : String} (h : IsLine name) (nullable : Bool) : (scalar name nullable).HasLines :=
  .intro h (fun _ ha => nomatch ha) (fun _ hg => nomatch hg)

/-- The text of a type is a line. -/
lemma HasLines.describe {t : TypeDef} (h : t.HasLines) : IsLine t.describe := by
  induction h with
  | @intro t name _ _ ih =>
    have hdimension : IsLine (TypeExpr.dimensionText t.dimension) := by
      cases t.dimension with
      | none => exact .lit (by decide)
      | some d => exact (Number.isLine_text d).between (by decide) (by decide)
    have harguments : IsLine (TypeExpr.argumentsText t.generics) := by
      cases hgenerics : t.generics with
      | nil => exact .lit (by decide)
      | cons g gs =>
        refine (isLine_intercalate (.lit (by decide)) ?_).between (by decide) (by decide)
        intro s hs
        obtain ⟨g', hg', rfl⟩ := List.mem_map.mp hs
        exact ih g' (hgenerics ▸ hg')
    have hmark : IsLine (TypeExpr.markText t.nullable) := by
      rw [TypeExpr.markText]
      split <;> exact .lit (by decide)
    rw [TypeExpr.describe_eq]
    exact .append (.append (.append name hdimension) harguments) hmark

end TypeDef

/-! ### Issues -/

namespace Issue

/-- Issues whose messages are lines. -/
def AllLines (issues : List Issue) : Prop :=
  ∀ i ∈ issues, IsLine i.message

@[simp] lemma allLines_nil : AllLines [] := by
  simp [AllLines]

@[simp] lemma allLines_cons {i : Issue} {issues : List Issue} :
    AllLines (i :: issues) ↔ IsLine i.message ∧ AllLines issues := by
  simp [AllLines]

@[simp] lemma allLines_append {issues more : List Issue} :
    AllLines (issues ++ more) ↔ AllLines issues ∧ AllLines more :=
  List.forall_mem_append

/-- A single issue. -/
lemma allLines_singleton {i : Issue} (h : IsLine i.message) : AllLines [i] := by
  simpa using h

/-- Issues that are made in one way from some values. -/
lemma allLines_map {α : Type} {f : α → Issue} {l : List α} (h : ∀ a ∈ l, IsLine (f a).message) :
    AllLines (l.map f) := by
  intro i hi
  obtain ⟨a, ha, rfl⟩ := List.mem_map.mp hi
  exact h a ha

/-- The issues of values that have one. -/
lemma allLines_filterMap {α : Type} {f : α → Option Issue} {l : List α}
    (h : ∀ a ∈ l, ∀ i, f a = some i → IsLine i.message) : AllLines (l.filterMap f) := by
  intro i hi
  obtain ⟨a, ha, hi⟩ := List.mem_filterMap.mp hi
  exact h a ha i hi

end Issue

/-- Diagnostics whose messages are lines. -/
def Diagnostic.AllLines (ds : List Diagnostic) : Prop :=
  ∀ d ∈ ds, IsLine d.message

/-- The diagnostics of issues have their messages. -/
lemma Issue.AllLines.diagnostics {issues : List Issue} (h : AllLines issues) (source : String) :
    Diagnostic.AllLines (issues.map (toDiagnostic source)) := by
  intro d hd
  obtain ⟨i, hi, rfl⟩ := List.mem_map.mp hd
  exact h i hi

/-- A result with the property, and issues whose messages are lines. -/
def WithLines {α : Type} (P : α → Prop) (r : α × List Issue) : Prop :=
  P r.1 ∧ Issue.AllLines r.2

/-- What is made of one entry in front of what is made of the other ones. -/
lemma WithLines.cons {α : Type} {P : α → Prop} {first : Option α × List Issue} {rest : List α × List Issue}
    (hfirst : WithLines (Each P) first) (hrest : WithLines (fun l => ∀ a ∈ l, P a) rest) :
    WithLines (fun l => ∀ a ∈ l, P a) (first.1.toList ++ rest.1, first.2 ++ rest.2) :=
  ⟨List.forall_mem_append.mpr ⟨fun a ha => hfirst.1 a (Option.mem_toList.mp ha), hrest.1⟩,
    Issue.allLines_append.mpr ⟨hfirst.2, hrest.2⟩⟩

end EntitySchema
