import Mathlib.Data.List.Basic
import Mathlib.Tactic.Common
import EntitySchema.TypeExpr.Reader

/-!
# The grammar of type expressions

A text with the offset at which it stands derives an expression (`Derives`) if it consists of the module, the
name, the dimension, the arguments and the question mark of the expression, in this order; the dimension, the
arguments and the question mark may have white space in front of them, and every argument may have white space
around it.  The derivation fixes the offsets of all parts: an expression stands where its text does
(`Derives.start_eq`, `Derives.stop_eq`), every part of it is derived from a part of the text (`Derives.part`),
and the same text elsewhere derives the moved expression (`Derives.exists_shift`).
-/

namespace EntitySchema

/-- A text of white space. -/
def Text.IsBlanks (cs : List Char) : Prop :=
  ∀ c ∈ cs, isBlank c = true

lemma Text.isBlanks_nil : IsBlanks [] :=
  fun _ h => (List.not_mem_nil h).elim

open Text (units IsBlanks isBlanks_nil)

namespace TypeExpr

/-- What holds of an expression if it holds of its arguments, holds of every expression. -/
@[elab_as_elim, induction_eliminator]
theorem induction {P : TypeExpr → Prop}
    (mk : ∀ name moduleAlias nullable dimension generics start stop, (∀ g ∈ generics, P g) →
      P ⟨name, moduleAlias, nullable, dimension, generics, start, stop⟩)
    (e : TypeExpr) : P e :=
  @TypeExpr.rec P (fun es => ∀ g ∈ es, P g) mk (fun _ hg => (List.not_mem_nil hg).elim)
    (fun _ _ he hes => List.forall_mem_cons.mpr ⟨he, hes⟩) e

/-- An expression is part of itself and of every expression that has it inside of an argument. -/
inductive PartOf (n : TypeExpr) : TypeExpr → Prop
  | self : PartOf n n
  | argument {e g : TypeExpr} (hg : g ∈ e.generics) (h : PartOf n g) : PartOf n e

/-! ### Moving expressions -/

lemma shiftAll_eq (k : Nat) (es : List TypeExpr) : shiftAll k es = es.map (shift k) := by
  induction es with
  | nil => rw [shiftAll, List.map_nil]
  | cons e es ih => rw [shiftAll, ih, List.map_cons]

lemma shift_eq (k : Nat) (e : TypeExpr) :
    e.shift k = { e with generics := e.generics.map (shift k), start := e.start + k, stop := e.stop + k } := by
  obtain ⟨name, moduleAlias, nullable, dimension, generics, start, stop⟩ := e
  rw [shift, shiftAll_eq]

@[simp] lemma start_shift (k : Nat) (e : TypeExpr) : (e.shift k).start = e.start + k := by
  rw [shift_eq]

@[simp] lemma stop_shift (k : Nat) (e : TypeExpr) : (e.shift k).stop = e.stop + k := by
  rw [shift_eq]

@[simp] lemma generics_shift (k : Nat) (e : TypeExpr) : (e.shift k).generics = e.generics.map (shift k) := by
  rw [shift_eq]

/-- Moving twice is moving by the sum. -/
lemma shift_shift (j k : Nat) (e : TypeExpr) : (e.shift j).shift k = e.shift (j + k) := by
  induction e with
  | mk name moduleAlias nullable dimension generics start stop ih =>
    have hgenerics : (generics.map (shift j)).map (shift k) = generics.map (shift (j + k)) := by
      rw [List.map_map]
      exact List.map_congr_left ih
    rw [shift_eq j, shift_eq k, shift_eq (j + k)]
    simp only [hgenerics, Nat.add_assoc]

/-- The parts of a moved expression are the moved parts. -/
lemma PartOf.exists_of_shift {n e : TypeExpr} {k : Nat} (h : n.PartOf (e.shift k)) :
    ∃ m : TypeExpr, m.PartOf e ∧ m.shift k = n := by
  generalize hmoved : e.shift k = moved at h
  induction h generalizing e with
  | self => exact ⟨e, .self, hmoved⟩
  | argument hg _ ih =>
    rw [← hmoved, generics_shift] at hg
    obtain ⟨g', hmem, rfl⟩ := List.mem_map.mp hg
    obtain ⟨m, hm, hshift⟩ := ih rfl
    exact ⟨m, .argument hmem hm, hshift⟩

/-! ### The parts of a text -/

/-- A name: a letter or an underscore, and behind it letters, underscores and digits. -/
def IsName (cs : List Char) : Prop :=
  ∃ c rest, cs = c :: rest ∧ isNameStart c = true ∧ ∀ d ∈ rest, isNamePart d = true

/-- Digits, of which there is at least one. -/
def IsDigits (cs : List Char) : Prop :=
  cs ≠ [] ∧ ∀ c ∈ cs, Number.isDigit c = true

instance (cs : List Char) : Decidable (IsName cs) :=
  match cs with
  | [] => isFalse fun ⟨_, _, h, _⟩ => by cases h
  | c :: rest => decidable_of_iff (isNameStart c = true ∧ rest.all isNamePart = true) <| by
      simp [IsName]

instance (cs : List Char) : Decidable (IsDigits cs) :=
  decidable_of_iff (cs ≠ [] ∧ cs.all Number.isDigit = true) <| by
    simp [IsDigits]

/-- The module in front of a name: the word, a name and a colon, with no white space inside or behind. -/
inductive AliasPart : List Char → Option String → Prop
  | absent : AliasPart [] none
  | present {word : List Char} (hword : IsName word) :
      AliasPart (modulePrefixWord ++ word ++ [':']) (some (String.ofList word))

/-- The dimension behind its opening bracket. -/
inductive DimensionInside : List Char → Number → Prop
  | intro {before digits after : List Char} (hbefore : IsBlanks before) (hdigits : IsDigits digits)
      (hafter : IsBlanks after) :
      DimensionInside (before ++ digits ++ after ++ [')']) (Number.ofNat (Number.digitsValue 10 digits))

/-- The dimension behind a name. -/
inductive DimensionPart : List Char → Option Number → Prop
  | absent : DimensionPart [] none
  | present {before inside : List Char} {d : Number} (hbefore : IsBlanks before) (h : DimensionInside inside d) :
      DimensionPart (before ++ '(' :: inside) (some d)

/-- The question mark at the end. -/
inductive MarkPart : List Char → Bool → Prop
  | absent : MarkPart [] false
  | present {before : List Char} (hbefore : IsBlanks before) : MarkPart (before ++ ['?']) true

mutual

/-- The text at the offset is the expression. -/
inductive Derives : Nat → List Char → TypeExpr → Prop
  | intro {offset : Nat} {as name ds gs qs : List Char} {moduleAlias : Option String} {dimension : Option Number}
      {generics : List TypeExpr} {nullable : Bool} (halias : AliasPart as moduleAlias) (hname : IsName name)
      (hdimension : DimensionPart ds dimension)
      (hgenerics : DerivesArguments (offset + units (as ++ name ++ ds)) gs generics) (hmark : MarkPart qs nullable) :
      Derives offset (as ++ name ++ ds ++ gs ++ qs)
        ⟨String.ofList name, moduleAlias, nullable, dimension, generics, offset,
          offset + units (as ++ name ++ ds ++ gs ++ qs)⟩

/-- The text is the arguments behind a name. -/
inductive DerivesArguments : Nat → List Char → List TypeExpr → Prop
  | absent {offset : Nat} : DerivesArguments offset [] []
  | present {offset : Nat} {before inside : List Char} {es : List TypeExpr} (hbefore : IsBlanks before)
      (h : DerivesAll (offset + units before + 1) inside es) :
      DerivesArguments offset (before ++ '<' :: inside ++ ['>']) es

/-- The text is the expressions with commas between them. -/
inductive DerivesAll : Nat → List Char → List TypeExpr → Prop
  | one {offset : Nat} {cs : List Char} {e : TypeExpr} (h : DerivesSpaced offset cs e) : DerivesAll offset cs [e]
  | more {offset : Nat} {cs rest : List Char} {e : TypeExpr} {es : List TypeExpr} (h : DerivesSpaced offset cs e)
      (hrest : DerivesAll (offset + units cs + 1) rest es) :
      DerivesAll offset (cs ++ ',' :: rest) (e :: es)

/-- The text is the expression with white space around it. -/
inductive DerivesSpaced : Nat → List Char → TypeExpr → Prop
  | intro {offset : Nat} {before body after : List Char} {e : TypeExpr} (hbefore : IsBlanks before)
      (h : Derives (offset + units before) body e) (hafter : IsBlanks after) :
      DerivesSpaced offset (before ++ body ++ after) e

end

/-! ### Offsets of a derivation -/

lemma Derives.start_eq {offset : Nat} {cs : List Char} {e : TypeExpr} (h : Derives offset cs e) :
    e.start = offset := by
  cases h
  rfl

lemma Derives.stop_eq {offset : Nat} {cs : List Char} {e : TypeExpr} (h : Derives offset cs e) :
    e.stop = offset + units cs := by
  cases h
  rfl

/-- The expression is derived from a part of the text. -/
def Within (offset : Nat) (cs : List Char) (e : TypeExpr) : Prop :=
  ∃ before body after, cs = before ++ body ++ after ∧ Derives (offset + units before) body e

/-- What is within a part of a text is within the text. -/
lemma Within.extend {offset : Nat} {cs : List Char} {e : TypeExpr} {front : List Char}
    (h : Within (offset + units front) cs e) (back : List Char) : Within offset (front ++ cs ++ back) e := by
  obtain ⟨before, body, after, rfl, hbody⟩ := h
  refine ⟨front ++ before, body, after ++ back, by simp, ?_⟩
  rw [Text.units_append, ← Nat.add_assoc]
  exact hbody

lemma DerivesSpaced.within {offset : Nat} {cs : List Char} {e : TypeExpr} (h : DerivesSpaced offset cs e) :
    Within offset cs e := by
  cases h with
  | intro _ hbody _ => exact ⟨_, _, _, rfl, hbody⟩

/-- Each of several expressions is derived from a part of their text. -/
theorem DerivesAll.within {offset : Nat} {cs : List Char} {es : List TypeExpr} :
    DerivesAll offset cs es → ∀ e ∈ es, Within offset cs e
  | .one h => by
    intro e he
    rw [List.mem_singleton.mp he]
    exact h.within
  | @DerivesAll.more _ first rest _ _ h hrest => by
    intro e he
    rcases List.mem_cons.mp he with rfl | he
    · have hfirst : Within (offset + units []) first e := h.within
      exact hfirst.extend (',' :: rest)
    · have hlater : Within (offset + units (first ++ [','])) rest e := by
        rw [Text.units_append]
        exact hrest.within e he
      simpa using hlater.extend []
termination_by structural h => h

/-- The arguments of an expression are derived from parts of its text. -/
lemma Derives.argument {offset : Nat} {cs : List Char} {e g : TypeExpr} (h : Derives offset cs e)
    (hg : g ∈ e.generics) : Within offset cs g := by
  cases h with
  | @intro _ as name ds gs qs _ _ generics _ halias hname hdimension hgenerics hmark =>
    cases hgenerics with
    | absent => cases hg
    | @present _ before inside _ hbefore hinside =>
      have hwithin : Within (offset + units (as ++ name ++ ds ++ before ++ ['<'])) inside g := by
        rw [Text.units_append _ ['<'], Text.units_append _ before, ← Nat.add_assoc, ← Nat.add_assoc]
        exact hinside.within g hg
      simpa using hwithin.extend (['>'] ++ qs)

/-- Every part of an expression is derived from a part of its text. -/
theorem Derives.part {n e : TypeExpr} {offset : Nat} {cs : List Char} (h : Derives offset cs e)
    (hpart : n.PartOf e) : Within offset cs n := by
  induction hpart generalizing offset cs with
  | self => exact ⟨[], cs, [], by simp, h⟩
  | argument hg _ ih =>
    obtain ⟨before, body, after, rfl, hbody⟩ := h.argument hg
    exact (ih hbody).extend after

lemma DerivesSpaced.part {n e : TypeExpr} {offset : Nat} {cs : List Char} (h : DerivesSpaced offset cs e)
    (hpart : n.PartOf e) : Within offset cs n := by
  obtain ⟨before, body, after, rfl, hbody⟩ := h.within
  exact (hbody.part hpart).extend after

/-- The expression without white space around it. -/
lemma Derives.spaced {offset : Nat} {cs : List Char} {e : TypeExpr} (h : Derives offset cs e) :
    DerivesSpaced offset cs e := by
  have hspaced := @DerivesSpaced.intro offset [] cs [] e isBlanks_nil h isBlanks_nil
  rwa [List.append_nil] at hspaced

mutual

/-- A text that stands elsewhere derives the moved expression. -/
theorem Derives.exists_shift {k offset moved : Nat} (hmoved : moved = offset + k) {cs : List Char} {e : TypeExpr} :
    Derives moved cs e → ∃ e', Derives offset cs e' ∧ e'.shift k = e
  | @Derives.intro _ as name ds _ _ _ _ _ _ halias hname hdimension hgenerics hmark => by
    have hinside : moved + units (as ++ name ++ ds) = offset + units (as ++ name ++ ds) + k := by omega
    obtain ⟨generics', hgenerics', rfl⟩ := DerivesArguments.exists_shift hinside hgenerics
    refine ⟨_, .intro halias hname hdimension hgenerics' hmark, ?_⟩
    rw [shift_eq]
    simp only [TypeExpr.mk.injEq, true_and, hmoved]
    omega
termination_by structural h => h

theorem DerivesArguments.exists_shift {k offset moved : Nat} (hmoved : moved = offset + k) {cs : List Char}
    {es : List TypeExpr} :
    DerivesArguments moved cs es → ∃ es', DerivesArguments offset cs es' ∧ es'.map (shift k) = es
  | .absent => ⟨[], .absent, rfl⟩
  | @DerivesArguments.present _ before _ _ hbefore h => by
    have hinside : moved + units before + 1 = offset + units before + 1 + k := by omega
    obtain ⟨es', h', hshift⟩ := DerivesAll.exists_shift hinside h
    exact ⟨es', .present hbefore h', hshift⟩
termination_by structural h => h

theorem DerivesAll.exists_shift {k offset moved : Nat} (hmoved : moved = offset + k) {cs : List Char}
    {es : List TypeExpr} : DerivesAll moved cs es → ∃ es', DerivesAll offset cs es' ∧ es'.map (shift k) = es
  | .one h => by
    obtain ⟨e', h', rfl⟩ := DerivesSpaced.exists_shift hmoved h
    exact ⟨[e'], .one h', rfl⟩
  | @DerivesAll.more _ first _ _ _ h hrest => by
    have hbehind : moved + units first + 1 = offset + units first + 1 + k := by omega
    obtain ⟨e', h', rfl⟩ := DerivesSpaced.exists_shift hmoved h
    obtain ⟨es', hrest', rfl⟩ := DerivesAll.exists_shift hbehind hrest
    exact ⟨e' :: es', .more h' hrest', rfl⟩
termination_by structural h => h

theorem DerivesSpaced.exists_shift {k offset moved : Nat} (hmoved : moved = offset + k) {cs : List Char}
    {e : TypeExpr} : DerivesSpaced moved cs e → ∃ e', DerivesSpaced offset cs e' ∧ e'.shift k = e
  | @DerivesSpaced.intro _ before _ _ _ hbefore h hafter => by
    have hbody : moved + units before = offset + units before + k := by omega
    obtain ⟨e', h', rfl⟩ := Derives.exists_shift hbody h
    exact ⟨e', .intro hbefore h' hafter, rfl⟩
termination_by structural h => h

end

end TypeExpr

end EntitySchema
