import Mathlib.Data.List.Forall2
import Mathlib.Tactic.Common
import EntitySchema.Proofs.TypeExpr.Building
import EntitySchema.Proofs.TypeExpr.Reading
import EntitySchema.Proofs.WholeNumbers

/-!
# Texts of types

The text of a type that is built from an expression without modules derives an expression with the same type
(`renders_describe`): names are kept, a comma and a blank stand between arguments, and a dimension below
`2 ^ 53` is written with its decimal digits (`Number.text_ofNat`).  So such a type is read back from its text, and two
of them with the same text are equal (`describe_faithful`).
-/

namespace EntitySchema

open Text (units IsBlanks isBlanks_nil)

namespace TypeExpr

/-- The node has no module, a name and, if any, a whole dimension that is not rounded. -/
structure Plain (n : TypeExpr) : Prop where
  moduleAlias : n.moduleAlias = none
  name : ∃ name, IsName name ∧ n.name = String.ofList name
  dimension : ∀ d, n.dimension = some d → ∃ k, k < 2 ^ 53 ∧ d = Number.ofNat k

/-- What is derived is plain if it has no module and a dimension below `2 ^ 53`. -/
lemma Derives.plain {offset : Nat} {cs : List Char} {n : TypeExpr} (h : Derives offset cs n)
    (halias : n.moduleAlias = none) (hdimension : ∀ d, n.dimension = some d → d.IsBelow (2 ^ 53)) : n.Plain := by
  cases h with
  | intro _ hname hpart _ _ =>
    refine ⟨halias, ⟨_, hname, rfl⟩, fun d hd => ?_⟩
    obtain rfl : _ = some d := hd
    have hbelow := hdimension d rfl
    cases hpart with
    | present _ hinside =>
      cases hinside with
      | intro _ _ _ => exact ⟨_, (Number.isBelow_ofNat_iff _).mp hbelow, rfl⟩

lemma Plain.shift {n : TypeExpr} (h : n.Plain) (k : Nat) : (n.shift k).Plain := by
  rw [shift_eq]
  exact ⟨h.moduleAlias, h.name, h.dimension⟩

/-! ### The parts of the text -/

/-- The text of a dimension. -/
def dimensionText : Option Number → String
  | none => ""
  | some d => "(" ++ d.text ++ ")"

/-- The text of arguments. -/
def argumentsText : List TypeDef → String
  | [] => ""
  | t :: ts => "<" ++ String.intercalate ", " ((t :: ts).map TypeDef.describe) ++ ">"

/-- The text of the question mark. -/
def markText (nullable : Bool) : String :=
  if nullable then "?" else ""

lemma describe_eq (t : TypeDef) :
    t.describe = t.name ++ dimensionText t.dimension ++ argumentsText t.generics ++ markText t.nullable := by
  obtain ⟨name, nullable, generics, category, moduleAlias, entityKind, dimension, enumSerialization⟩ := t
  unfold TypeDef.describe
  cases dimension <;> cases generics <;> simp only [TypeDef.describeAll_eq] <;> rfl

lemma dimensionPart_text {dimension : Option Number}
    (h : ∀ d, dimension = some d → ∃ k, k < 2 ^ 53 ∧ d = Number.ofNat k) :
    DimensionPart (dimensionText dimension).toList dimension := by
  cases dimension with
  | none => exact .absent
  | some d =>
    obtain ⟨k, hk, rfl⟩ := h d rfl
    have hdigits : IsDigits (Nat.toDigits 10 k) :=
      ⟨List.ne_nil_of_length_pos Nat.length_toDigits_pos, fun c hc => Number.isDigit_of_mem_toDigits hc⟩
    have hinside := DimensionInside.intro isBlanks_nil hdigits isBlanks_nil
    rw [Number.digitsValue_toDigits] at hinside
    have hpart := DimensionPart.present isBlanks_nil hinside
    simpa [dimensionText, Number.text_ofNat hk] using hpart

lemma markPart_text (nullable : Bool) : MarkPart (markText nullable).toList nullable := by
  cases nullable with
  | false => exact .absent
  | true => exact .present isBlanks_nil

/-- The text derives an expression of the type wherever it stands. -/
def Renders (cs : List Char) (t : TypeDef) : Prop :=
  ∀ offset, ∃ e, Derives offset cs e ∧ e.build.1 = some t

/-- Texts with a comma and a blank between them derive expressions of their types. -/
lemma exists_derivesAll {t : TypeDef} {ts : List TypeDef} (h : ∀ t' ∈ t :: ts, Renders t'.describe.toList t')
    (offset : Nat) {blanks : List Char} (hblanks : IsBlanks blanks) :
    ∃ es, DerivesAll offset (blanks ++ (String.intercalate ", " ((t :: ts).map TypeDef.describe)).toList) es ∧
      List.Forall₂ (fun e t => e.build.1 = some t) es (t :: ts) := by
  induction ts generalizing t offset blanks with
  | nil =>
    obtain ⟨e, he, hbuild⟩ := h t List.mem_cons_self (offset + units blanks)
    refine ⟨[e], .one ?_, .cons hbuild .nil⟩
    simpa using DerivesSpaced.intro hblanks he isBlanks_nil
  | cons t' ts ih =>
    obtain ⟨e, he, hbuild⟩ := h t List.mem_cons_self (offset + units blanks)
    have hfirst := DerivesSpaced.intro hblanks he isBlanks_nil
    have hblank : IsBlanks [' '] := fun c hc => by rw [List.mem_singleton.mp hc]; decide
    obtain ⟨es, hes, hall⟩ := ih (fun u hu => h u (List.mem_cons_of_mem t hu))
      (offset + units (blanks ++ t.describe.toList ++ []) + 1) hblank
    refine ⟨e :: es, ?_, .cons hbuild hall⟩
    simpa [String.toList_intercalate, List.intercalate_cons_cons] using DerivesAll.more hfirst hes

lemma exists_derivesArguments {ts : List TypeDef} (h : ∀ t ∈ ts, Renders t.describe.toList t) (offset : Nat) :
    ∃ es, DerivesArguments offset (argumentsText ts).toList es ∧
      List.Forall₂ (fun e t => e.build.1 = some t) es ts := by
  cases ts with
  | nil => exact ⟨[], .absent, .nil⟩
  | cons t ts =>
    obtain ⟨es, hes, hall⟩ := exists_derivesAll h (offset + units [] + 1) isBlanks_nil
    refine ⟨es, ?_, hall⟩
    simpa [argumentsText] using DerivesArguments.present isBlanks_nil hes

/-! ### The text of a type -/

/-- What fits together depends on how many arguments there are and not on where they stand. -/
lemma problem?_congr {e e' : TypeExpr} (h : e.problem? = none) (hname : e'.name = e.name)
    (halias : e'.moduleAlias = e.moduleAlias) (hdimension : e'.dimension = e.dimension)
    (hlength : e'.generics.length = e.generics.length) : e'.problem? = none := by
  have hempty : e'.generics.isEmpty = e.generics.isEmpty := by
    rw [Bool.eq_iff_iff, List.isEmpty_iff_length_eq_zero, List.isEmpty_iff_length_eq_zero, hlength]
  unfold problem? at h ⊢
  rwa [hname, halias, hdimension, hlength, hempty]

/-- What follows for every type of the arguments. -/
lemma forall_of_forall₂ {es : List TypeExpr} {ts : List TypeDef} {P : TypeDef → Prop}
    (h : List.Forall₂ (fun e t => e.build.1 = some t) es ts) (hP : ∀ e ∈ es, ∀ t, e.build.1 = some t → P t) :
    ∀ t ∈ ts, P t := by
  induction h with
  | nil => exact fun t ht => (List.not_mem_nil ht).elim
  | cons hbuild _ ih =>
    refine List.forall_mem_cons.mpr ⟨hP _ List.mem_cons_self _ hbuild, ih fun e he => ?_⟩
    exact hP e (List.mem_cons_of_mem _ he)

/-- The text of a type that is built from plain nodes derives an expression of this type. -/
theorem renders_describe {e : TypeExpr} (hplain : ∀ n : TypeExpr, n.PartOf e → n.Plain) {t : TypeDef}
    (h : e.build.1 = some t) : Renders t.describe.toList t := by
  induction e generalizing t with
  | mk name moduleAlias nullable dimension generics start stop ih =>
    obtain ⟨hself, harguments⟩ := (forall_partOf_iff _).mp hplain
    obtain ⟨hproblem, ts, hts, rfl⟩ := (build_fst_eq_some_iff _ _).mp h
    have hrenders : ∀ u ∈ ts, Renders u.describe.toList u :=
      forall_of_forall₂ hts fun g hg u hu => ih g hg (harguments g hg) hu
    obtain rfl : moduleAlias = none := hself.moduleAlias
    obtain ⟨word, hword, hname⟩ := hself.name
    obtain rfl : name = String.ofList word := hname
    intro offset
    obtain ⟨es, hes, hall⟩ := exists_derivesArguments hrenders
      (offset + units ([] ++ word ++ (dimensionText dimension).toList))
    have hlength : es.length = generics.length := by rw [hall.length_eq, hts.length_eq]
    have htext : (assemble ⟨String.ofList word, none, nullable, dimension, generics, start, stop⟩ ts).describe.toList =
        [] ++ word ++ (dimensionText dimension).toList ++ (argumentsText ts).toList ++ (markText nullable).toList := by
      rw [describe_eq]
      simp [assemble]
    rw [htext]
    refine ⟨_, .intro .absent hword (dimensionPart_text hself.dimension) hes (markPart_text nullable), ?_⟩
    exact (build_fst_eq_some_iff _ _).mpr ⟨problem?_congr hproblem rfl rfl rfl hlength, ts, hall, rfl⟩

/-- The nullability of the type is that of the expression and nothing else depends on it. -/
lemma build_withNullable {e : TypeExpr} {t : TypeDef} (h : e.build.1 = some t) (nullable : Bool) :
    ({ e with nullable } : TypeExpr).build.1 = some (t.withNullable nullable) := by
  obtain ⟨hproblem, ts, hts, rfl⟩ := (build_fst_eq_some_iff e t).mp h
  exact (build_fst_eq_some_iff _ _).mpr ⟨problem?_congr hproblem rfl rfl rfl rfl, ts, hts, rfl⟩

/-- A text that derives expressions of types is read, and it is the text of one type only. -/
lemma Renders.exists_read {text : String} {t : TypeDef} (h : Renders text.toList t) :
    ∃ e, read text = .ok e ∧ e.build = (some t, []) := by
  obtain ⟨e, he, hbuild⟩ := h 0
  have hsome : e.build.1.isSome = true := by rw [hbuild]; rfl
  have hproblems : e.build.2 = [] := (problems_eq_nil_iff e).mpr ((isSome_build_iff e).mp hsome)
  exact ⟨e, read_of_derives he.spaced, Prod.ext hbuild hproblems⟩

lemma Renders.unique {text : String} {s t : TypeDef} (hs : Renders text.toList s) (ht : Renders text.toList t) :
    s = t := by
  obtain ⟨e, hread, hbuild⟩ := hs.exists_read
  obtain ⟨e', hread', hbuild'⟩ := ht.exists_read
  rw [hread] at hread'
  cases hread'
  rw [hbuild] at hbuild'
  cases hbuild'
  rfl

end TypeExpr

/-! ### Written types -/

namespace TypeDef

/-- The type is built from an expression that is read from a text, wherever the text stands, without modules and with
dimensions below `2 ^ 53`. -/
def IsWritten (t : TypeDef) : Prop :=
  ∃ text e offset, TypeExpr.read text = .ok e ∧ (e.shift offset).build.1 = some t ∧
    ∀ n : TypeExpr, n.PartOf e → n.moduleAlias = none ∧ ∀ d, n.dimension = some d → d.IsBelow (2 ^ 53)

/-- A written type can be written with any nullability. -/
lemma IsWritten.renders {t : TypeDef} (h : t.IsWritten) :
    TypeExpr.Renders t.describe.toList t ∧
      ∀ nullable, TypeExpr.Renders (t.withNullable nullable).describe.toList (t.withNullable nullable) := by
  obtain ⟨text, e, offset, hread, hbuild, hparts⟩ := h
  have hplain : ∀ n : TypeExpr, n.PartOf (e.shift offset) → n.Plain := by
    intro n hn
    obtain ⟨m, hm, rfl⟩ := hn.exists_of_shift
    obtain ⟨before, body, after, -, hbody⟩ := (TypeExpr.derives_of_read hread).part hm
    exact (hbody.plain (hparts m hm).1 (hparts m hm).2).shift offset
  refine ⟨TypeExpr.renders_describe hplain hbuild, fun nullable => ?_⟩
  refine TypeExpr.renders_describe ?_ (TypeExpr.build_withNullable hbuild nullable)
  obtain ⟨hself, harguments⟩ := (TypeExpr.forall_partOf_iff _).mp hplain
  exact (TypeExpr.forall_partOf_iff _).mpr ⟨⟨hself.moduleAlias, hself.name, hself.dimension⟩, harguments⟩

/-- A written type is read back from its text without a problem, and two written types have the same text apart from
their own nullability if and only if they are equal apart from it. -/
theorem describe_faithful {s t : TypeDef} (hs : s.IsWritten) (ht : t.IsWritten) :
    (∃ e, TypeExpr.read s.describe = .ok e ∧ e.build = (some s, [])) ∧
      (s.sameBase t = true ↔ s.withNullable false = t.withNullable false) := by
  refine ⟨hs.renders.1.exists_read, ?_⟩
  rw [sameBase, beq_iff_eq]
  constructor
  · intro htext
    have hrenders := ht.renders.2 false
    rw [← htext] at hrenders
    exact (hs.renders.2 false).unique hrenders
  · exact fun h => congrArg describe h

/-- Lists of vectors with 512 dimensions. -/
def vectors (nullable : Bool) : TypeDef :=
  { name := "List", nullable, category := .container
    generics := [{ name := "Vector", nullable := true, generics := [], category := .vector
                   dimension := some (Number.ofNat 512) }] }

lemma isWritten_vectors (nullable : Bool) : (vectors nullable).IsWritten := by
  have hvector : TypeExpr.IsName "Vector".toList := by decide
  have hlist : TypeExpr.IsName "List".toList := by decide
  have hdigits : TypeExpr.IsDigits "512".toList := by decide
  have hargument : TypeExpr.Derives 5 _ _ :=
    .intro .absent hvector (.present isBlanks_nil (.intro isBlanks_nil hdigits isBlanks_nil)) .absent
      (.present isBlanks_nil)
  have hread : TypeExpr.Derives 0 _ _ :=
    .intro .absent hlist .absent (.present isBlanks_nil (.one hargument.spaced)) (TypeExpr.markPart_text nullable)
  refine ⟨_, _, 0, TypeExpr.read_ofList hread.spaced, ?_, ?_⟩
  · rfl
  · refine (TypeExpr.forall_partOf_iff _).mpr ⟨⟨rfl, fun d hd => by cases hd⟩, fun g hg => ?_⟩
    obtain rfl := List.mem_singleton.mp hg
    refine (TypeExpr.forall_partOf_iff _).mpr ⟨⟨rfl, fun d hd => ?_⟩, fun g hg => (List.not_mem_nil hg).elim⟩
    obtain rfl := Option.some.inj hd
    exact (Number.isBelow_ofNat_iff _).mpr (by decide)

/-- Two lists of vectors, one of which may be null, are read back from their texts and are equal apart from that. -/
theorem describe_faithful_vectors :
    (vectors true).IsWritten ∧ (vectors false).IsWritten ∧ (vectors true).describe = "List<Vector(512)?>?" ∧
      (∃ e, TypeExpr.read (vectors true).describe = .ok e ∧ e.build = (some (vectors true), [])) ∧
      (vectors true).sameBase (vectors false) = true := by
  have hfaithful := describe_faithful (isWritten_vectors true) (isWritten_vectors false)
  exact ⟨isWritten_vectors true, isWritten_vectors false, by decide +kernel, hfaithful.1, hfaithful.2.mpr rfl⟩

end TypeDef

end EntitySchema
