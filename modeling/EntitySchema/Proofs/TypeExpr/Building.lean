import Mathlib.Data.List.Forall2
import Mathlib.Tactic.Common
import EntitySchema.Proofs.Types.Closed
import EntitySchema.Proofs.TypeExpr.Grammar

/-!
# Which expressions have a type

A node of an expression fits together if its name takes its module, its arguments and its dimension (`Fits`).
Building looks at every node, so it has no problem to report if and only if all parts fit (`problems_eq_nil_iff`), and
the same condition decides whether there is a type (`isSome_build_iff`): a part without a type never goes unreported.
The type has the shape of the expression (`HasShape`).
-/

namespace EntitySchema

/-! ### Names -/

/-- A name that is not built in. -/
def IsOpenName (name : String) : Prop :=
  name ∉ scalarTypeNames ∧ name ∉ vectorTypeNames ∧ name ≠ "List" ∧ name ≠ "Set" ∧ name ≠ "Map"

lemma builtin?_of_scalar : ∀ name ∈ scalarTypeNames, builtin? name = some .scalar := by
  decide

lemma builtin?_of_vector : ∀ name ∈ vectorTypeNames, builtin? name = some .vector := by
  decide

lemma builtin?_of_one {name : String} (h : name = "List" ∨ name = "Set") : builtin? name = some (.container 1) := by
  rcases h with rfl | rfl <;> rfl

lemma builtin?_of_two {name : String} (h : name = "Map") : builtin? name = some (.container 2) := by
  rw [h]
  rfl

lemma builtin?_of_open {name : String} (h : IsOpenName name) : builtin? name = none := by
  obtain ⟨hscalar, hvector, hlist, hset, hmap⟩ := h
  simp [builtin?, hscalar, hvector]

lemma mem_of_builtin?_scalar {name : String} (h : builtin? name = some .scalar) : name ∈ scalarTypeNames := by
  unfold builtin? at h
  split at h
  · rename_i hmem
    simpa using hmem
  split at h
  · cases h
  split at h <;> cases h

lemma mem_of_builtin?_vector {name : String} (h : builtin? name = some .vector) : name ∈ vectorTypeNames := by
  unfold builtin? at h
  split at h
  · cases h
  split at h
  · rename_i hmem
    simpa using hmem
  split at h <;> cases h

lemma isOpenName_of_builtin? {name : String} (h : builtin? name = none) : IsOpenName name := by
  obtain ⟨hlist, hset, hmap⟩ := TypeDef.ne_of_builtin? h (by simp)
  refine ⟨fun hmem => ?_, fun hmem => ?_, hlist, hset, hmap⟩
  · rw [builtin?_of_scalar name hmem] at h
    cases h
  · rw [builtin?_of_vector name hmem] at h
    cases h

namespace TypeExpr

/-! ### What fits together -/

/-- The name, the module, the arguments and the dimension of the outermost node fit together. -/
structure Fits (e : TypeExpr) : Prop where
  scalar : e.name ∈ scalarTypeNames → e.moduleAlias = none ∧ e.generics = [] ∧ e.dimension = none
  vector : e.name ∈ vectorTypeNames →
    e.moduleAlias = none ∧ e.generics = [] ∧ ∃ d, e.dimension = some d ∧ isPositive d = true
  one : e.name = "List" ∨ e.name = "Set" → e.moduleAlias = none ∧ e.dimension = none ∧ e.generics.length = 1
  two : e.name = "Map" → e.moduleAlias = none ∧ e.dimension = none ∧ e.generics.length = 2
  unresolved : IsOpenName e.name → e.generics = [] ∧ e.dimension = none

lemma fits_of_problem? {e : TypeExpr} (h : e.problem? = none) : e.Fits where
  scalar hname := problem?_of_scalar (builtin?_of_scalar _ hname) h
  vector hname := problem?_of_vector (builtin?_of_vector _ hname) h
  one hname := problem?_of_container (builtin?_of_one hname) h
  two hname := problem?_of_container (builtin?_of_two hname) h
  unresolved hname := problem?_of_name (builtin?_of_open hname) h

lemma Fits.problem?_eq_none {e : TypeExpr} (h : e.Fits) : e.problem? = none := by
  unfold problem?
  cases hb : builtin? e.name with
  | none =>
    obtain ⟨hgenerics, hdimension⟩ := h.unresolved (isOpenName_of_builtin? hb)
    simp [hgenerics, hdimension]
  | some builtin =>
    cases builtin with
    | scalar =>
      obtain ⟨halias, hgenerics, hdimension⟩ := h.scalar (mem_of_builtin?_scalar hb)
      simp [halias, hgenerics, hdimension]
    | vector =>
      obtain ⟨halias, hgenerics, d, hdimension, hpositive⟩ := h.vector (mem_of_builtin?_vector hb)
      simp [halias, hgenerics, hdimension, hpositive]
    | container arity =>
      rcases TypeDef.builtin?_eq_container hb with ⟨hname, rfl⟩ | ⟨hname, rfl⟩
      · obtain ⟨halias, hdimension, hlength⟩ := h.one hname
        simp [halias, hdimension, hlength]
      · obtain ⟨halias, hdimension, hlength⟩ := h.two hname
        simp [halias, hdimension, hlength]

lemma problem?_eq_none_iff (e : TypeExpr) : e.problem? = none ↔ e.Fits :=
  ⟨fits_of_problem?, Fits.problem?_eq_none⟩

/-! ### Building node by node -/

lemma buildAll_fst_eq_some_iff (es : List TypeExpr) (ts : List TypeDef) :
    (buildAll es).1 = some ts ↔ List.Forall₂ (fun e t => e.build.1 = some t) es ts := by
  induction es generalizing ts with
  | nil => simp [buildAll, eq_comm]
  | cons e es ih =>
    rw [buildAll, List.forall₂_cons_left_iff]
    simp only [Option.bind_eq_some_iff, Option.map_eq_some_iff, ih]
    constructor
    · rintro ⟨t, ht, ts, hts, rfl⟩
      exact ⟨t, ts, ht, hts, rfl⟩
    · rintro ⟨t, ts, ht, hts, rfl⟩
      exact ⟨t, ht, ts, hts, rfl⟩

lemma buildAll_snd_eq_nil_iff (es : List TypeExpr) : (buildAll es).2 = [] ↔ ∀ e ∈ es, e.build.2 = [] := by
  induction es with
  | nil => simp [buildAll]
  | cons e es ih => rw [buildAll, List.append_eq_nil_iff, ih, List.forall_mem_cons]

/-- An expression has a type if its outermost node fits and its arguments have types. -/
lemma build_fst_eq_some_iff (e : TypeExpr) (t : TypeDef) :
    e.build.1 = some t ↔
      e.problem? = none ∧ ∃ ts, List.Forall₂ (fun e t => e.build.1 = some t) e.generics ts ∧ t = e.assemble ts := by
  simp only [← buildAll_fst_eq_some_iff]
  rw [build_eq]
  cases hproblem : e.problem? with
  | some kind => simp
  | none =>
    cases hgenerics : (buildAll e.generics).1 with
    | none => simp
    | some ts => simp [eq_comm]

/-- Building has no problem if the outermost node fits and the arguments have none. -/
lemma build_snd_eq_nil_iff (e : TypeExpr) :
    e.build.2 = [] ↔ e.problem? = none ∧ ∀ g ∈ e.generics, g.build.2 = [] := by
  rw [← buildAll_snd_eq_nil_iff, build_eq]
  cases hproblem : e.problem? with
  | some kind => simp
  | none => cases hgenerics : (buildAll e.generics).1 <;> simp

lemma isSome_buildAll_iff (es : List TypeExpr) : (∃ ts, List.Forall₂ (fun e t => e.build.1 = some t) es ts) ↔
    ∀ e ∈ es, e.build.1.isSome = true := by
  induction es with
  | nil => simp
  | cons e es ih =>
    rw [List.forall_mem_cons, ← ih, Option.isSome_iff_exists]
    constructor
    · rintro ⟨_, hts⟩
      obtain ⟨t, ts, ht, hrest, rfl⟩ := List.forall₂_cons_left_iff.mp hts
      exact ⟨⟨t, ht⟩, ts, hrest⟩
    · rintro ⟨⟨t, ht⟩, ts, hts⟩
      exact ⟨t :: ts, .cons ht hts⟩

lemma isSome_build_iff_generics (e : TypeExpr) :
    e.build.1.isSome = true ↔ e.problem? = none ∧ ∀ g ∈ e.generics, g.build.1.isSome = true := by
  rw [← isSome_buildAll_iff, Option.isSome_iff_exists]
  constructor
  · rintro ⟨t, ht⟩
    obtain ⟨hproblem, ts, hts, -⟩ := (build_fst_eq_some_iff e t).mp ht
    exact ⟨hproblem, ts, hts⟩
  · rintro ⟨hproblem, ts, hts⟩
    exact ⟨_, (build_fst_eq_some_iff e _).mpr ⟨hproblem, ts, hts, rfl⟩⟩

/-! ### All nodes -/

/-- What holds of every part holds of the expression and of every part of its arguments. -/
lemma forall_partOf_iff {P : TypeExpr → Prop} (e : TypeExpr) :
    (∀ n : TypeExpr, n.PartOf e → P n) ↔ P e ∧ ∀ g ∈ e.generics, ∀ n : TypeExpr, n.PartOf g → P n := by
  constructor
  · exact fun h => ⟨h e .self, fun g hg n hn => h n (.argument hg hn)⟩
  · rintro ⟨he, hgenerics⟩ n hn
    cases hn with
    | self => exact he
    | argument hg hn => exact hgenerics _ hg n hn

/-- A condition of expressions that asks the outermost node to fit, and itself of the arguments, asks all parts to
fit. -/
lemma iff_forall_fits {C : TypeExpr → Prop} (hC : ∀ e, C e ↔ e.problem? = none ∧ ∀ g ∈ e.generics, C g) (e : TypeExpr) :
    C e ↔ ∀ n : TypeExpr, n.PartOf e → n.Fits := by
  induction e with
  | mk name moduleAlias nullable dimension generics start stop ih =>
    rw [hC, forall_partOf_iff, problem?_eq_none_iff]
    exact and_congr_right fun _ => forall₂_congr ih

theorem isSome_build_iff (e : TypeExpr) : e.build.1.isSome = true ↔ ∀ n : TypeExpr, n.PartOf e → n.Fits :=
  iff_forall_fits isSome_build_iff_generics e

theorem problems_eq_nil_iff (e : TypeExpr) : e.build.2 = [] ↔ ∀ n : TypeExpr, n.PartOf e → n.Fits :=
  iff_forall_fits build_snd_eq_nil_iff e

/-! ### The shape of a type -/

/-- The category that the types of a name have. -/
structure IsCategoryOf (category : TypeCategory) (name : String) : Prop where
  scalar : name ∈ scalarTypeNames → category = .scalar
  vector : name ∈ vectorTypeNames → category = .vector
  container : name = "List" ∨ name = "Set" ∨ name = "Map" → category = .container
  unresolved : IsOpenName name → category = .unresolved

/-- The type has the name, the module, the nullability and the dimension of the expression and arguments of the same
shape; nothing is known yet of what its name stands for. -/
inductive HasShape : TypeExpr → TypeDef → Prop
  | intro {e : TypeExpr} {t : TypeDef} (hname : t.name = e.name) (hnullable : t.nullable = e.nullable)
      (hdimension : t.dimension = e.dimension) (halias : t.moduleAlias = e.moduleAlias)
      (hcategory : IsCategoryOf t.category e.name) (hkind : t.entityKind = none)
      (hserialization : t.enumSerialization = none) (hgenerics : List.Forall₂ HasShape e.generics t.generics) :
      HasShape e t

lemma isCategoryOf_category (e : TypeExpr) : IsCategoryOf e.category e.name where
  scalar hname := by rw [category, builtin?_of_scalar _ hname]; rfl
  vector hname := by rw [category, builtin?_of_vector _ hname]; rfl
  container hname := by rw [category]; rcases hname with h | h | h <;> rw [h] <;> rfl
  unresolved hname := by rw [category, builtin?_of_open hname]; rfl

/-- The type of an expression has its shape. -/
lemma hasShape_of_build {e : TypeExpr} {t : TypeDef} (h : e.build.1 = some t) : e.HasShape t := by
  induction e generalizing t with
  | mk name moduleAlias nullable dimension generics start stop ih =>
    obtain ⟨-, ts, hts, rfl⟩ := (build_fst_eq_some_iff _ _).mp h
    refine .intro rfl rfl rfl rfl (isCategoryOf_category _) rfl rfl ?_
    have hgenerics := (List.forall₂_and_left generics ts).mpr ⟨ih, hts⟩
    exact hgenerics.imp fun g u hg => hg.1 hg.2

/-- An expression has a type if and only if it has no problem, and this is so if and only if all of its parts fit;
the type has the shape of the expression. -/
theorem build_iff_fits (e : TypeExpr) :
    (e.build.1.isSome = true ↔ e.build.2 = []) ∧ (e.build.2 = [] ↔ ∀ n : TypeExpr, n.PartOf e → n.Fits) ∧
      ∀ t, e.build.1 = some t → e.HasShape t :=
  ⟨(isSome_build_iff e).trans (problems_eq_nil_iff e).symm, problems_eq_nil_iff e, fun _ => hasShape_of_build⟩

end TypeExpr

end EntitySchema
