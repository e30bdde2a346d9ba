import Mathlib.Data.List.Basic
import Mathlib.Tactic.Common
import EntitySchema.Entity.Field
import EntitySchema.Proofs.Diagnostics
import EntitySchema.Proofs.Lookup
import EntitySchema.Proofs.Types.Names
import EntitySchema.Resolution.Relations
import EntitySchema.Resolution.Types

/-!
# Well formed types

A type is well formed down to the names that are not built in.  Reading and building an expression gives a
well formed type over names that have not been looked up (`wellFormed_build`); resolving it without an
issue gives one over references to entities (`wellFormed_resolve`).  Such a type that has the text of the
type of a primary key is that type (`eq_of_sameBase`).
-/

namespace EntitySchema

namespace TypeDef

/-- A type that is well formed down to what `leaf` describes. -/
inductive WellFormed (leaf : TypeDef → Prop) : TypeDef → Prop where
  | scalar {name : String} {nullable : Bool} (h : builtin? name = some .scalar) :
      WellFormed leaf (TypeDef.scalar name nullable)
  | vector {name : String} {nullable : Bool} {d : Number} (h : builtin? name = some .vector)
      (hpositive : isPositive d = true) :
      WellFormed leaf { name, nullable, generics := [], category := .vector, dimension := some d }
  | container {name : String} {nullable : Bool} {generics : List TypeDef} {arity : Nat}
      (h : builtin? name = some (.container arity)) (hlength : generics.length = arity)
      (hgenerics : ∀ t ∈ generics, WellFormed leaf t) :
      WellFormed leaf { name, nullable, generics, category := .container }
  | leaf {t : TypeDef} (h : leaf t) : WellFormed leaf t

/-- A name that has not been looked up. -/
def IsName (t : TypeDef) : Prop :=
  ∃ name nullable moduleAlias, builtin? name = none ∧ HasNoColon name ∧
    t = { name, nullable, generics := [], category := .unresolved, moduleAlias }

/-- A type that stands for one of the entities. -/
def IsReference (es : List Entity) (t : TypeDef) : Prop :=
  ∃ e ∈ es, ∃ nullable, builtin? e.className = none ∧ t = TypeResolution.referenceTo e nullable

end TypeDef

/-- Leaves may be described in another way. -/
lemma TypeDef.WellFormed.mono {p q : TypeDef → Prop} (hpq : ∀ t, p t → q t) {t : TypeDef}
    (h : t.WellFormed p) : t.WellFormed q := by
  induction h with
  | scalar h => exact .scalar h
  | vector h hpositive => exact .vector h hpositive
  | container h hlength hgenerics ih => exact .container h hlength ih
  | leaf h => exact .leaf (hpq _ h)

/-! ### Building types -/

namespace TypeExpr

/-! What fits together, for every kind of name. -/

lemma problem?_of_name {e : TypeExpr} (h : builtin? e.name = none) (hp : e.problem? = none) :
    e.generics = [] ∧ e.dimension = none := by
  rw [problem?, h] at hp
  cases hg : e.generics <;> cases hd : e.dimension <;> simp [hg, hd] at hp ⊢

lemma problem?_of_scalar {e : TypeExpr} (h : builtin? e.name = some .scalar) (hp : e.problem? = none) :
    e.moduleAlias = none ∧ e.generics = [] ∧ e.dimension = none := by
  rw [problem?, h] at hp
  cases ha : e.moduleAlias <;> cases hg : e.generics <;> cases hd : e.dimension <;>
    simp [ha, hg, hd] at hp ⊢

lemma problem?_of_vector {e : TypeExpr} (h : builtin? e.name = some .vector) (hp : e.problem? = none) :
    e.moduleAlias = none ∧ e.generics = [] ∧ ∃ d, e.dimension = some d ∧ isPositive d = true := by
  rw [problem?, h] at hp
  cases ha : e.moduleAlias <;> cases hg : e.generics <;> cases hd : e.dimension <;>
    simp [ha, hg, hd] at hp ⊢
  exact hp

lemma problem?_of_container {e : TypeExpr} {arity : Nat} (h : builtin? e.name = some (.container arity))
    (hp : e.problem? = none) :
    e.moduleAlias = none ∧ e.dimension = none ∧ e.generics.length = arity := by
  rw [problem?, h] at hp
  cases ha : e.moduleAlias <;> cases hd : e.dimension <;> simp [ha, hd] at hp ⊢
  exact hp

/-- The type of an expression that fits together is well formed if its arguments are. -/
lemma wellFormed_assemble {e : TypeExpr} {generics : List TypeDef} (hp : e.problem? = none)
    (hname : HasNoColon e.name) (hlength : generics.length = e.generics.length)
    (hgenerics : ∀ t ∈ generics, t.WellFormed TypeDef.IsName) :
    (e.assemble generics).WellFormed TypeDef.IsName := by
  unfold assemble TypeExpr.category
  cases hb : builtin? e.name with
  | none =>
    obtain ⟨hg, hd⟩ := problem?_of_name hb hp
    rw [hg, List.length_nil, List.length_eq_zero_iff] at hlength
    rw [hd, hlength]
    exact TypeDef.WellFormed.leaf ⟨e.name, e.nullable, e.moduleAlias, hb, hname, rfl⟩
  | some builtin =>
    cases builtin with
    | scalar =>
      obtain ⟨ha, hg, hd⟩ := problem?_of_scalar hb hp
      rw [hg, List.length_nil, List.length_eq_zero_iff] at hlength
      rw [ha, hd, hlength]
      exact TypeDef.WellFormed.scalar hb
    | vector =>
      obtain ⟨ha, hg, d, hd, hpositive⟩ := problem?_of_vector hb hp
      rw [hg, List.length_nil, List.length_eq_zero_iff] at hlength
      rw [ha, hd, hlength]
      exact TypeDef.WellFormed.vector hb hpositive
    | container arity =>
      obtain ⟨ha, hd, hg⟩ := problem?_of_container hb hp
      rw [ha, hd]
      exact TypeDef.WellFormed.container hb (hlength.trans hg) hgenerics

lemma build_eq (e : TypeExpr) :
    e.build =
      match e.problem?, (buildAll e.generics).1 with
      | some kind, _ => (none, (buildAll e.generics).2 ++ [⟨kind, e.name, e.start, e.stop⟩])
      | none, some generics => (some (e.assemble generics), (buildAll e.generics).2)
      | none, none => (none, (buildAll e.generics).2) := by
  obtain ⟨name, moduleAlias, nullable, dimension, arguments, start, stop⟩ := e
  unfold build
  rfl

mutual

/-- An expression without colons in its names has a well formed type, if it has one. -/
theorem wellFormed_build (e : TypeExpr) (hclean : Clean e) {t : TypeDef} (h : e.build.1 = some t) :
    t.WellFormed TypeDef.IsName := by
  obtain ⟨name, moduleAlias, nullable, dimension, arguments, start, stop⟩ := e
  obtain ⟨hname, hclean⟩ := hclean
  rw [build_eq] at h
  split at h
  · cases h
  · rename_i generics hp hg
    cases h
    obtain ⟨hlength, hgenerics⟩ := wellFormed_buildAll arguments hclean hg
    exact wellFormed_assemble hp hname hlength hgenerics
  · cases h

lemma wellFormed_buildAll (es : List TypeExpr) (hclean : ∀ e ∈ es, Clean e) {ts : List TypeDef}
    (h : (buildAll es).1 = some ts) :
    ts.length = es.length ∧ ∀ t ∈ ts, t.WellFormed TypeDef.IsName := by
  cases es with
  | nil =>
    cases h
    simp
  | cons e es =>
    rw [buildAll, Option.bind_eq_some_iff] at h
    obtain ⟨t, ht, h⟩ := h
    obtain ⟨ts, hts, rfl⟩ := Option.map_eq_some_iff.mp h
    have hhead := wellFormed_build e (hclean e List.mem_cons_self) ht
    have htail := wellFormed_buildAll es (fun d hd => hclean d (List.mem_cons_of_mem e hd)) hts
    refine ⟨by simp [htail.1], fun t' ht' => ?_⟩
    rcases List.mem_cons.mp ht' with rfl | ht'
    · exact hhead
    · exact htail.2 t' ht'

end

mutual

/-- An expression without a type has a problem. -/
theorem problems_ne_nil_of_build (e : TypeExpr) (h : e.build.1 = none) : e.build.2 ≠ [] := by
  obtain ⟨name, moduleAlias, nullable, dimension, arguments, start, stop⟩ := e
  rw [build_eq] at h ⊢
  split at h
  · simp
  · cases h
  · rename_i hp hg
    exact problems_ne_nil_of_buildAll arguments hg

lemma problems_ne_nil_of_buildAll (es : List TypeExpr) (h : (buildAll es).1 = none) :
    (buildAll es).2 ≠ [] := by
  cases es with
  | nil => cases h
  | cons e es =>
    rw [buildAll] at h ⊢
    cases ht : e.build.1 with
    | none => simp [problems_ne_nil_of_build e ht]
    | some t =>
      cases hts : (buildAll es).1 with
      | none => simp [problems_ne_nil_of_buildAll es hts]
      | some ts => simp [ht, hts] at h

end

end TypeExpr

/-! ### Resolving types -/

namespace TypeResolution

/-- What a name stands for is an entity whose key ends in the name. -/
lemma lookup_eq_ok {s : Site} {moduleAlias : Option String} {name : String} {e : Entity}
    (h : s.lookup moduleAlias name = .ok e) :
    e ∈ s.index.entities ∧ ∃ a, e.key = entityKey a name := by
  have hfound : ∀ a l, s.index.find? a name = some l →
      l.entity ∈ s.index.entities ∧ ∃ a, l.entity.key = entityKey a name := by
    intro a l hl
    obtain ⟨hget, hkey⟩ := EntityIndex.find?_eq_some hl
    exact ⟨List.mem_of_getElem? hget, a, hkey⟩
  unfold Site.lookup at h
  split at h
  · split at h
    · cases h
    split at h <;> cases h
    rename_i l hl
    exact hfound _ l hl
  · split at h
    · rename_i l hl
      cases h
      exact hfound _ l hl
    · split at h <;> cases h
      rename_i l hl
      have hmem : l ∈ s.index.elsewhere name s.entity.moduleAlias := by simp [hl]
      obtain ⟨a, -, ha⟩ := List.mem_filterMap.mp hmem
      exact hfound a l ha

lemma resolveAll_eq (s : Site) (ts : List TypeDef) :
    s.resolveAll ts = (ts.map fun t => (s.resolve t).1, ts.flatMap fun t => (s.resolve t).2) := by
  induction ts with
  | nil => rw [Site.resolveAll, List.map_nil, List.flatMap_nil]
  | cons t ts ih => simp [Site.resolveAll, ih]

/-- Resolving a well formed type without an issue leaves references to entities only. -/
theorem wellFormed_resolve {s : Site} (hclass : ∀ e ∈ s.index.entities, HasNoColon e.className)
    {t : TypeDef} (ht : t.WellFormed TypeDef.IsName) (hno : (s.resolve t).2 = []) :
    (s.resolve t).1.WellFormed (TypeDef.IsReference s.index.entities) := by
  induction ht with
  | scalar h =>
    rw [TypeDef.scalar, Site.resolve]
    exact TypeDef.WellFormed.scalar h
  | vector h hpositive =>
    rw [Site.resolve]
    exact TypeDef.WellFormed.vector h hpositive
  | container h hlength hgenerics ih =>
    rw [Site.resolve, resolveAll_eq] at hno ⊢
    rw [List.flatMap_eq_nil_iff] at hno
    refine TypeDef.WellFormed.container h (by rw [List.length_map, hlength]) ?_
    intro t ht
    obtain ⟨g, hg, rfl⟩ := List.mem_map.mp ht
    exact ih g hg (hno g hg)
  | leaf h =>
    obtain ⟨name, nullable, moduleAlias, hb, hcolon, rfl⟩ := h
    rw [Site.resolve] at hno ⊢
    cases hl : s.lookup moduleAlias name with
    | error i => simp [hl] at hno
    | ok e =>
      obtain ⟨he, a, hkey⟩ := lookup_eq_ok hl
      have hname := (entityKey_inj (hclass e he) hcolon hkey).2
      exact TypeDef.WellFormed.leaf ⟨e, he, nullable, by rw [hname]; exact hb, rfl⟩

lemma level_of_lookup {s : Site} {moduleAlias : Option String} {name : String} {i : Issue}
    (h : s.lookup moduleAlias name = .error i) : i.level = .error := by
  unfold Site.lookup at h
  split at h
  · split at h
    · cases h
      rfl
    split at h <;> cases h
    rfl
  · split at h
    · cases h
    split at h <;> cases h <;> rfl

mutual

/-- Every issue about a type is an error. -/
lemma allErrors_resolve (s : Site) (t : TypeDef) : Issue.AllErrors (s.resolve t).2 := by
  obtain ⟨name, nullable, generics, category, moduleAlias, entityKind, dimension, enumSerialization⟩ := t
  cases category with
  | container =>
    rw [Site.resolve]
    exact allErrors_resolveAll s generics
  | unresolved =>
    rw [Site.resolve]
    cases hl : s.lookup moduleAlias name with
    | ok e => simp
    | error i => simpa using level_of_lookup hl
  | scalar | vector | entity => simp [Site.resolve]

lemma allErrors_resolveAll (s : Site) (ts : List TypeDef) : Issue.AllErrors (s.resolveAll ts).2 := by
  cases ts with
  | nil => simp [Site.resolveAll]
  | cons t ts =>
    rw [Site.resolveAll, Issue.allErrors_append]
    exact ⟨allErrors_resolve s t, allErrors_resolveAll s ts⟩

end

end TypeResolution

/-! ### Types without unresolved names -/

namespace TypeDef

lemma describeAll_eq (ts : List TypeDef) : describeAll ts = ts.map describe := by
  induction ts with
  | nil => rw [describeAll, List.map_nil]
  | cons t ts ih => rw [describeAll, List.map_cons, ih]

section Closed

variable {es : List Entity} {t : TypeDef}

lemma anyUnresolved_eq (ts : List TypeDef) : anyUnresolved ts = ts.any containsUnresolved := by
  induction ts with
  | nil => rw [anyUnresolved, List.any_nil]
  | cons t ts ih => rw [anyUnresolved, List.any_cons, ih]

/-- A well formed type over references has no unresolved name. -/
theorem containsUnresolved_eq_false (h : t.WellFormed (IsReference es)) : t.containsUnresolved = false := by
  induction h with
  | scalar h => simp [TypeDef.scalar, containsUnresolved, anyUnresolved]
  | vector h hpositive => simp [containsUnresolved, anyUnresolved]
  | container h hlength hgenerics ih =>
    rw [containsUnresolved, anyUnresolved_eq, List.any_eq_false.mpr]
    · rfl
    · simpa using ih
  | leaf h =>
    obtain ⟨e, he, nullable, hb, rfl⟩ := h
    simp [TypeResolution.referenceTo, containsUnresolved, anyUnresolved]

/-- An entity type is a reference. -/
lemma isReference_of_category (h : t.WellFormed (IsReference es)) (hc : t.category = .entity) :
    t.IsReference es := by
  cases h with
  | scalar | vector | container => cases hc
  | leaf h => exact h

/-- The elements of a list have well formed types. -/
lemma wellFormed_listElement? {u : TypeDef} (h : t.WellFormed (IsReference es))
    (hu : t.listElement? = some u) : u.WellFormed (IsReference es) := by
  unfold listElement? at hu
  split at hu
  swap
  · cases hu
  rename_i hlist
  cases h with
  | scalar | vector => cases hu
  | container h hlength hgenerics => exact hgenerics u (List.mem_of_head? hu)
  | leaf h =>
    obtain ⟨e, he, nullable, hb, rfl⟩ := h
    cases hu

/-- The type of a primary key is a scalar type without further parts. -/
lemma eq_scalar_of_isIdType (h : t.WellFormed (IsReference es)) (hid : FieldDraft.isIdType t = true) :
    ∃ nullable, t = TypeDef.scalar "int" nullable ∨ t = TypeDef.scalar "UuidValue" nullable := by
  simp only [FieldDraft.isIdType, Bool.and_eq_true, Bool.or_eq_true, beq_iff_eq] at hid
  cases h with
  | @scalar name nullable h =>
    rcases hid.2 with hname | hname
    · obtain rfl : name = "int" := hname
      exact ⟨nullable, Or.inl rfl⟩
    · obtain rfl : name = "UuidValue" := hname
      exact ⟨nullable, Or.inr rfl⟩
  | vector | container => simp at hid
  | leaf h =>
    obtain ⟨e, he, nullable, hb, rfl⟩ := h
    simp [TypeResolution.referenceTo] at hid

/-- A type with the text of a scalar type is this type. -/
lemma eq_scalar_of_describe (name : String) (h : t.WellFormed (IsReference es))
    (hb : builtin? name = some .scalar) (hround : '(' ∉ name.toList)
    (hangle : '<' ∉ name.toList) (ht : (t.withNullable false).describe = name) :
    t.withNullable false = TypeDef.scalar name false := by
  cases h with
  | @scalar name' nullable h =>
    have hname : name' = name := by
      simpa [withNullable, TypeDef.scalar, describe] using ht
    rw [hname]
    rfl
  | @vector name' nullable d h hpositive =>
    -- The text would have a bracket.
    refine absurd ?_ hround
    rw [← ht]
    simp [withNullable, describe]
  | @container name' nullable generics arity h hlength hgenerics =>
    cases generics with
    | nil =>
      have hname : name' = name := by
        simpa [withNullable, describe] using ht
      rw [hname, hb] at h
      cases h
    | cons g gs =>
      refine absurd ?_ hangle
      rw [← ht]
      simp [withNullable, describe]
  | leaf h =>
    obtain ⟨e, he, nullable, hnone, rfl⟩ := h
    have hname : e.className = name := by
      simpa [withNullable, TypeResolution.referenceTo, describe] using ht
    rw [hname, hb] at hnone
    cases hnone

/-- A type that has the text of the type of a primary key is this type. -/
theorem eq_of_sameBase {id : TypeDef} (h : t.WellFormed (IsReference es))
    (hid : ∃ nullable, id = TypeDef.scalar "int" nullable ∨ id = TypeDef.scalar "UuidValue" nullable)
    (hsame : t.sameBase id = true) : t.withNullable false = id.withNullable false := by
  rw [sameBase, beq_iff_eq] at hsame
  obtain ⟨nullable, rfl | rfl⟩ := hid
  · refine eq_scalar_of_describe "int" h (by decide) (by decide) (by decide) ?_
    rw [hsame]
    simp [withNullable, TypeDef.scalar, describe]
  · refine eq_scalar_of_describe "UuidValue" h (by decide) (by decide) (by decide) ?_
    rw [hsame]
    simp [withNullable, TypeDef.scalar, describe]

end Closed

end TypeDef

end EntitySchema
