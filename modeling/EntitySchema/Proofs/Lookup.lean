import Mathlib.Data.List.Basic
import Mathlib.Tactic.Common
import EntitySchema.Entity.Lookup

/-!
# What lookups find

The maps of an index hold under each name the first of the entities that have it (`Holds.declareFrom`, from the
step `Holds.declare`).  So a lookup finds an entity at its position, and the first one with the name
(`find?_eq_first`, `findTable?_eq_first`, `first_eq_some_iff`).  Where only one entity has the name, the lookup finds
it.
-/

namespace EntitySchema

namespace EntityIndex

/-- The first entity from position `n` on that has a property. -/
def firstFrom (p : Entity → Bool) (n : Nat) : List Entity → Option Located
  | [] => none
  | e :: es => if p e then some ⟨n, e⟩ else firstFrom p (n + 1) es

/-- The first entity that has a property. -/
def first (index : EntityIndex) (p : Entity → Bool) : Option Located :=
  firstFrom p 0 index.entities

/-- An entity that is found from position `n` on is the first one with the property. -/
lemma firstFrom_eq_some_iff {p : Entity → Bool} {n : Nat} {es : List Entity} {l : Located} :
    firstFrom p n es = some l ↔
      ∃ i, l.position = n + i ∧ es[i]? = some l.entity ∧ p l.entity = true ∧
        ∀ j < i, ∀ e, es[j]? = some e → p e = false := by
  induction es generalizing n with
  | nil => simp [firstFrom]
  | cons e es ih =>
    cases hp : p e with
    | true =>
      simp only [firstFrom, hp, if_true, Option.some.injEq]
      constructor
      · rintro rfl
        exact ⟨0, rfl, rfl, hp, fun j hj => absurd hj (Nat.not_lt_zero j)⟩
      · rintro ⟨i, hpos, hget, -, hmin⟩
        obtain rfl : i = 0 := by
          by_contra hi
          have := hmin 0 (Nat.pos_of_ne_zero hi) e rfl
          rw [hp] at this
          cases this
        cases l
        simp_all
    | false =>
      simp only [firstFrom, hp, Bool.false_eq_true, if_false, ih]
      constructor
      · rintro ⟨i, hpos, hget, hp', hmin⟩
        refine ⟨i + 1, by omega, by simpa using hget, hp', ?_⟩
        intro j hj e' he'
        cases j with
        | zero =>
          rw [List.getElem?_cons_zero] at he'
          rwa [← Option.some.inj he']
        | succ j => exact hmin j (by omega) e' (by simpa using he')
      · rintro ⟨i, hpos, hget, hp', hmin⟩
        cases i with
        | zero =>
          rw [List.getElem?_cons_zero] at hget
          rw [← Option.some.inj hget, hp] at hp'
          cases hp'
        | succ i =>
          refine ⟨i, by omega, by simpa using hget, hp', ?_⟩
          intro j hj e' he'
          exact hmin (j + 1) (by omega) e' (by simpa using he')

/-- A lookup finds the first entity with the property, at its position. -/
theorem first_eq_some_iff {index : EntityIndex} {p : Entity → Bool} {l : Located} :
    index.first p = some l ↔
      index.entities[l.position]? = some l.entity ∧ p l.entity = true ∧
        ∀ j < l.position, ∀ e, index.entities[j]? = some e → p e = false := by
  rw [first, firstFrom_eq_some_iff]
  constructor
  · rintro ⟨i, hpos, hget, hp, hmin⟩
    obtain rfl : l.position = i := by omega
    exact ⟨hget, hp, hmin⟩
  · rintro ⟨hget, hp, hmin⟩
    exact ⟨l.position, by omega, hget, hp, hmin⟩

/-- The only entity with a property is found. -/
lemma first_eq_some_of_unique {index : EntityIndex} {p : Entity → Bool} {i : Nat} {e : Entity}
    (hget : index.entities[i]? = some e) (hp : p e = true)
    (huniq : ∀ j e', index.entities[j]? = some e' → p e' = true → j = i) :
    index.first p = some ⟨i, e⟩ := by
  refine first_eq_some_iff.mpr ⟨hget, hp, fun j hj e' he' => ?_⟩
  by_contra hp'
  obtain rfl := huniq j e' he' (by simpa using hp')
  exact absurd hj (Nat.lt_irrefl j)

/-! ### The maps -/

lemma get?_insertIfNew (map : NameMap) (name : String) (l : Located) (k : String) :
    (map.insertIfNew name l).get? k = (map.get? k).or (if name == k then some l else none) := by
  unfold NameMap.insertIfNew
  cases hname : map.get? name with
  | some first =>
    rw [Option.isSome_some, if_pos rfl]
    cases hk : name == k with
    | true => simp [← beq_iff_eq.mp hk, hname]
    | false => simp
  | none =>
    rw [Option.isSome_none, if_neg Bool.false_ne_true]
    unfold NameMap.get?
    rw [List.find?_append, Option.map_or]
    cases hk : name == k <;> simp [hk]

/-- An entity at the end is found last. -/
lemma firstFrom_concat (p : Entity → Bool) (n : Nat) (es : List Entity) (e : Entity) :
    firstFrom p n (es ++ [e]) = (firstFrom p n es).or (if p e then some ⟨n + es.length, e⟩ else none) := by
  induction es generalizing n with
  | nil => simp [firstFrom]
  | cons e' es ih =>
    rw [List.cons_append, firstFrom, firstFrom]
    split
    · rfl
    · rw [ih, List.length_cons, Nat.add_assoc, Nat.add_comm 1]

/-- The maps hold the first of some entities under each name; the empty text names no table. -/
structure Holds (maps : EntityMaps) (before : List Entity) : Prop where
  key : ∀ k, maps.byKey.get? k = firstFrom (·.key == k) 0 before
  table : ∀ t, maps.byTable.get? t = if t = "" then none else firstFrom (·.table? == some t) 0 before

lemma Holds.declare {maps : EntityMaps} {before : List Entity} (h : Holds maps before) (e : Entity) :
    Holds (maps.declare ⟨before.length, e⟩) (before ++ [e]) := by
  have hkey : ∀ k, (maps.byKey.insertIfNew e.key ⟨before.length, e⟩).get? k =
      firstFrom (·.key == k) 0 (before ++ [e]) := by
    intro k
    rw [get?_insertIfNew, h.key, firstFrom_concat, Nat.zero_add]
  have hother : ∀ t, (t = "" ∨ e.table? ≠ some t) →
      maps.byTable.get? t = if t = "" then none else firstFrom (·.table? == some t) 0 (before ++ [e]) := by
    rintro t (rfl | ht)
    · simp [h.table]
    · simp [h.table, firstFrom_concat, ht]
  unfold EntityMaps.declare
  dsimp only
  split
  · rename_i table htable
    split
    · rename_i hempty
      refine ⟨hkey, fun t => hother t ?_⟩
      by_cases ht : t = ""
      · exact .inl ht
      · exact .inr (by rw [htable, String.isEmpty_iff.mp hempty]; simpa using Ne.symm ht)
    · rename_i hempty
      refine ⟨hkey, fun t => ?_⟩
      rw [get?_insertIfNew]
      by_cases ht : table = t
      · subst ht
        have hne : table ≠ "" := fun h => hempty (String.isEmpty_iff.mpr h)
        simp [h.table, firstFrom_concat, htable, hne]
      · rw [hother t (.inr (by simpa [htable] using ht))]
        simp [ht]
  · rename_i htable
    exact ⟨hkey, fun t => hother t (.inr (by simp [htable]))⟩

lemma Holds.declareFrom {maps : EntityMaps} {before : List Entity} (h : Holds maps before) (after : List Entity) :
    Holds (maps.declareFrom before.length after) (before ++ after) := by
  induction after generalizing maps before with
  | nil => simpa [EntityMaps.declareFrom] using h
  | cons e after ih =>
    have hrest := ih (h.declare e)
    rw [List.length_append, List.length_singleton, List.append_assoc, List.singleton_append] at hrest
    exact hrest

theorem holds_maps (index : EntityIndex) : Holds index.maps index.entities := by
  have hnone : Holds {} [] := ⟨fun _ => rfl, fun t => by simp [NameMap.get?, firstFrom]⟩
  exact hnone.declareFrom index.entities

/-- The entity with a name in a module is the first one with the key. -/
theorem find?_eq_first (index : EntityIndex) (a n : String) :
    index.find? a n = index.first (·.key == entityKey a n) :=
  index.holds_maps.key _

/-- The class with a table is the first one with it. -/
theorem findTable?_eq_first (index : EntityIndex) {table : String} (h : table ≠ "") :
    index.findTable? table = index.first (·.table? == some table) := by
  rw [findTable?, index.holds_maps.table, if_neg h]
  rfl

/-- The entity with a name in a module is found under its key. -/
lemma find?_eq_some {index : EntityIndex} {a n : String} {l : Located}
    (h : index.find? a n = some l) :
    index.entities[l.position]? = some l.entity ∧ l.entity.key = entityKey a n := by
  rw [find?_eq_first] at h
  obtain ⟨hget, hkey, -⟩ := first_eq_some_iff.mp h
  exact ⟨hget, by simpa using hkey⟩

/-- The class that a type stands for is a class with the name and the module of the type. -/
lemma findClass?_eq_some {index : EntityIndex} {t : TypeDef} {l : Located}
    (h : index.findClass? t = some l) :
    t.category = .entity ∧ l.entity.kind = .class ∧ index.entities[l.position]? = some l.entity ∧
      ∃ a, t.moduleAlias = some a ∧ l.entity.key = entityKey a t.name := by
  unfold findClass? at h
  split at h
  · rename_i hcategory
    obtain ⟨hfind, hkind⟩ := Option.filter_eq_some_iff.mp h
    obtain ⟨a, ha, hfind⟩ := Option.bind_eq_some_iff.mp hfind
    obtain ⟨hget, hkey⟩ := find?_eq_some hfind
    exact ⟨by simpa using hcategory, by simpa using hkind, hget, a, ha, hkey⟩
  · cases h

/-- The empty text names no table. -/
lemma ne_empty_of_findTable? {index : EntityIndex} {table : String} {l : Located}
    (h : index.findTable? table = some l) : table ≠ "" := by
  rintro rfl
  rw [findTable?, index.holds_maps.table] at h
  cases h

/-- The class with a table has this table. -/
lemma findTable?_eq_some {index : EntityIndex} {table : String} {l : Located}
    (h : index.findTable? table = some l) :
    index.entities[l.position]? = some l.entity ∧ l.entity.table? = some table := by
  rw [findTable?_eq_first index (ne_empty_of_findTable? h)] at h
  obtain ⟨hget, htable, -⟩ := first_eq_some_iff.mp h
  exact ⟨hget, by simpa using htable⟩

end EntityIndex

end EntitySchema
