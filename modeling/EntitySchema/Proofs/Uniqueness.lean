import Mathlib.Data.List.Nodup
import Mathlib.Tactic.Common
import EntitySchema.Proofs.Diagnostics
import EntitySchema.Resolution.Uniqueness

/-!
# Names that are declared once

No name is reported as taken just if no name of its kind is repeated in the list of all entities
(`hasErrors_check`), so whether there is an error does not depend on the order in which they are gone through.
The entities are gone through with the names that have been declared before; that these are without
repetition is what carries the induction.
-/

namespace EntitySchema

/-- The names of the indexes of a class. -/
def Entity.indexNames (e : Entity) : List String :=
  match e.body with
  | .class c => c.indexes.map (·.name)
  | _ => []

namespace Uniqueness

/-! ### Names of one kind -/

/-- The names that have been declared. -/
def keys (names : List (String × Entity)) : List String :=
  names.map (·.1)

/-- The result of declaring further names: there is no issue just if no name is repeated, and then the names
are declared behind the other ones. -/
structure Declares (names : List (String × Entity)) (more : List String)
    (result : List (String × Entity) × List Issue) : Prop where
  issues : result.2 = [] ↔ (keys names ++ more).Nodup
  keys : result.2 = [] → keys result.1 = keys names ++ more

section Declares

variable {names : List (String × Entity)}

lemma declares_nil (h : (keys names).Nodup) : Declares names [] (names, []) :=
  ⟨by simpa using h, fun _ => (List.append_nil _).symm⟩

/-- One name is declared if it is not taken. -/
lemma declares_declare (h : (keys names).Nodup) (key : String) (e : Entity) (taken : Entity → Issue) :
    Declares names [key] (declare names key e taken) := by
  have hiff : (keys names ++ [key]).Nodup ↔ key ∉ keys names := by
    simp [List.nodup_append, h]
    exact ⟨fun hne hmem => hne key hmem rfl, fun hne a ha => by rintro rfl; exact hne ha⟩
  unfold declare
  cases ho : owner? names key with
  | some first =>
    simp only [owner?, Option.map_eq_some_iff] at ho
    obtain ⟨p, hp, -⟩ := ho
    have hkey : p.1 = key := by simpa using List.find?_some hp
    have hmem : key ∈ keys names := List.mem_map.mpr ⟨p, List.mem_of_find?_eq_some hp, hkey⟩
    exact ⟨by simp [hiff, hmem], fun hnil => by cases hnil⟩
  | none =>
    simp only [owner?, Option.map_eq_none_iff, List.find?_eq_none, beq_iff_eq] at ho
    have hmem : key ∉ keys names := by
      intro hmem
      obtain ⟨p, hp, hkey⟩ := List.mem_map.mp hmem
      exact ho p hp hkey
    exact ⟨by simp [hiff, hmem], fun _ => by simp [keys]⟩

/-- Names are declared one after the other. -/
lemma Declares.append {ks ks' : List String} {r r' : List (String × Entity) × List Issue}
    (h : Declares names ks r) (h' : r.2 = [] → Declares r.1 ks' r') :
    Declares names (ks ++ ks') (r'.1, r.2 ++ r'.2) := by
  constructor
  · rw [List.append_eq_nil_iff, ← List.append_assoc]
    constructor
    · rintro ⟨hfirst, hrest⟩
      rw [← h.keys hfirst]
      exact (h' hfirst).issues.mp hrest
    · intro hnodup
      have hfirst := h.issues.mpr hnodup.of_append_left
      rw [← h.keys hfirst] at hnodup
      exact ⟨hfirst, (h' hfirst).issues.mpr hnodup⟩
  · intro hnil
    obtain ⟨hfirst, hrest⟩ := List.append_eq_nil_iff.mp hnil
    rw [(h' hfirst).keys hrest, h.keys hfirst, List.append_assoc]

/-- A class declares its table. -/
lemma declares_declareTable (h : (keys names).Nodup) (e : Entity) (table : Option (Spanned String)) :
    Declares names (table.map (·.value)).toList (declareTable names e table) := by
  cases table with
  | none => exact declares_nil h
  | some table => exact declares_declare h table.value e _

/-- A class declares the names of its indexes. -/
lemma declares_declareIndexes (h : (keys names).Nodup) (e : Entity) (is : List IndexDraft) :
    Declares names (is.map (·.name)) (declareIndexes names e is) := by
  induction is generalizing names with
  | nil => exact declares_nil h
  | cons i is ih =>
    have hfirst := declares_declare h i.name e (takenIndex i)
    have hrest : (declare names i.name e (takenIndex i)).2 = [] → Declares _ _ _ := fun hnil =>
      ih (hfirst.keys hnil ▸ hfirst.issues.mp hnil)
    exact hfirst.append hrest

end Declares

/-! ### Issues -/

lemma allErrors_declare (names : List (String × Entity)) (key : String) (e : Entity)
    {taken : Entity → Issue} (h : ∀ first, (taken first).level = .error) :
    Issue.AllErrors (declare names key e taken).2 := by
  unfold declare
  split
  · simpa using h _
  · exact Issue.allErrors_nil

lemma allErrors_declareIndexes (names : List (String × Entity)) (e : Entity) (is : List IndexDraft) :
    Issue.AllErrors (declareIndexes names e is).2 := by
  induction is generalizing names with
  | nil => exact Issue.allErrors_nil
  | cons i is ih =>
    rw [declareIndexes, Issue.allErrors_append]
    exact ⟨allErrors_declare _ _ _ fun _ => rfl, ih _⟩

lemma allErrors_declareTable (names : List (String × Entity)) (e : Entity)
    (table : Option (Spanned String)) : Issue.AllErrors (declareTable names e table).2 := by
  cases table with
  | none => exact Issue.allErrors_nil
  | some table => exact allErrors_declare _ _ _ fun _ => rfl

/-- Every issue about a name is an error. -/
lemma allErrors_declareEntity (names : Names) (e : Entity) :
    Issue.AllErrors (declareEntity names e).2 := by
  unfold declareEntity
  have hclass : Issue.AllErrors (declare names.classes e.key e (takenClass e)).2 :=
    allErrors_declare _ _ _ fun _ => rfl
  cases e.class? with
  | none => exact hclass
  | some c =>
    simp only [Issue.allErrors_append]
    exact ⟨⟨hclass, allErrors_declareTable _ _ _⟩, allErrors_declareIndexes _ _ _⟩

/-! ### Names of all kinds -/

/-- No name of any kind is repeated among those that have been declared and those of entities. -/
structure Unrepeated (names : Names) (es : List Entity) : Prop where
  classes : (keys names.classes ++ es.map Entity.key).Nodup
  tables : (keys names.tables ++ es.filterMap Entity.table?).Nodup
  indexes : (keys names.indexes ++ es.flatMap Entity.indexNames).Nodup

/-- What is declared behind further names. -/
structure Adds (names more : Names) (e : Entity) : Prop where
  classes : keys more.classes = keys names.classes ++ [e.key]
  tables : keys more.tables = keys names.tables ++ e.table?.toList
  indexes : keys more.indexes = keys names.indexes ++ e.indexNames

/-- Names that have been declared behind those of an entity. -/
lemma Adds.unrepeated_iff {names more : Names} {e : Entity} (h : Adds names more e) (es : List Entity) :
    Unrepeated more es ↔ Unrepeated names (e :: es) := by
  have htables : (e :: es).filterMap Entity.table? = e.table?.toList ++ es.filterMap Entity.table? := by
    cases ht : e.table? <;> simp [ht]
  constructor
  · intro hmore
    refine ⟨?_, ?_, ?_⟩
    · simpa [h.classes] using hmore.classes
    · simpa [h.tables, htables] using hmore.tables
    · simpa [h.indexes] using hmore.indexes
  · intro hnames
    refine ⟨?_, ?_, ?_⟩
    · simpa [h.classes] using hnames.classes
    · simpa [h.tables, htables] using hnames.tables
    · simpa [h.indexes] using hnames.indexes

/-- An entity is declared without an issue just if none of its names is repeated. -/
lemma declareEntity_spec {names : Names} (h : Unrepeated names []) (e : Entity) :
    ((declareEntity names e).2 = [] ↔ Unrepeated names [e]) ∧
      ((declareEntity names e).2 = [] → Adds names (declareEntity names e).1 e) := by
  have hkey := declares_declare (by simpa using h.classes) e.key e (takenClass e)
  have htables : ∀ table, Declares names.tables _ (declareTable names.tables e table) :=
    declares_declareTable (by simpa using h.tables) e
  have hindexes : ∀ is, Declares names.indexes _ (declareIndexes names.indexes e is) :=
    declares_declareIndexes (by simpa using h.indexes) e
  obtain ⟨header, nameSpan, body⟩ := e
  cases body with
  | «class» c =>
    have htable : Entity.table? ⟨header, nameSpan, .class c⟩ = c.table.map (·.value) := rfl
    have hnames : Entity.indexNames ⟨header, nameSpan, .class c⟩ = c.indexes.map (·.name) := rfl
    unfold declareEntity
    simp only [Entity.class?, List.append_eq_nil_iff]
    rw [hkey.issues, (htables _).issues, (hindexes _).issues]
    constructor
    · constructor
      · rintro ⟨⟨hclasses, htable'⟩, hindex⟩
        refine ⟨hclasses, ?_, ?_⟩
        · cases ht : c.table <;> simpa [htable, ht] using htable'
        · simpa [hnames] using hindex
      · intro hall
        refine ⟨⟨hall.classes, ?_⟩, ?_⟩
        · have htable' := hall.tables
          cases ht : c.table <;> simpa [htable, ht] using htable'
        · simpa [hnames] using hall.indexes
    · rintro ⟨⟨hclasses, htable'⟩, hindex⟩
      exact ⟨hkey.keys (hkey.issues.mpr hclasses), (htables _).keys ((htables _).issues.mpr htable'),
        (hindexes _).keys ((hindexes _).issues.mpr hindex)⟩
  | exception | enum =>
    unfold declareEntity
    simp only [Entity.class?]
    refine ⟨?_, fun hnil => ⟨hkey.keys hnil, (List.append_nil _).symm, (List.append_nil _).symm⟩⟩
    rw [hkey.issues]
    exact ⟨fun hclasses => ⟨hclasses, h.tables, h.indexes⟩, fun hall => hall.classes⟩

/-- Entities are declared without errors just if no name is repeated. -/
lemma hasErrors_checkFrom {names : Names} (h : Unrepeated names []) (es : List Entity) :
    Diagnostic.hasErrors (checkFrom names es) = false ↔ Unrepeated names es := by
  induction es generalizing names with
  | nil => exact ⟨fun _ => h, fun _ => rfl⟩
  | cons e es ih =>
    obtain ⟨hissues, hadds⟩ := declareEntity_spec h e
    rw [checkFrom, Diagnostic.hasErrors_append, Bool.or_eq_false_iff]
    constructor
    · rintro ⟨hfirst, hrest⟩
      have hnil := Issue.eq_nil_of_hasErrors_eq_false (allErrors_declareEntity names e) hfirst
      have hmore := hadds hnil
      exact (hmore.unrepeated_iff es).mp ((ih ((hmore.unrepeated_iff []).mpr (hissues.mp hnil))).mp hrest)
    · intro hall
      have hone : Unrepeated names [e] := by
        have hmore := hall.tables
        refine ⟨hall.classes.sublist (by simp), ?_, hall.indexes.sublist (by simp)⟩
        cases ht : e.table? with
        | none => simpa [ht] using h.tables
        | some t =>
          simp only [ht, List.filterMap_cons] at hmore ⊢
          exact hmore.sublist (by simp)
      have hnil := hissues.mpr hone
      have hmore := hadds hnil
      rw [hnil]
      exact ⟨rfl, (ih ((hmore.unrepeated_iff []).mpr hone)).mpr ((hmore.unrepeated_iff es).mpr hall)⟩

/-- No name is reported just if no name of any kind is repeated. -/
theorem hasErrors_check {es : List Entity} :
    Diagnostic.hasErrors (check es) = false ↔
      (es.map Entity.key).Nodup ∧ (es.filterMap Entity.table?).Nodup ∧ (es.flatMap Entity.indexNames).Nodup := by
  have hempty : Unrepeated {} [] := ⟨List.nodup_nil, List.nodup_nil, List.nodup_nil⟩
  rw [check, hasErrors_checkFrom hempty]
  exact ⟨fun h => ⟨h.classes, h.tables, h.indexes⟩, fun h => ⟨h.1, h.2.1, h.2.2⟩⟩

/-- If no name is reported, keys and tables are pairwise different. -/
theorem pairwise_of_check {es : List Entity} (h : Diagnostic.hasErrors (check es) = false) :
    (es.Pairwise fun e e' => e.key ≠ e'.key) ∧
      es.Pairwise fun e e' => ∀ t, e.table? = some t → e'.table? ≠ some t := by
  obtain ⟨hkeys, htables, -⟩ := hasErrors_check.mp h
  refine ⟨List.pairwise_map.mp hkeys, (List.pairwise_filterMap.mp htables).imp ?_⟩
  intro e e' hne t ht ht'
  exact hne t ht t ht' rfl

/-- Whether a name is reported does not depend on the order of the entities. -/
theorem hasErrors_check_of_perm {es es' : List Entity} (h : es.Perm es')
    (hno : Diagnostic.hasErrors (check es) = false) : Diagnostic.hasErrors (check es') = false := by
  obtain ⟨hkeys, htables, hindexes⟩ := hasErrors_check.mp hno
  exact hasErrors_check.mpr ⟨(h.map _).nodup_iff.mp hkeys, (h.filterMap _).nodup_iff.mp htables,
    (h.flatMap_right _).nodup_iff.mp hindexes⟩

end Uniqueness

end EntitySchema
