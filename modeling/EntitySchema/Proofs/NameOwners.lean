import Mathlib.Data.List.Basic
import Mathlib.Data.List.Nodup
import Mathlib.Tactic.Common
import EntitySchema.Proofs.Lookup
import EntitySchema.Proofs.Reading
import EntitySchema.Proofs.Types.Names
import EntitySchema.Proofs.Uniqueness

/-!
# Who owns a name

The names that are gone through for repetitions and the names under which entities are looked up are kept apart,
but they agree: an entity is reported for its class name or its table just if a lookup of the name finds another
entity (`check_eq_reports`, `check_owners`).  What carries the induction is that after some entities each name that
has been declared belongs to the first of them that has it (`Owned`), and that a lookup finds this entity too
(`rival?_first`).
-/

namespace EntitySchema

namespace Uniqueness

/-! ### Reports -/

/-- The entity that a lookup finds, unless it is the one at the position. -/
def rival? (found : Option Located) (i : Nat) : Option Entity :=
  (found.filter (·.position != i)).map (·.entity)

/-- The report on the class name of the entity at a position, if the name belongs to another entity. -/
def classReports (index : EntityIndex) (i : Nat) (e : Entity) : List Issue :=
  ((rival? (index.find? e.moduleAlias e.className) i).map (takenClass e)).toList

/-- The report on the table of the class at a position, if the table belongs to another class. -/
def tableReports (index : EntityIndex) (i : Nat) (table : Option (Spanned String)) : List Issue :=
  table.toList.flatMap fun t => ((rival? (index.findTable? t.value) i).map (takenTable t)).toList

/-- The names of indexes that occur in front of the index at position `k` of the entity at position `i`. -/
def earlierNames (es : List Entity) (i : Nat) (indexes : List IndexDraft) (k : Nat) : List String :=
  (es.take i).flatMap Entity.indexNames ++ (indexes.take k).map (·.name)

/-- The indexes of the entity at a position whose names occur earlier. -/
def repeatedIndexes (es : List Entity) (i : Nat) (indexes : List IndexDraft) : List IndexDraft :=
  (indexes.zipIdx.filter fun p => p.1.name ∈ earlierNames es i indexes p.2).map (·.1)

/-- The first entity with an index of the name, up to the one at the position. -/
def indexOwner (es : List Entity) (i : Nat) (e : Entity) (name : String) : Entity :=
  ((es.take i).find? (·.indexNames.contains name)).getD e

/-- The reports on the indexes of the entity at a position. -/
def indexReports (es : List Entity) (i : Nat) (e : Entity) (indexes : List IndexDraft) : List Issue :=
  (repeatedIndexes es i indexes).map fun d => takenIndex d (indexOwner es i e d.name)

/-- The reports on all names of the entity at a position. -/
def reportsAt (index : EntityIndex) (i : Nat) (e : Entity) : List Issue :=
  match e.class? with
  | none => classReports index i e
  | some c =>
    classReports index i e ++ tableReports index i c.table ++ indexReports index.entities i e c.indexes

/-! ### Declaring names -/

section Declare

variable (names : List (String × Entity)) (e : Entity)

lemma owner?_declare (key : String) (taken : Entity → Issue) (k : String) :
    owner? (declare names key e taken).1 k = (owner? names k).or (if key == k then some e else none) := by
  unfold declare
  cases ho : owner? names key with
  | some first =>
    by_cases hk : key = k
    · simp [← hk, ho]
    · simp [hk]
  | none =>
    unfold owner?
    rw [List.find?_append, Option.map_or]
    congr 1
    cases hk : key == k <;> simp [hk]

lemma issues_declare (key : String) (taken : Entity → Issue) :
    (declare names key e taken).2 = ((owner? names key).map taken).toList := by
  unfold declare
  cases owner? names key <;> rfl

lemma owner?_declareTable (table : Option (Spanned String)) (t : String) :
    owner? (declareTable names e table).1 t =
      (owner? names t).or (if table.map (·.value) == some t then some e else none) := by
  cases table with
  | none => simp [declareTable]
  | some table => simpa [declareTable] using owner?_declare names e table.value (takenTable table) t

lemma issues_declareTable (table : Option (Spanned String)) :
    (declareTable names e table).2 =
      table.toList.flatMap fun t => ((owner? names t.value).map (takenTable t)).toList := by
  cases table with
  | none => rfl
  | some table => simpa [declareTable] using issues_declare names e table.value (takenTable table)

lemma owner?_declareIndexes (indexes : List IndexDraft) (n : String) :
    owner? (declareIndexes names e indexes).1 n =
      (owner? names n).or (if (indexes.map (·.name)).contains n then some e else none) := by
  induction indexes generalizing names with
  | nil => simp [declareIndexes]
  | cons d ds ih =>
    rw [declareIndexes]
    simp only [ih, owner?_declare]
    by_cases hd : d.name = n
    · cases owner? names n <;> simp [hd]
    · have hd' : ¬ n = d.name := fun h => hd h.symm
      cases owner? names n <;> simp [hd, hd']

/-- Behind some indexes of an entity, each further one is reported just if its name is taken. -/
lemma issues_declareIndexes {names : List (String × Entity)} (e : Entity) (es : List Entity) (i : Nat)
    (done indexes : List IndexDraft)
    (h : ∀ n, owner? names n =
      ((es.take i).find? (·.indexNames.contains n)).or
        (if (done.map (·.name)).contains n then some e else none)) :
    (declareIndexes names e indexes).2 =
      ((indexes.zipIdx done.length).filter fun p => p.1.name ∈ earlierNames es i (done ++ indexes) p.2).map
        fun p => takenIndex p.1 (indexOwner es i e p.1.name) := by
  induction indexes generalizing names done with
  | nil => rfl
  | cons d ds ih =>
    have hearlier : earlierNames es i (done ++ d :: ds) done.length =
        (es.take i).flatMap Entity.indexNames ++ done.map (·.name) := by
      rw [earlierNames, List.take_left]
    have hrest : (declareIndexes (declare names d.name e (takenIndex d)).1 e ds).2 = _ :=
      ih (done ++ [d]) fun n => by
        rw [owner?_declare, h n, Option.or_assoc]
        congr 1
        by_cases hn : n = d.name
        · by_cases hdone : d.name ∈ done.map (·.name) <;> simp [hn, hdone]
        · by_cases hdone : n ∈ done.map (·.name) <;> simp [hn, hdone, Ne.symm hn]
    have hfirst : (declare names d.name e (takenIndex d)).2 =
        if d.name ∈ (es.take i).flatMap Entity.indexNames ++ done.map (·.name)
          then [takenIndex d (indexOwner es i e d.name)] else [] := by
      rw [issues_declare, h d.name, indexOwner]
      cases hfind : (es.take i).find? (·.indexNames.contains d.name) with
      | some f =>
        have hmem : d.name ∈ (es.take i).flatMap Entity.indexNames :=
          List.mem_flatMap.mpr ⟨f, List.mem_of_find?_eq_some hfind, by simpa using List.find?_some hfind⟩
        simp [hmem]
      | none =>
        have hmem : d.name ∉ (es.take i).flatMap Entity.indexNames := by
          intro hmem
          obtain ⟨f, hf, hname⟩ := List.mem_flatMap.mp hmem
          exact List.find?_eq_none.mp hfind f hf (by simpa using hname)
        by_cases hdone : d.name ∈ done.map (·.name)
        · simp [hdone]
        · simp [hdone, hmem]
    rw [declareIndexes, List.zipIdx_cons, List.filter_cons, hearlier]
    rw [List.length_append, List.length_singleton, List.append_assoc, List.singleton_append] at hrest
    simp only [hfirst, hrest]
    by_cases hmem : d.name ∈ (es.take i).flatMap Entity.indexNames ++ done.map (·.name)
    · rw [if_pos hmem, if_pos (decide_eq_true hmem), List.map_cons, List.singleton_append]
    · rw [if_neg hmem, if_neg (by simpa using hmem), List.nil_append]

end Declare

/-! ### Entities one after the other -/

/-- Behind some entities every name that has been declared belongs to the first of them that has it. -/
structure Owned (names : Names) (before : List Entity) : Prop where
  classes : ∀ k, owner? names.classes k = before.find? (·.key == k)
  tables : ∀ t, owner? names.tables t = before.find? (·.table? == some t)
  indexes : ∀ n, owner? names.indexes n = before.find? (·.indexNames.contains n)

/-- The entity that stands in the way of a later one with the same property is the first one in front of it. -/
lemma rival?_first {index : EntityIndex} {p : Entity → Bool} {before after : List Entity} {e : Entity}
    (hsplit : index.entities = before ++ e :: after) (hp : p e = true) :
    rival? (index.first p) before.length = before.find? p := by
  have hfrom : ∀ n, ((EntityIndex.firstFrom p n (before ++ e :: after)).filter
      (·.position != n + before.length)).map (·.entity) = before.find? p := by
    clear hsplit
    induction before with
    | nil =>
      intro n
      simp [EntityIndex.firstFrom, hp]
    | cons b before ih =>
      intro n
      rw [List.cons_append, EntityIndex.firstFrom, List.find?_cons]
      cases p b with
      | true => simp
      | false => simpa [Nat.add_assoc, Nat.add_comm 1] using ih (n + 1)
  rw [rival?, EntityIndex.first, hsplit]
  simpa using hfrom 0

/-- A property of the entity at the end is found last. -/
lemma find?_concat (before : List Entity) (e : Entity) (p : Entity → Bool) :
    (before ++ [e]).find? p = (before.find? p).or (if p e then some e else none) := by
  rw [List.find?_append]
  congr 1
  cases hp : p e <;> simp [hp]

/-- The names of an entity behind others are declared as theirs were, and what is reported is what the lookups
say. -/
lemma Owned.declareEntity {names : Names} {index : EntityIndex} {before after : List Entity} {e : Entity}
    (h : Owned names before) (hsplit : index.entities = before ++ e :: after) (hnamed : e.table? ≠ some "") :
    (declareEntity names e).2 = reportsAt index before.length e ∧
      Owned (declareEntity names e).1 (before ++ [e]) := by
  have htake : index.entities.take before.length = before := by rw [hsplit, List.take_left]
  have hclass : (declare names.classes e.key e (takenClass e)).2 = classReports index before.length e := by
    have hrival : rival? (index.find? e.moduleAlias e.className) before.length =
        before.find? (·.key == e.key) := by
      rw [EntityIndex.find?_eq_first]
      exact rival?_first hsplit (by simp [Entity.key])
    rw [issues_declare, h.classes, classReports, hrival]
  have hclasses : ∀ k, owner? (declare names.classes e.key e (takenClass e)).1 k =
      (before ++ [e]).find? (·.key == k) := by
    intro k
    rw [owner?_declare, h.classes, find?_concat]
  obtain ⟨header, nameSpan, body⟩ := e
  cases body with
  | «class» c =>
    have htable : Entity.table? ⟨header, nameSpan, .class c⟩ = c.table.map (·.value) := rfl
    refine ⟨?_, hclasses, ?_, ?_⟩
    · have htables : (declareTable names.tables ⟨header, nameSpan, .class c⟩ c.table).2 =
          tableReports index before.length c.table := by
        rw [issues_declareTable, tableReports]
        cases ht : c.table with
        | none => rfl
        | some t =>
          have hne : t.value ≠ "" := fun hempty => hnamed (by rw [htable, ht, Option.map_some, hempty])
          have hrival : rival? (index.findTable? t.value) before.length =
              before.find? (·.table? == some t.value) := by
            rw [EntityIndex.findTable?_eq_first _ hne]
            exact rival?_first hsplit (by simp [htable, ht])
          simp [h.tables, hrival]
      have hindexes := issues_declareIndexes ⟨header, nameSpan, .class c⟩ index.entities before.length [] c.indexes
        fun n => by simpa [htake] using h.indexes n
      simp only [Uniqueness.declareEntity, Entity.class?, reportsAt, hclass, htables, hindexes, indexReports,
        repeatedIndexes, List.map_map, List.length_nil, List.nil_append]
      rfl
    · intro t
      simp only [Uniqueness.declareEntity, Entity.class?, owner?_declareTable, h.tables, find?_concat, htable]
    · intro n
      simp only [Uniqueness.declareEntity, Entity.class?, owner?_declareIndexes, h.indexes, find?_concat]
      rfl
  | exception | enum =>
    refine ⟨hclass, hclasses, fun t => ?_, fun n => ?_⟩
    · simp only [Uniqueness.declareEntity, Entity.class?, h.tables, find?_concat]
      simp [Entity.table?, Entity.class?]
    · simp only [Uniqueness.declareEntity, Entity.class?, h.indexes, find?_concat]
      simp [Entity.indexNames]

lemma Owned.checkFrom {names : Names} (index : EntityIndex) {before after : List Entity} (h : Owned names before)
    (hsplit : index.entities = before ++ after) (hnamed : ∀ e ∈ after, e.table? ≠ some "") :
    checkFrom names after =
      (after.zipIdx before.length).flatMap fun p => (reportsAt index p.2 p.1).map p.1.diagnostic := by
  induction after generalizing names before with
  | nil => rfl
  | cons e after ih =>
    obtain ⟨hfirst, hnamed⟩ := List.forall_mem_cons.mp hnamed
    obtain ⟨hreports, howned⟩ := h.declareEntity hsplit hfirst
    have hrest := ih howned (by rw [hsplit, List.append_assoc, List.singleton_append]) hnamed
    rw [List.length_append, List.length_singleton] at hrest
    simp only [Uniqueness.checkFrom, List.zipIdx_cons, List.flatMap_cons, hreports, hrest]

/-- What is reported about names is what lookups in an index of the same entities say. -/
theorem check_eq_reports {es : List Entity} (hnamed : ∀ e ∈ es, e.table? ≠ some "") (aliases : List String) :
    check es = es.zipIdx.flatMap fun p => (reportsAt ⟨es, aliases⟩ p.2 p.1).map p.1.diagnostic := by
  have hnone : Owned {} [] := ⟨fun _ => rfl, fun _ => rfl, fun _ => rfl⟩
  exact hnone.checkFrom ⟨es, aliases⟩ rfl hnamed

/-! ### Reports by their kind -/

section Reports

variable {index : EntityIndex} {i : Nat} {e : Entity}

lemma mem_classReports {r : Issue} :
    r ∈ classReports index i e ↔
      ∃ first, rival? (index.find? e.moduleAlias e.className) i = some first ∧ takenClass e first = r := by
  rw [classReports, Option.mem_toList, Option.map_eq_some_iff]

lemma mem_tableReports {table : Option (Spanned String)} {r : Issue} :
    r ∈ tableReports index i table ↔
      ∃ t, table = some t ∧ ∃ first, rival? (index.findTable? t.value) i = some first ∧ takenTable t first = r := by
  simp only [tableReports, List.mem_flatMap, Option.mem_toList, Option.map_eq_some_iff]

lemma code_of_mem_classReports {r : Issue} (h : r ∈ classReports index i e) : r.code = .duplicateClass := by
  obtain ⟨first, -, rfl⟩ := mem_classReports.mp h
  rfl

lemma code_of_mem_tableReports {table : Option (Spanned String)} {r : Issue} (h : r ∈ tableReports index i table) :
    r.code = .duplicateTable := by
  obtain ⟨t, -, first, -, rfl⟩ := mem_tableReports.mp h
  rfl

lemma code_of_mem_indexReports {es : List Entity} {indexes : List IndexDraft} {r : Issue}
    (h : r ∈ indexReports es i e indexes) : r.code = .duplicateIndex := by
  rw [indexReports, List.mem_map] at h
  obtain ⟨d, -, rfl⟩ := h
  rfl

/-- A report is one about the class name, the table or an index. -/
lemma mem_reportsAt {r : Issue} :
    r ∈ reportsAt index i e ↔ r ∈ classReports index i e ∨
      ∃ c, e.class? = some c ∧
        (r ∈ tableReports index i c.table ∨ r ∈ indexReports index.entities i e c.indexes) := by
  unfold reportsAt
  cases e.class? with
  | none => simp
  | some c => simp

lemma exists_duplicateClass_iff :
    (∃ r ∈ reportsAt index i e, r.code = .duplicateClass) ↔
      rival? (index.find? e.moduleAlias e.className) i ≠ none := by
  constructor
  · rintro ⟨r, hr, hcode⟩ hnone
    rcases mem_reportsAt.mp hr with hr | ⟨c, -, hr | hr⟩
    · obtain ⟨first, hfirst, -⟩ := mem_classReports.mp hr
      simp [hnone] at hfirst
    · simp [code_of_mem_tableReports hr] at hcode
    · simp [code_of_mem_indexReports hr] at hcode
  · intro hrival
    obtain ⟨first, hfirst⟩ := Option.ne_none_iff_exists'.mp hrival
    exact ⟨takenClass e first, mem_reportsAt.mpr (.inl (mem_classReports.mpr ⟨first, hfirst, rfl⟩)), rfl⟩

lemma exists_duplicateTable_iff {t : String} (h : e.table? = some t) :
    (∃ r ∈ reportsAt index i e, r.code = .duplicateTable) ↔ rival? (index.findTable? t) i ≠ none := by
  obtain ⟨c, hc, htable⟩ := Option.bind_eq_some_iff.mp h
  obtain ⟨table, hdeclared, rfl⟩ := Option.map_eq_some_iff.mp htable
  constructor
  · rintro ⟨r, hr, hcode⟩ hnone
    rcases mem_reportsAt.mp hr with hr | ⟨c', hc', hr | hr⟩
    · simp [code_of_mem_classReports hr] at hcode
    · obtain rfl : c = c' := Option.some.inj (hc.symm.trans hc')
      obtain ⟨t, ht, first, hfirst, -⟩ := mem_tableReports.mp hr
      obtain rfl : table = t := Option.some.inj (hdeclared.symm.trans ht)
      simp [hnone] at hfirst
    · simp [code_of_mem_indexReports hr] at hcode
  · intro hrival
    obtain ⟨first, hfirst⟩ := Option.ne_none_iff_exists'.mp hrival
    have hmem : takenTable table first ∈ tableReports index i c.table :=
      mem_tableReports.mpr ⟨table, hdeclared, first, hfirst, rfl⟩
    exact ⟨_, mem_reportsAt.mpr (.inr ⟨c, hc, .inl hmem⟩), rfl⟩

/-- The reports on indexes are told apart by their code. -/
lemma filter_reportsAt {c : ClassDraft} (h : e.class? = some c) :
    (reportsAt index i e).filter (·.code == .duplicateIndex) = indexReports index.entities i e c.indexes := by
  have hclass : (classReports index i e).filter (·.code == .duplicateIndex) = [] :=
    List.filter_eq_nil_iff.mpr fun r hr => by simp [code_of_mem_classReports hr]
  have htable : (tableReports index i c.table).filter (·.code == .duplicateIndex) = [] :=
    List.filter_eq_nil_iff.mpr fun r hr => by simp [code_of_mem_tableReports hr]
  have hindexes : (indexReports index.entities i e c.indexes).filter (·.code == .duplicateIndex) = _ :=
    List.filter_eq_self.mpr fun r hr => by simp [code_of_mem_indexReports hr]
  simp only [reportsAt, h, List.filter_append, hclass, htable, hindexes, List.nil_append]

/-- No other entity stands in the way just if the lookup finds the entity itself. -/
lemma rival?_eq_none_iff (index : EntityIndex) {p : Entity → Bool} (he : index.entities[i]? = some e)
    (hp : p e = true) :
    rival? (index.first p) i = none ↔ index.first p = some ⟨i, e⟩ := by
  constructor
  · intro hnone
    obtain ⟨hi, rfl⟩ := List.getElem?_eq_some_iff.mp he
    have hsplit : index.entities = index.entities.take i ++ index.entities[i] :: index.entities.drop (i + 1) := by
      rw [← List.drop_eq_getElem_cons, List.take_append_drop]
    have hfind := rival?_first hsplit hp
    rw [List.length_take_of_le hi.le, hnone, eq_comm, List.find?_eq_none] at hfind
    refine EntityIndex.first_eq_some_iff.mpr ⟨he, hp, fun j hj e' he' => ?_⟩
    have hmem : e' ∈ index.entities.take i :=
      List.mem_of_getElem? (by rw [List.getElem?_take_of_lt hj, he'])
    simpa using hfind e' hmem
  · intro hfirst
    simp [rival?, hfirst]

end Reports

/-- Names are reported just if one of them is repeated. -/
lemma check_eq_nil_iff {es : List Entity} (hnamed : ∀ e ∈ es, e.table? ≠ some "") :
    check es = [] ↔ (es.map Entity.key).Nodup ∧ (es.filterMap Entity.table?).Nodup ∧
      (es.flatMap Entity.indexNames).Nodup := by
  rw [← hasErrors_check]
  constructor
  · intro hnil
    rw [hnil, Diagnostic.hasErrors_nil]
  · intro hno
    refine List.eq_nil_iff_forall_not_mem.mpr fun d hd => ?_
    have herror := Diagnostic.hasErrors_eq_false_iff.mp hno d hd
    rw [check_eq_reports hnamed [], List.mem_flatMap] at hd
    obtain ⟨⟨e, i⟩, -, hd⟩ := hd
    obtain ⟨r, hr, rfl⟩ := List.mem_map.mp hd
    have hlevel : r.level = .error := by
      rcases mem_reportsAt.mp hr with hr | ⟨c, -, hr | hr⟩
      · obtain ⟨first, -, rfl⟩ := mem_classReports.mp hr
        rfl
      · obtain ⟨t, -, first, -, rfl⟩ := mem_tableReports.mp hr
        rfl
      · obtain ⟨d, -, rfl⟩ := List.mem_map.mp hr
        rfl
    simp [Entity.diagnostic, hlevel] at herror

/-- Entities with class names have different keys just if they differ in their modules or their names. -/
lemma nodup_key_iff {es : List Entity} (h : ∀ e ∈ es, HasNoColon e.className) :
    (es.map Entity.key).Nodup ↔ (es.map fun e => (e.moduleAlias, e.className)).Nodup := by
  rw [List.Nodup, List.Nodup, List.pairwise_map, List.pairwise_map]
  constructor
  · intro hkeys
    refine hkeys.imp fun {e e'} hne heq => hne ?_
    obtain ⟨halias, hname⟩ := Prod.mk.inj heq
    rw [Entity.key, Entity.key, halias, hname]
  · intro hnames
    refine hnames.imp_of_mem fun {e e'} he he' hne hkey => hne ?_
    obtain ⟨halias, hname⟩ := entityKey_inj (h e he) (h e' he') hkey
    rw [halias, hname]

/-- An entity that has been read is reported for its class name or its table just if a lookup of the name finds
another entity, and every index is reported whose name occurs earlier.  So nothing is reported just if all names
are different. -/
theorem check_owners {es : List Entity} (hread : ∀ e ∈ es, ∃ input, (Entity.ofDocument input).1 = some e)
    (aliases : List String) :
    (check es = es.zipIdx.flatMap fun p => (reportsAt ⟨es, aliases⟩ p.2 p.1).map p.1.diagnostic) ∧
      (∀ i e, es[i]? = some e →
        ((∃ r ∈ reportsAt ⟨es, aliases⟩ i e, r.code = .duplicateClass) ↔
          EntityIndex.find? ⟨es, aliases⟩ e.moduleAlias e.className ≠ some ⟨i, e⟩) ∧
        (∀ t, e.table? = some t →
          ((∃ r ∈ reportsAt ⟨es, aliases⟩ i e, r.code = .duplicateTable) ↔
            EntityIndex.findTable? ⟨es, aliases⟩ t ≠ some ⟨i, e⟩)) ∧
        ∀ c, e.class? = some c →
          (reportsAt ⟨es, aliases⟩ i e).filter (·.code == .duplicateIndex) =
            (repeatedIndexes es i c.indexes).map fun d => takenIndex d (indexOwner es i e d.name)) ∧
      (check es = [] ↔ (es.map fun e => (e.moduleAlias, e.className)).Nodup ∧
        (es.filterMap Entity.table?).Nodup ∧ (es.flatMap Entity.indexNames).Nodup) := by
  have hnamed : ∀ e ∈ es, e.table? ≠ some "" := by
    intro e he hempty
    obtain ⟨input, hinput⟩ := hread e he
    exact absurd (Entity.isTableName_ofDocument hinput hempty) (by decide)
  refine ⟨check_eq_reports hnamed aliases, fun i e he => ⟨?_, fun t ht => ?_, fun c hc => filter_reportsAt hc⟩, ?_⟩
  · rw [exists_duplicateClass_iff, not_iff_not, EntityIndex.find?_eq_first]
    exact rival?_eq_none_iff ⟨es, aliases⟩ he (by simp [Entity.key])
  · have hne : t ≠ "" := by
      rintro rfl
      exact hnamed e (List.mem_of_getElem? he) ht
    rw [exists_duplicateTable_iff ht, not_iff_not, EntityIndex.findTable?_eq_first _ hne]
    exact rival?_eq_none_iff ⟨es, aliases⟩ he (by simp [ht])
  · have hclass : ∀ e ∈ es, HasNoColon e.className := by
      intro e he
      obtain ⟨input, hinput⟩ := hread e he
      exact (Entity.declared_ofDocument hinput).className
    rw [check_eq_nil_iff hnamed, nodup_key_iff hclass]

/-- Two classes of one name, with one table, of which the second one repeats an index of the first one. -/
def notes : List Entity :=
  [["class: Note", "table: note", "fields:", "  text: String", "indexes:", "  note_text:", "    fields: text"],
    ["class: Note", "table: note", "fields:", "  text: String", "indexes:", "  note_text:", "    fields: text",
      "  note_line:", "    fields: text"]].filterMap fun lines =>
      (Entity.ofDocument ⟨String.intercalate "\n" lines, "note.spy.yaml", "note", [], some "a:b"⟩).1

/-- The second class owns neither its name nor its table, and one of its indexes is reported. -/
theorem check_owners_notes :
    (∀ e ∈ notes, ∃ input, (Entity.ofDocument input).1 = some e) ∧
      ((check notes).map (·.code) =
        [Code.duplicateClass, .duplicateTable, .duplicateIndex].map fun c => some c.name) ∧
      (∃ e, notes[1]? = some e ∧ EntityIndex.find? ⟨notes, ["a:b"]⟩ "a:b" "Note" ≠ some ⟨1, e⟩ ∧
        EntityIndex.findTable? ⟨notes, ["a:b"]⟩ "note" ≠ some ⟨1, e⟩) := by
  have hread : ∀ e ∈ notes, ∃ input, (Entity.ofDocument input).1 = some e := by
    intro e he
    obtain ⟨lines, -, hlines⟩ := List.mem_filterMap.mp he
    exact ⟨_, hlines⟩
  obtain ⟨hcodes, hreports⟩ : ((check notes).map (·.code) =
        [Code.duplicateClass, .duplicateTable, .duplicateIndex].map fun c => some c.name) ∧
      (notes[1]?.any fun e => e.moduleAlias == "a:b" && e.className == "Note" && e.table? == some "note" &&
        (reportsAt ⟨notes, ["a:b"]⟩ 1 e).any (·.code == .duplicateClass) &&
        (reportsAt ⟨notes, ["a:b"]⟩ 1 e).any (·.code == .duplicateTable)) = true := by
    decide +kernel
  obtain ⟨e, he, hfacts⟩ := (Option.any_eq_true _ _).mp hreports
  simp only [Bool.and_eq_true, beq_iff_eq, List.any_eq_true] at hfacts
  obtain ⟨⟨⟨⟨halias, hname⟩, htable⟩, hclassReport⟩, htableReport⟩ := hfacts
  obtain ⟨hclass, htables, -⟩ := (check_owners hread ["a:b"]).2.1 1 e he
  refine ⟨hread, hcodes, e, he, ?_, (htables "note" htable).mp htableReport⟩
  simpa [halias, hname] using hclass.mp hclassReport

end Uniqueness

end EntitySchema
