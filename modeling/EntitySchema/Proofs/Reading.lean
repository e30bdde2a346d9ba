import Mathlib.Data.List.Basic
import Mathlib.Tactic.Common
import EntitySchema.Entity.OfDocument
import EntitySchema.Proofs.Fields
import EntitySchema.Proofs.Indexes

/-!
# What is read of a document

Every entity that is read from a document has the fields of its entries, each as it is declared
(`declared_ofDocument`).  If the document has no errors, a class with a table has a primary key
(`exists_id_ofDocument`), and every field whose expression has a relation clause has a relation option
(`exists_relation_ofDocument`).
-/

namespace EntitySchema

namespace Entity

/-- What is known of an entity that has been read. -/
structure Declared (e : Entity) : Prop where
  className : HasNoColon e.className
  unrelated : ∀ f ∈ e.fields, f.relation = none
  wellFormed : ∀ f ∈ e.fields, f.type.WellFormed TypeDef.IsName
  idType : e.table?.isSome → ∀ f ∈ e.fields, f.name = "id" → FieldDraft.isIdType f.type = true
  stored : e.table?.isSome → ∀ f ∈ e.fields, f.shouldPersist = false →
    f.persistSpan ≠ none ∧ f.origin = .declared
  option : e.table? = none → ∀ f ∈ e.fields, f.relationOption = none
  unchecked : e.Unchecked

/-! ### Fields of a document -/

/-- A field of the `fields` property is that of an entry. -/
lemma exists_of_mem_fieldDrafts {d : ParsedDocument} {owner : FieldOwner} {f : FieldDraft}
    (h : f ∈ (fieldDrafts d owner).1) :
    ∃ e m, d.root.find? "fields" = some e ∧ e.value = .mapping m ∧
      ∃ entry ∈ m.entries, (FieldDraft.ofEntry d.lineStarts owner entry).1 = some f := by
  unfold fieldDrafts at h
  split at h
  · cases h
  rename_i e he
  split at h
  · rename_i m hm
    exact ⟨e, m, he, hm, FieldDraft.mem_ofEntries.mp h⟩
  · cases h

/-- A field of the `fields` property is as declared. -/
lemma declared_of_mem_fieldDrafts {d : ParsedDocument} {owner : FieldOwner} {f : FieldDraft}
    (h : f ∈ (fieldDrafts d owner).1) : FieldDraft.Declared owner f := by
  obtain ⟨-, -, -, -, entry, -, hentry⟩ := exists_of_mem_fieldDrafts h
  exact (FieldDraft.declared_of_ofEntry hentry).2

/-- Every issue about a field is an error. -/
lemma allErrors_fieldDrafts (d : ParsedDocument) (owner : FieldOwner) :
    Issue.AllErrors (fieldDrafts d owner).2 := by
  unfold fieldDrafts
  split
  · simp
  split
  · exact FieldDraft.allErrors_ofEntries _ _ _
  · simp

/-- The entries of the `fields` property. -/
def fieldEntries (d : ParsedDocument) : List MappingEntry :=
  match d.root.find? "fields" with
  | none => []
  | some e =>
    match e.value with
    | .mapping m => m.entries
    | _ => []

lemma mem_fieldEntries {d : ParsedDocument} {entry : MappingEntry} (h : entry ∈ fieldEntries d) :
    ∃ e m, d.root.find? "fields" = some e ∧ e.value = .mapping m ∧ entry ∈ m.entries := by
  unfold fieldEntries at h
  split at h
  · cases h
  rename_i e he
  split at h
  · rename_i m hvalue
    exact ⟨e, m, he, hvalue, h⟩
  · cases h

/-- An entry of the `fields` property is a field, if there is no issue. -/
lemma exists_of_mem_entries {d : ParsedDocument} {owner : FieldOwner} {e : MappingEntry} {m : Mapping}
    (hfields : d.root.find? "fields" = some e) (hvalue : e.value = .mapping m)
    (hno : (fieldDrafts d owner).2 = []) {entry : MappingEntry} (hentry : entry ∈ m.entries) :
    ∃ f ∈ (fieldDrafts d owner).1, (FieldDraft.ofEntry d.lineStarts owner entry).1 = some f ∧
      (FieldDraft.ofEntry d.lineStarts owner entry).2 = [] := by
  simp only [fieldDrafts, hfields, hvalue] at hno ⊢
  have hissues := FieldDraft.issues_of_ofEntries hno entry hentry
  obtain ⟨f, hf⟩ := Option.isSome_iff_exists.mp (FieldDraft.isSome_of_ofEntry hissues)
  exact ⟨f, FieldDraft.mem_ofEntries.mpr ⟨entry, hentry, hf⟩, hf, hissues⟩

/-! ### Classes -/

/-- The owner of the fields of a class. -/
def ownerOf (table : Option (Spanned String)) : FieldOwner :=
  if table.isSome then .tableClass else .plainClass

/-- The primary key that is added is as a primary key should be. -/
lemma declared_serialId (span : Span) (owner : FieldOwner) :
    FieldDraft.Declared owner (serialId span) where
  unrelated := rfl
  wellFormed := TypeDef.WellFormed.scalar (by decide)
  id _ _ := rfl
  stored _ h := by cases h
  option _ := rfl

/-- A class has the fields that are read and, if it has a table and declares no primary key, the added
one. -/
lemma classBody_eq (d : ParsedDocument) (kind : MappingEntry) :
    ∃ c, (classBody d kind).1 = .class c ∧ c.table = (tableProperty d.root).1 ∧
      c.fields =
        (if c.table.isSome && !declaresField d.root "id" then [serialId kind.keySpan] else []) ++
          (fieldDrafts d (ownerOf c.table)).1 := by
  let table := (tableProperty d.root).1
  let fields := (fieldDrafts d (if table.isSome then .tableClass else .plainClass)).1
  refine ⟨{ table
            managedMigration := (boolProperty d.root "managedMigration" true).1
            fields :=
              if table.isSome && !declaresField d.root "id" then serialId kind.keySpan :: fields
              else fields
            indexes := (indexDrafts d table.isSome).1 }, rfl, rfl, ?_⟩
  dsimp only
  cases h : table.isSome && !declaresField d.root "id" <;> rfl

/-- The entity of a class. -/
lemma ofKind_class (d : ParsedDocument) (entry : MappingEntry) (className : String) :
    ∃ c, (ofKind d entry .class className).1.body = .class c ∧
      c.table = (tableProperty d.root).1 ∧
      c.fields =
        (if c.table.isSome && !declaresField d.root "id" then [serialId entry.keySpan] else []) ++
          (fieldDrafts d (ownerOf c.table)).1 :=
  classBody_eq d entry

/-- The fields of an entity that is read, with what owns them. -/
lemma declared_of_mem_ofKind {d : ParsedDocument} {entry : MappingEntry} {kind : EntityKind}
    {className : String} {f : FieldDraft} (h : f ∈ (ofKind d entry kind className).1.fields) :
    ∃ owner, ((ofKind d entry kind className).1.table?.isSome ↔ owner = FieldOwner.tableClass) ∧
      FieldDraft.Declared owner f := by
  cases kind with
  | «class» =>
    obtain ⟨c, hbody, -, hfields⟩ := ofKind_class d entry className
    have htable : (ofKind d entry .class className).1.table? = c.table.map (·.value) := by
      simp [table?, class?, hbody]
    have hf : f ∈ c.fields := by
      simpa [fields, hbody] using h
    refine ⟨ownerOf c.table, ?_, ?_⟩
    · rw [htable, Option.isSome_map, ownerOf]
      cases c.table <;> simp
    · rw [hfields] at hf
      rcases List.mem_append.mp hf with hf | hf
      · split at hf
        · obtain rfl := List.mem_singleton.mp hf
          exact declared_serialId _ _
        · cases hf
      · exact declared_of_mem_fieldDrafts hf
  | exception =>
    have hf : f ∈ (fieldDrafts d .exception).1 := h
    refine ⟨.exception, ⟨fun hsome => ?_, fun howner => ?_⟩, declared_of_mem_fieldDrafts hf⟩
    · cases hsome
    · cases howner
  | enum => cases h

/-- The indexes of an entity that is read are checked later. -/
lemma unchecked_ofKind (d : ParsedDocument) (entry : MappingEntry) (kind : EntityKind) (className : String) :
    (ofKind d entry kind className).1.Unchecked := by
  intro c hc
  cases kind with
  | «class» =>
    cases hc
    rfl
  | exception | enum => cases hc

/-! ### Documents -/

lemma ofParsed_eq_some {d : ParsedDocument} {e : Entity} (h : (ofParsed d).1 = some e) :
    ∃ entry kind className, kindEntry d.root = .ok (entry, kind) ∧
      entry.value.text? = some className ∧ Naming.isClassName className = true ∧
        e = (ofKind d entry kind className).1 := by
  unfold ofParsed at h
  split at h
  · cases h
  rename_i entry kind hkind
  dsimp only at h
  split at h
  · cases h
  rename_i className hname
  obtain ⟨htext, hvalid⟩ := Option.filter_eq_some_iff.mp hname
  cases h
  exact ⟨entry, kind, className, hkind, htext, hvalid, rfl⟩

lemma ofDocument_eq_some {input : DocumentInput} {e : Entity} (h : (ofDocument input).1 = some e) :
    ∃ d, (readDocument input).1 = some d ∧ (ofParsed d).1 = some e := by
  unfold ofDocument at h
  dsimp only at h
  cases hd : (readDocument input).1 with
  | none => simp [hd] at h
  | some d => exact ⟨d, rfl, by simpa [hd] using h⟩

/-- The table of an entity that is read has a table name. -/
lemma isTableName_ofDocument {input : DocumentInput} {e : Entity} (h : (ofDocument input).1 = some e) {table : String}
    (htable : e.table? = some table) : Naming.isTableName table = true := by
  obtain ⟨d, -, hd⟩ := ofDocument_eq_some h
  obtain ⟨entry, kind, className, -, -, -, rfl⟩ := ofParsed_eq_some hd
  cases kind with
  | «class» =>
    obtain ⟨c, hbody, hc, -⟩ := ofKind_class d entry className
    simp only [table?, class?, hbody, Option.bind_some, hc, Option.map_eq_some_iff] at htable
    obtain ⟨t, ht, rfl⟩ := htable
    unfold tableProperty at ht
    split at ht
    · cases ht
    · split at ht
      · rename_i hname
        cases ht
        exact (Option.filter_eq_some_iff.mp hname).2
      · cases ht
  | exception | enum => cases htable

/-- An entity that is read from a document is as its entries declare it. -/
theorem declared_ofDocument {input : DocumentInput} {e : Entity} (h : (ofDocument input).1 = some e) :
    e.Declared := by
  obtain ⟨d, -, hd⟩ := ofDocument_eq_some h
  obtain ⟨entry, kind, className, -, -, hvalid, rfl⟩ := ofParsed_eq_some hd
  refine ⟨Naming.hasNoColon_of_isClassName hvalid, ?_, ?_, ?_, ?_, ?_, unchecked_ofKind d entry kind className⟩
  · intro f hf
    obtain ⟨owner, -, hdeclared⟩ := declared_of_mem_ofKind hf
    exact hdeclared.unrelated
  · intro f hf
    obtain ⟨owner, -, hdeclared⟩ := declared_of_mem_ofKind hf
    exact hdeclared.wellFormed
  · intro htable f hf hname
    obtain ⟨owner, howner, hdeclared⟩ := declared_of_mem_ofKind hf
    exact hdeclared.id (howner.mp htable) hname
  · intro htable f hf hstored
    obtain ⟨owner, howner, hdeclared⟩ := declared_of_mem_ofKind hf
    exact hdeclared.stored (howner.mp htable) hstored
  · intro htable f hf
    obtain ⟨owner, howner, hdeclared⟩ := declared_of_mem_ofKind hf
    refine hdeclared.option fun htableClass => ?_
    have hsome := howner.mpr htableClass
    rw [htable] at hsome
    cases hsome

/-! ### Documents without errors -/

/-- The issues about the fields are among the diagnostics of the document of a class. -/
lemma fieldIssues_of_ofDocument {input : DocumentInput} {d : ParsedDocument} {entry : MappingEntry}
    {className : String} (hd : (readDocument input).1 = some d)
    (hkind : kindEntry d.root = .ok (entry, .class))
    (hclass : entry.value.text?.filter Naming.isClassName = some className)
    (hno : Diagnostic.hasErrors (ofDocument input).2 = false) :
    (tableProperty d.root).2 = [] ∧ (fieldDrafts d (ownerOf (tableProperty d.root).1)).2 = [] := by
  have htable : Issue.AllErrors (tableProperty d.root).2 := by
    unfold tableProperty
    split
    · simp
    · split <;> simp [issueAt]
  simp only [ofDocument, hd, ofParsed, hkind, hclass, ofKind, bodyOf, classBody, List.map_append,
    Diagnostic.hasErrors_append, Bool.or_eq_false_iff] at hno
  obtain ⟨-, -, -, ⟨⟨htables, -⟩, hfields⟩, -⟩ := hno
  exact ⟨Issue.eq_nil_of_hasErrors_eq_false htable htables,
    Issue.eq_nil_of_hasErrors_eq_false (allErrors_fieldDrafts _ _) hfields⟩

/-- A document without errors whose class has a table has a primary key. -/
theorem exists_id_ofDocument {input : DocumentInput} {e : Entity} (h : (ofDocument input).1 = some e)
    (hno : Diagnostic.hasErrors (ofDocument input).2 = false) (htable : e.table?.isSome) :
    ∃ f ∈ e.fields, f.name = "id" := by
  obtain ⟨d, hd, hparsed⟩ := ofDocument_eq_some h
  obtain ⟨entry, kind, className, hkind, htext, hvalid, rfl⟩ := ofParsed_eq_some hparsed
  cases kind with
  | exception | enum => cases htable
  | «class» =>
    have hclass : entry.value.text?.filter Naming.isClassName = some className :=
      Option.filter_eq_some_iff.mpr ⟨htext, hvalid⟩
    obtain ⟨-, hissues⟩ := fieldIssues_of_ofDocument hd hkind hclass hno
    obtain ⟨c, hbody, hctable, hfields⟩ := ofKind_class d entry className
    have hsome : c.table.isSome := by
      simpa [table?, class?, hbody] using htable
    have hfields' : (ofKind d entry .class className).1.fields = c.fields := by
      simp [fields, hbody]
    rw [hfields', hfields]
    rw [← hctable] at hissues
    cases hid : declaresField d.root "id" with
    | false => exact ⟨serialId entry.keySpan, by simp [hsome], rfl⟩
    | true =>
      -- The entry of the primary key has become a field.
      unfold declaresField at hid
      split at hid
      swap
      · cases hid
      rename_i fieldsEntry hfind
      split at hid
      swap
      · cases hid
      rename_i m hvalue
      obtain ⟨idEntry, hidEntry⟩ := Option.isSome_iff_exists.mp hid
      have hkey : idEntry.key = "id" := by simpa using List.find?_some hidEntry
      obtain ⟨f, hf, hofEntry, -⟩ :=
        exists_of_mem_entries hfind hvalue hissues (List.mem_of_find?_eq_some hidEntry)
      refine ⟨f, by simp [hf], ?_⟩
      rw [(FieldDraft.declared_of_ofEntry hofEntry).1, hkey]

/-- The name of the class that a document declares. -/
def className? (d : ParsedDocument) : Option String :=
  match kindEntry d.root with
  | .ok (entry, .class) => entry.value.text?
  | _ => none

lemma className?_eq_some {d : ParsedDocument} {className : String} (h : className? d = some className) :
    ∃ entry, kindEntry d.root = .ok (entry, .class) ∧ entry.value.text? = some className := by
  unfold className? at h
  split at h
  · rename_i entry hkind
    exact ⟨entry, hkind, h⟩
  · cases h

/-- The document of a class with a table declares a field with a relation clause. -/
structure DeclaresRelation (d : ParsedDocument) (className field : String) : Prop where
  isClass : className? d = some className
  hasTable : (d.root.find? "table").isSome
  clause : ∃ entry ∈ fieldEntries d, entry.key = field ∧
    ∃ text ∈ entry.value.text?, FieldExpr.HasRelationClause text

instance (d : ParsedDocument) (className field : String) : Decidable (DeclaresRelation d className field) :=
  decidable_of_iff
    (className? d = some className ∧ (d.root.find? "table").isSome ∧
      ∃ entry ∈ fieldEntries d, entry.key = field ∧
        ∃ text ∈ entry.value.text?, FieldExpr.HasRelationClause text)
    ⟨fun h => ⟨h.1, h.2.1, h.2.2⟩, fun h => ⟨h.isClass, h.hasTable, h.clause⟩⟩

/-- A field that a document without errors declares with a relation clause has a relation option. -/
theorem exists_relation_ofDocument {input : DocumentInput} {d : ParsedDocument} {className field : String}
    (hd : (readDocument input).1 = some d) (h : DeclaresRelation d className field)
    (hno : Diagnostic.hasErrors (ofDocument input).2 = false) :
    ∃ e, (ofDocument input).1 = some e ∧ e.className = className ∧ e.table?.isSome ∧
      ∃ f ∈ e.fields, f.name = field ∧ f.relationOption ≠ none := by
  obtain ⟨kindEntry', hkind, htext⟩ := className?_eq_some h.isClass
  have hvalid : kindEntry'.value.text?.filter Naming.isClassName = some className := by
    -- Another name would be an error.
    by_contra hinvalid
    have hnone : kindEntry'.value.text?.filter Naming.isClassName = none := by
      rw [htext, Option.filter_some] at hinvalid ⊢
      split at hinvalid
      · exact absurd rfl hinvalid
      · rename_i hnot
        rw [if_neg hnot]
    simp [ofDocument, hd, ofParsed, hkind, hnone, issueAt, Diagnostic.hasErrors] at hno
  obtain ⟨htable, hfields⟩ := fieldIssues_of_ofDocument hd hkind hvalid hno
  obtain ⟨c, hbody, hctable, hcfields⟩ := ofKind_class d kindEntry' className
  have hsome : c.table.isSome := by
    obtain ⟨tableEntry, htableEntry⟩ := Option.isSome_iff_exists.mp h.hasTable
    rw [hctable]
    simp only [tableProperty, htableEntry] at htable ⊢
    split at htable
    · rfl
    · cases htable
  have howner : ownerOf (tableProperty d.root).1 = .tableClass := by
    rw [← hctable, ownerOf, if_pos hsome]
  obtain ⟨entry, hmem, hkey, text, hvalueText, hclause⟩ := h.clause
  obtain ⟨e, m, hfind, hvalue, hentry⟩ := mem_fieldEntries hmem
  rw [howner] at hfields
  obtain ⟨f, hf, hofEntry, hissues⟩ := exists_of_mem_entries hfind hvalue hfields hentry
  refine ⟨(ofKind d kindEntry' .class className).1, ?_, rfl, ?_, f, ?_, ?_, ?_⟩
  · simp [ofDocument, hd, ofParsed, hkind, hvalid]
  · simpa [table?, class?, hbody] using hsome
  · have hfields' : (ofKind d kindEntry' .class className).1.fields = c.fields := by
      simp [fields, hbody]
    rw [hfields', hcfields, hctable, howner]
    exact List.mem_append_right _ hf
  · rw [(FieldDraft.declared_of_ofEntry hofEntry).1, hkey]
  · exact FieldDraft.relationOption_of_ofEntry hvalueText hclause hissues hofEntry

end Entity

end EntitySchema
