import Mathlib.Data.List.Basic
import Mathlib.Tactic.Common
import EntitySchema.Entity.Definition
import EntitySchema.Proofs.Reading

/-!
# The defaults of fields that have been read

A default is read only if the type of its field can have it (`Admits`), and a default for rows only if the field
is stored, which needs a table (`defaulted_ofDocument`).  Where one option declares both defaults of a stored field,
they are the same.
-/

namespace EntitySchema

namespace DefaultValue

/-- The texts that are defaults of a type, as far as this is known when the field is read: the names in a type
have not been looked up by then. -/
def Admits (type : TypeDef) (value : String) : Prop :=
  match type.category with
  | .unresolved => True
  | .entity => type.entityKind = some .enum
  | .vector | .container => False
  | .scalar => ∃ expected, expectation? type.name = some expected ∧ expected.isMet value = true

/-- A default that is not refused is one of the type. -/
lemma admits_of_check {type : TypeDef} {value : String} (key : String)
    (h : ∀ message, check type value key ≠ .invalid message) : Admits type value := by
  unfold check at h
  unfold Admits
  cases hcategory : type.category with
  | unresolved => trivial
  | entity =>
    simp only [hcategory] at h ⊢
    by_contra hkind
    rw [beq_false_of_ne hkind] at h
    exact h _ rfl
  | vector | container =>
    simp only [hcategory] at h
    exact h _ rfl
  | scalar =>
    simp only [hcategory] at h ⊢
    cases hexpected : expectation? type.name with
    | none =>
      rw [hexpected] at h
      exact absurd rfl (h _)
    | some expected =>
      simp only [hexpected] at h
      refine ⟨expected, rfl, ?_⟩
      by_contra hmet
      rw [if_neg hmet] at h
      exact h _ rfl

end DefaultValue

namespace DraftDefaults

/-- The default of an origin. -/
def ofOrigin? (d : DraftDefaults) : DefaultOrigin → Option (Spanned String)
  | .model => d.model
  | .persist => d.persist

lemma mem_toList {d : DraftDefaults} {origin : DefaultOrigin} {value : String} :
    ⟨origin, value⟩ ∈ d.toList ↔ ∃ s, d.ofOrigin? origin = some s ∧ s.value = value := by
  cases origin <;> simp [toList, ofOrigin?]

end DraftDefaults

namespace FieldDraft

open DefaultValue

/-- The default of the primary key that is added to a class. -/
def IsSerial (f : FieldDraft) (d : Spanned String) : Prop :=
  f.type = TypeDef.scalar "int" true ∧ d.value = "serial"

/-- What is known of the defaults of a field that has been read. -/
structure Defaulted (f : FieldDraft) : Prop where
  visible : f.hidden = false
  shared : f.defaults.isShared = true → f.defaults.persist = f.defaults.model
  stored : f.defaults.persist ≠ none → f.shouldPersist = true
  admitted : ∀ d, f.defaults.persist = some d → Admits f.type d.value ∨ f.IsSerial d

/-- A default that has been checked is one of the type. -/
lemma admits_of_checkedDefault {s : Site} {type : TypeDef} {key : DefaultKey} {declared : DeclaredDefault}
    {d : Spanned String} (h : (checkedDefault s type key declared).1 = some d) : Admits type d.value := by
  unfold checkedDefault at h
  cases hcheck : DefaultValue.check type declared.value key.word with
  | invalid message =>
    rw [hcheck] at h
    cases h
  | valid | deferred =>
    rw [hcheck] at h
    cases h
    refine admits_of_check key.word fun message hmessage => ?_
    rw [hcheck] at hmessage
    cases hmessage

/-- So is a default for rows, and the field is stored. -/
lemma admits_of_checkedPersistDefault {s : Site} {type : TypeDef} {shouldPersist : Bool}
    {declared : DeclaredDefault} {d : Spanned String}
    (h : (checkedPersistDefault s type shouldPersist declared).1 = some d) :
    shouldPersist = true ∧ Admits type d.value := by
  unfold checkedPersistDefault at h
  split at h
  · cases h
  · rename_i hrefusal
    refine ⟨?_, admits_of_checkedDefault h⟩
    by_contra hstored
    rw [persistRefusal?, (Bool.not_eq_true _).mp hstored] at hrefusal
    split at hrefusal <;> simp at hrefusal

/-- What the options declare as defaults of a field. -/
lemma defaultsOf_cases (s : Site) (type : TypeDef) (shouldPersist : Bool) (o : Options) :
    (∃ model persist, (defaultsOf s type shouldPersist o).1 = ⟨model, persist, false⟩ ∧
      ∀ d, persist = some d → ∃ declared, (checkedPersistDefault s type shouldPersist declared).1 = some d) ∨
    ∃ value, (defaultsOf s type shouldPersist o).1 = ⟨value, if shouldPersist then value else none, shouldPersist⟩ ∧
      ∀ d, value = some d → ∃ key declared, (checkedDefault s type key declared).1 = some d := by
  have hdeclared : ∀ (declared : Option DeclaredDefault) (d : Spanned String),
      (onDeclared declared (checkedPersistDefault s type shouldPersist)).1 = some d →
        ∃ declared, (checkedPersistDefault s type shouldPersist declared).1 = some d := by
    intro declared d h
    cases declared with
    | none => cases h
    | some declared => exact ⟨declared, h⟩
  unfold defaultsOf
  cases o.bothDefault with
  | none => exact .inl ⟨_, _, rfl, hdeclared _⟩
  | some both =>
    dsimp only
    split
    · exact .inr ⟨_, rfl, fun d hd => ⟨_, _, hd⟩⟩
    · exact .inl ⟨_, _, rfl, hdeclared _⟩

lemma defaulted_of_ofExpr {s : Site} {entry : MappingEntry} {parsed : FieldExpr} {f : FieldDraft}
    (h : (ofExpr s entry parsed).1 = some f) : f.Defaulted := by
  unfold ofExpr at h
  split at h
  · cases h
  rename_i type issues _
  dsimp only at h
  generalize hstored : (s.owner == .tableClass &&
    (((addOptions s {} parsed.options).1.persist.map (·.value)).getD true)) = shouldPersist at h
  rcases defaultsOf_cases s type shouldPersist (addOptions s {} parsed.options).1 with
    ⟨model, persist, hdefaults, hpersist⟩ | ⟨value, hdefaults, hvalue⟩
  · rw [hdefaults] at h
    cases h
    refine ⟨rfl, (fun hshared => by cases hshared), fun hsome => ?_, fun d hd => ?_⟩
    · obtain ⟨d, hd⟩ := Option.ne_none_iff_exists'.mp hsome
      obtain ⟨declared, hchecked⟩ := hpersist d hd
      exact (admits_of_checkedPersistDefault hchecked).1
    · obtain ⟨declared, hchecked⟩ := hpersist d hd
      exact .inl (admits_of_checkedPersistDefault hchecked).2
  · rw [hdefaults] at h
    cases h
    refine ⟨rfl, fun hshared => if_pos hshared, fun hsome => ?_, fun d hd => ?_⟩
    · by_contra hnot
      exact hsome (if_neg hnot)
    · dsimp only at hd
      split at hd
      · obtain ⟨key, declared, hchecked⟩ := hvalue d hd
        exact .inl (admits_of_checkedDefault hchecked)
      · cases hd

/-- A field that has been read has defaults of its type. -/
lemma defaulted_of_ofEntry {lineStarts : List Nat} {owner : FieldOwner} {entry : MappingEntry} {f : FieldDraft}
    (h : (ofEntry lineStarts owner entry).1 = some f) : f.Defaulted := by
  unfold ofEntry at h
  dsimp only at h
  split at h
  · cases h
  split at h
  · exact defaulted_of_ofExpr h
  · cases h

/-- Only the fields of a class with a table are stored. -/
lemma owner_of_ofEntry {lineStarts : List Nat} {owner : FieldOwner} {entry : MappingEntry} {f : FieldDraft}
    (h : (ofEntry lineStarts owner entry).1 = some f) (hstored : f.shouldPersist = true) : owner = .tableClass := by
  unfold ofEntry at h
  dsimp only at h
  split at h
  · cases h
  split at h
  · unfold ofExpr at h
    split at h
    · cases h
    cases h
    simp only [Bool.and_eq_true, beq_iff_eq] at hstored
    exact hstored.1
  · cases h

end FieldDraft

namespace Entity

/-- What is known of the defaults of the fields of an entity that has been read. -/
structure Defaulted (e : Entity) : Prop where
  fields : ∀ f ∈ e.fields, f.Defaulted
  table : ∀ f ∈ e.fields, f.shouldPersist = true → e.table?.isSome

lemma defaulted_serialId (span : Span) : (serialId span).Defaulted where
  visible := rfl
  shared hshared := by cases hshared
  stored _ := rfl
  admitted d hd := by
    cases hd
    exact .inr ⟨rfl, rfl⟩

/-- The fields of an entity that is read have been read, but for the primary key that is added to a table. -/
lemma mem_fields_ofKind {d : ParsedDocument} {entry : MappingEntry} {kind : EntityKind} {className : String}
    {f : FieldDraft} (h : f ∈ (ofKind d entry kind className).1.fields) :
    ((ofKind d entry kind className).1.table?.isSome ∧ f = serialId entry.keySpan) ∨
      ∃ owner, (owner = .tableClass → (ofKind d entry kind className).1.table?.isSome) ∧
        ∃ fieldEntry, (FieldDraft.ofEntry d.lineStarts owner fieldEntry).1 = some f := by
  have hread : ∀ owner, f ∈ (fieldDrafts d owner).1 →
      ∃ fieldEntry, (FieldDraft.ofEntry d.lineStarts owner fieldEntry).1 = some f := by
    intro owner hf
    obtain ⟨-, -, -, -, fieldEntry, -, hentry⟩ := exists_of_mem_fieldDrafts hf
    exact ⟨fieldEntry, hentry⟩
  cases kind with
  | «class» =>
    obtain ⟨c, hbody, -, hfields⟩ := ofKind_class d entry className
    have htable : (ofKind d entry .class className).1.table? = c.table.map (·.value) := by
      simp [table?, class?, hbody]
    have hf : f ∈ c.fields := by simpa [fields, hbody] using h
    rw [htable, Option.isSome_map]
    rw [hfields] at hf
    rcases List.mem_append.mp hf with hf | hf
    · split at hf
      · rename_i hid
        exact .inl ⟨(Bool.and_eq_true _ _ |>.mp hid).1, List.mem_singleton.mp hf⟩
      · cases hf
    · refine .inr ⟨ownerOf c.table, fun howner => ?_, hread _ hf⟩
      by_contra hnone
      rw [ownerOf, if_neg hnone] at howner
      cases howner
  | exception => exact .inr ⟨.exception, (fun howner => by cases howner), hread .exception h⟩
  | enum => cases h

/-- The fields of an entity that is read from a document have defaults of their types. -/
theorem defaulted_ofDocument {input : DocumentInput} {e : Entity} (h : (ofDocument input).1 = some e) :
    e.Defaulted := by
  obtain ⟨d, -, hd⟩ := ofDocument_eq_some h
  obtain ⟨entry, kind, className, -, -, -, rfl⟩ := ofParsed_eq_some hd
  constructor
  · intro f hf
    rcases mem_fields_ofKind hf with ⟨-, rfl⟩ | ⟨owner, -, fieldEntry, hread⟩
    · exact defaulted_serialId _
    · exact FieldDraft.defaulted_of_ofEntry hread
  · intro f hf hstored
    rcases mem_fields_ofKind hf with ⟨htable, -⟩ | ⟨owner, howner, fieldEntry, hread⟩
    · exact htable
    · exact howner (FieldDraft.owner_of_ofEntry hread hstored)

end Entity

end EntitySchema
