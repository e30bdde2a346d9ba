import Mathlib.Data.List.Basic
import Mathlib.Tactic.Common
import EntitySchema.Proofs.Reading
import EntitySchema.Proofs.Shadowing
import EntitySchema.Proofs.Yaml.Keys

/-!
# Names that fields share

Keys of one map differ as values, and a field is named by the text of its key.  Two values can have one
text only if one of them is a literal, and of the literals only `null`, `true` and `false` are names of
fields.  So in a document without errors these are the only names that two fields can share
(`namesApart_ofDocument`).
-/

namespace EntitySchema

/-! ### Texts of values -/

namespace Number

/-- The characters of a decimal numeral are digits. -/
lemma isSmall_of_mem_decimal {n : Nat} {c : Char} (h : c ∈ decimal n) : Naming.isSmall c = false := by
  have hdigit := Nat.isDigit_of_mem_toDigits (by decide) (by decide) h
  simp only [Char.isDigit, Bool.and_eq_true, decide_eq_true_eq] at hdigit
  simp only [Naming.isSmall, Bool.and_eq_false_iff, decide_eq_false_iff_not]
  left
  intro hletter
  have hle : 'a'.val ≤ '9'.val := UInt32.le_trans hletter hdigit.2
  exact absurd hle (by decide)

/-- The layout of digits starts with no small letter. -/
lemma isSmall_of_head_layOut {style : Style} {d : Digits} (hd : ∀ c ∈ d.digits, Naming.isSmall c = false)
    {c : Char} {cs : List Char} (h : d.layOut style = c :: cs) : Naming.isSmall c = false := by
  have hzero : Naming.isSmall '0' = false := by decide
  have hpoint : Naming.isSmall '.' = false := by decide
  -- Whatever stands first is a digit, a zero or the point.
  have hhead : ∀ {ds more : List Char}, ds ++ more = c :: cs → (∀ a ∈ ds, Naming.isSmall a = false) →
      (∀ a as, more = a :: as → Naming.isSmall a = false) → Naming.isSmall c = false := by
    intro ds more heq hds hmore
    cases ds with
    | nil => exact hmore c cs heq
    | cons a ds =>
      rw [List.cons_append, List.cons_eq_cons] at heq
      rw [← heq.1]
      exact hds a List.mem_cons_self
  unfold Digits.layOut at h
  dsimp only at h
  split at h
  · refine hhead h hd fun a as ha => ?_
    have hmem : a ∈ List.replicate (d.exponent - d.digits.length).toNat '0' := by
      rw [ha]
      exact List.mem_cons_self
    rw [List.eq_of_mem_replicate hmem]
    exact hzero
  split at h
  · refine hhead h (fun a ha => hd a (List.mem_of_mem_take ha)) fun a as ha => ?_
    rw [← (List.cons_eq_cons.mp ha).1]
    exact hpoint
  split at h
  · rw [← (List.cons_eq_cons.mp h).1]
    exact hzero
  · split at h
    · cases h
    · rename_i a ha
      rw [← (List.cons_eq_cons.mp h).1]
      exact hd a (by simp [ha])
    · rename_i a rest _ ha
      rw [← (List.cons_eq_cons.mp h).1]
      exact hd a (by simp [ha])

/-- The text of a number is not the name of a field. -/
theorem isFieldName_text (x : Number) : Naming.isFieldName x.text = false := by
  have hminus : Naming.isSmall '-' = false := by decide
  cases x with
  | nan => decide
  | infinite negative => cases negative <;> decide
  | finite negative m e =>
    have hdigits : ∀ c ∈ (shortest m e).digits, Naming.isSmall c = false := by
      intro c hc
      have hmem := (List.dropWhile_sublist _).subset (List.mem_reverse.mp hc)
      exact isSmall_of_mem_decimal (List.mem_reverse.mp hmem)
    rw [text]
    split
    · decide
    · cases negative with
      | true => simp [Naming.isFieldName, Naming.consistsOf, hminus]
      | false =>
        simp only [Bool.false_eq_true, if_false, Naming.isFieldName, Naming.consistsOf, String.toList_ofList]
        split
        · rename_i c cs hcs
          simp [isSmall_of_head_layOut hdigits hcs]
        · rfl

end Number

/-- The names of fields that are the texts of literals. -/
def literalNames : List String := ["null", "true", "false"]

/-- Different values with one text that names a field are a literal and its text. -/
lemma mem_literalNames_of_toText {v w : Scalar} (hsame : v.sameKey w = false) (htext : v.toText = w.toText)
    (hname : Naming.isFieldName v.toText = true) : v.toText ∈ literalNames := by
  have hnumber : ∀ x : Number, v.toText ≠ x.text := by
    intro x hx
    rw [hx, Number.isFieldName_text] at hname
    cases hname
  have hbool : ∀ b : Bool, (Yaml.Scalar.bool b).toText ∈ literalNames := by decide
  cases v with
  | null => exact List.mem_cons_self
  | bool b => exact hbool b
  | number x => exact absurd rfl (hnumber x)
  | text s =>
    cases w with
    | null =>
      rw [htext]
      exact List.mem_cons_self
    | bool b =>
      rw [htext]
      exact hbool b
    | number x => exact absurd htext (hnumber x)
    | text t =>
      have hst : s = t := htext
      simp [Yaml.Scalar.sameKey, hst] at hsame

/-! ### Mappings -/

/-- Two entries of a mapping share a name of fields only if it is the text of a literal. -/
def DocMapping.NamesApart (m : Mapping) : Prop :=
  m.entries.Pairwise fun a b => a.key = b.key → Naming.isFieldName a.key = true → a.key ∈ literalNames

/-- A node is no mapping, or a mapping whose entries share only literals. -/
def DocNode.NamesApart (n : DocNode) : Prop :=
  ∀ m, n = .mapping m → m.NamesApart

/-- The entries of a mapping come from entries with scalar keys. -/
lemma exists_of_mem_docEntries {c : TextContext} {entries : List (Yaml.Node × Option Yaml.Node)}
    {a : MappingEntry} (h : a ∈ (docEntries c entries).1) :
    ∃ v q e value, (Yaml.Node.scalar v q e, value) ∈ entries ∧ a.key = v.toText ∧
      ∀ m, a.value = .mapping m → ∃ n, value = some n ∧ (docNode c n).1 = .mapping m := by
  induction entries with
  | nil => cases h
  | cons entry entries ih =>
    obtain ⟨key, value⟩ := entry
    rw [docEntries] at h
    cases key with
    | scalar v q e =>
      rcases List.mem_cons.mp h with rfl | h
      · refine ⟨v, q, e, value, List.mem_cons_self, rfl, fun m hm => ?_⟩
        cases value with
        | none => cases hm
        | some n => exact ⟨n, rfl, hm⟩
      · obtain ⟨w, q', e', value', hmem, ha⟩ := ih h
        exact ⟨w, q', e', value', List.mem_cons_of_mem _ hmem, ha⟩
    | «alias» | map | sequence =>
      obtain ⟨w, q', e', value', hmem, ha⟩ := ih h
      exact ⟨w, q', e', value', List.mem_cons_of_mem _ hmem, ha⟩

/-- Entries with distinct keys share only literals. -/
lemma namesApart_docEntries {c : TextContext} {entries : List (Yaml.Node × Option Yaml.Node)}
    (h : entries.Pairwise fun a b => a.1.sameKey b.1 = false) :
    (docEntries c entries).1.Pairwise fun a b =>
      a.key = b.key → Naming.isFieldName a.key = true → a.key ∈ literalNames := by
  induction entries with
  | nil => exact List.Pairwise.nil
  | cons entry entries ih =>
    obtain ⟨key, value⟩ := entry
    obtain ⟨hkey, hentries⟩ := List.pairwise_cons.mp h
    cases key with
    | scalar v q e =>
      rw [docEntries]
      refine List.pairwise_cons.mpr ⟨fun b hb heq hname => ?_, ih hentries⟩
      obtain ⟨w, q', e', value', hmem, hw, -⟩ := exists_of_mem_docEntries hb
      exact mem_literalNames_of_toText (hkey _ hmem) (heq.trans hw) hname
    | «alias» | map | sequence =>
      rw [docEntries]
      exact ih hentries

/-- A node with distinct keys. -/
lemma namesApart_docNode {c : TextContext} {n : Yaml.Node} (h : n.DistinctKeys) :
    (docNode c n).1.NamesApart := by
  intro m hm
  cases h with
  | scalar | «alias» | sequence =>
    rw [docNode] at hm
    cases hm
  | map apart values =>
    rw [docNode] at hm
    cases hm
    exact namesApart_docEntries apart

/-- The text of a document without errors has no errors. -/
lemma errors_read {input : DocumentInput}
    (hno : Diagnostic.hasErrors ((readDocument input).2.map (Issue.toDiagnostic input.sourceFileName)) = false) :
    (Yaml.read input.yaml.toList).errors = [] := by
  refine List.eq_nil_iff_forall_not_mem.mpr fun p hp => ?_
  have hwarning : p.isWarning = false := by simpa using (List.mem_filter.mp hp).2
  have hmem : yamlIssue (TextContext.of input.yaml.toList) p ∈ (readDocument input).2 := by
    unfold readDocument
    dsimp only
    split <;> exact List.mem_append_left _ (List.mem_map_of_mem (List.mem_append_right _ hp))
  rw [Diagnostic.hasErrors_eq_false_iff] at hno
  have hlevel := hno _ (List.mem_map_of_mem hmem)
  simp [yamlIssue, hwarning] at hlevel

/-- The mappings among the values of a document without errors share only literals. -/
lemma namesApart_readDocument {input : DocumentInput} {d : ParsedDocument}
    (hd : (readDocument input).1 = some d)
    (hno : Diagnostic.hasErrors ((readDocument input).2.map (Issue.toDiagnostic input.sourceFileName)) = false) :
    ∀ a ∈ d.root.entries, a.value.NamesApart := by
  have herrors := errors_read hno
  unfold readDocument at hd
  dsimp only at hd
  split at hd
  · rename_i entries e hcontent
    cases hd
    have hkeys := Yaml.distinctKeys_read herrors hcontent
    intro a ha m hm
    obtain ⟨v, q, e', value, hmem, -, hvalue⟩ := exists_of_mem_docEntries ha
    obtain ⟨n, rfl, hn⟩ := hvalue m hm
    cases hkeys with
    | map apart values => exact namesApart_docNode (values _ hmem n rfl) m hn
  · cases hd

/-! ### Fields -/

/-- Two fields of an entity share a name only if it is the text of a literal. -/
def Entity.NamesApart (e : Entity) : Prop :=
  FieldDraft.Shadowed (·.name ∈ literalNames) e.fields

/-- A field has a valid name. -/
lemma FieldDraft.isFieldName_of_ofEntry {lineStarts : List Nat} {owner : FieldOwner} {entry : MappingEntry}
    {f : FieldDraft} (h : (FieldDraft.ofEntry lineStarts owner entry).1 = some f) :
    Naming.isFieldName f.name = true := by
  rw [(FieldDraft.declared_of_ofEntry h).1]
  unfold FieldDraft.ofEntry at h
  dsimp only at h
  split at h
  · cases h
  · rename_i hname
    simpa using hname

/-- Fields share a name if their entries do. -/
lemma namesApart_ofEntries {lineStarts : List Nat} {owner : FieldOwner} {es : List MappingEntry}
    (h : es.Pairwise fun a b => a.key = b.key → Naming.isFieldName a.key = true → a.key ∈ literalNames) :
    FieldDraft.Shadowed (·.name ∈ literalNames) (FieldDraft.ofEntries lineStarts owner es).1 := by
  induction es with
  | nil => exact List.Pairwise.nil
  | cons e es ih =>
    obtain ⟨hkey, hes⟩ := List.pairwise_cons.mp h
    rw [FieldDraft.ofEntries]
    dsimp only
    cases hf : (FieldDraft.ofEntry lineStarts owner e).1 with
    | none => simpa using ih hes
    | some f =>
      refine List.pairwise_cons.mpr ⟨fun g hg heq => ?_, ih hes⟩
      obtain ⟨e', he', hg⟩ := FieldDraft.mem_ofEntries.mp hg
      have hname := FieldDraft.isFieldName_of_ofEntry hf
      rw [← heq]
      rw [(FieldDraft.declared_of_ofEntry hf).1] at heq hname ⊢
      rw [(FieldDraft.declared_of_ofEntry hg).1] at heq
      exact hkey e' he' heq hname

namespace Entity

/-- The fields of the `fields` property share only literals. -/
lemma namesApart_fieldDrafts {d : ParsedDocument} {owner : FieldOwner}
    (h : ∀ a ∈ d.root.entries, a.value.NamesApart) :
    FieldDraft.Shadowed (·.name ∈ literalNames) (fieldDrafts d owner).1 := by
  unfold fieldDrafts
  split
  · exact List.Pairwise.nil
  rename_i e he
  split
  · rename_i m hm
    exact namesApart_ofEntries (h e (List.mem_of_find?_eq_some he) m hm)
  · exact List.Pairwise.nil

/-- A declared field has an entry. -/
lemma declaresField_of_mem {d : ParsedDocument} {owner : FieldOwner} {f : FieldDraft}
    (h : f ∈ (fieldDrafts d owner).1) : declaresField d.root f.name = true := by
  obtain ⟨e, m, he, hm, entry, hentry, hf⟩ := exists_of_mem_fieldDrafts h
  unfold declaresField
  rw [he]
  dsimp only
  rw [hm]
  dsimp only
  rw [DocMapping.find?, List.find?_isSome]
  exact ⟨entry, hentry, by simp [(FieldDraft.declared_of_ofEntry hf).1]⟩

/-- A declared field has a valid name. -/
lemma isFieldName_of_mem_fieldDrafts {d : ParsedDocument} {owner : FieldOwner} {f : FieldDraft}
    (h : f ∈ (fieldDrafts d owner).1) : Naming.isFieldName f.name = true := by
  obtain ⟨-, -, -, -, entry, -, hentry⟩ := exists_of_mem_fieldDrafts h
  exact FieldDraft.isFieldName_of_ofEntry hentry

/-- All fields of an entity that is read have valid names, the added primary key too. -/
theorem isFieldName_ofDocument {input : DocumentInput} {e : Entity} (h : (ofDocument input).1 = some e) :
    ∀ f ∈ e.fields, Naming.isFieldName f.name = true := by
  obtain ⟨d, -, hparsed⟩ := ofDocument_eq_some h
  obtain ⟨entry, kind, className, -, -, -, rfl⟩ := ofParsed_eq_some hparsed
  intro f hf
  cases kind with
  | «class» =>
    obtain ⟨c, hbody, -, hfields⟩ := ofKind_class d entry className
    have hfields' : (ofKind d entry .class className).1.fields = c.fields := by
      simp [fields, hbody]
    rw [hfields', hfields] at hf
    rcases List.mem_append.mp hf with hf | hf
    · split at hf
      · obtain rfl := List.mem_singleton.mp hf
        have hid : Naming.isFieldName "id" = true := by decide
        exact hid
      · cases hf
    · exact isFieldName_of_mem_fieldDrafts hf
  | exception => exact isFieldName_of_mem_fieldDrafts hf
  | enum => cases hf

/-- Fields of an entity that is read without errors share only literals as names. -/
theorem namesApart_ofDocument {input : DocumentInput} {e : Entity} (h : (ofDocument input).1 = some e)
    (hno : Diagnostic.hasErrors (ofDocument input).2 = false) : e.NamesApart := by
  obtain ⟨d, hd, hparsed⟩ := ofDocument_eq_some h
  have hread : Diagnostic.hasErrors
      ((readDocument input).2.map (Issue.toDiagnostic input.sourceFileName)) = false := by
    unfold ofDocument at hno
    dsimp only at hno
    rw [List.map_append, Diagnostic.hasErrors_append, Bool.or_eq_false_iff] at hno
    exact hno.1
  have hnames := namesApart_readDocument hd hread
  obtain ⟨entry, kind, className, -, -, -, rfl⟩ := ofParsed_eq_some hparsed
  cases kind with
  | «class» =>
    obtain ⟨c, hbody, -, hfields⟩ := ofKind_class d entry className
    have hfields' : (ofKind d entry .class className).1.fields = c.fields := by
      simp [fields, hbody]
    rw [NamesApart, hfields', hfields]
    refine List.pairwise_append.mpr ⟨?_, namesApart_fieldDrafts hnames, fun f hf g hg heq => ?_⟩
    · split
      · exact List.pairwise_singleton _ _
      · exact List.Pairwise.nil
    · -- The primary key is added only if no entry has its name.
      split at hf
      · rename_i hid
        obtain rfl := List.mem_singleton.mp hf
        have hdeclares := declaresField_of_mem hg
        rw [← heq, show (serialId entry.keySpan).name = "id" from rfl] at hdeclares
        simp [hdeclares] at hid
      · cases hf
  | exception => exact namesApart_fieldDrafts hnames
  | enum => exact List.Pairwise.nil

end Entity

end EntitySchema
