import Mathlib.Data.List.Forall2
import Mathlib.Tactic.Common
import EntitySchema.Entity.Definition
import EntitySchema.Proofs.Document
import EntitySchema.Proofs.Modules
import EntitySchema.Proofs.Relations.Origins
import EntitySchema.Proofs.Uniqueness

/-!
# What an entity takes from its document

A document that is read without errors declares an entity (`declares_ofDocument`).  It has the name that stands
under its kind, one field for every key under `fields`, one index for every key under `indexes` and one value
for every item under `values`, all in the order of the text; the only other field is the added primary key.
Whatever is left out is reported, so each reader is followed by what it keeps when it reports nothing.
-/

namespace EntitySchema

open Yaml (under)

/-! ### Properties of a text -/

/-- Names are the keys of the map under a key of a text; without the key there are none. -/
inductive ListsKeys (key : String) (entries : List (Yaml.Node × Option Yaml.Node)) : List String → Prop
  | absent (h : under key entries = []) : ListsKeys key entries []
  | present {k : Yaml.Node} {inner : List (Yaml.Node × Option Yaml.Node)} {extent : Yaml.Extent}
      {names : List String} (h : under key entries = [(k, some (.map inner extent))])
      (hnames : inner.map (·.1.keyText?) = names.map some) : ListsKeys key entries names

/-- Names are the items of the sequence under a key of a text; without the key there are none. -/
inductive ListsItems (key : String) (entries : List (Yaml.Node × Option Yaml.Node)) : List String → Prop
  | absent (h : under key entries = []) : ListsItems key entries []
  | present {k : Yaml.Node} {items : List Yaml.Node} {extent : Yaml.Extent} {names : List String}
      (h : under key entries = [(k, some (.sequence items extent))])
      (hnames : items.map Yaml.Node.text? = names.map some) : ListsItems key entries names

/-! ### Properties of a document -/

/-- Names are the keys of the mapping under a key of a document. -/
inductive DocMapping.ListsKeys (root : Mapping) (key : String) : List String → Prop
  | absent (h : root.find? key = none) : ListsKeys root key []
  | present {e : MappingEntry} {m : Mapping} (h : root.find? key = some e) (hvalue : e.value = .mapping m) :
      ListsKeys root key (m.entries.map (·.key))

/-- Names are the items of the sequence under a key of a document. -/
inductive DocMapping.ListsItems (root : Mapping) (key : String) : List String → Prop
  | absent (h : root.find? key = none) : ListsItems root key []
  | present {e : MappingEntry} {items : List SequenceItem} {r : Range} {s : Span} {names : List String}
      (h : root.find? key = some e) (hvalue : e.value = .sequence items r s)
      (hnames : items.map (·.value.text?) = names.map some) : ListsItems root key names

section Mirrored

variable {c : TextContext} {entries : List (Yaml.Node × Option Yaml.Node)} {root : Mapping} {key : String}

/-- What the document finds under a key is all that stands under it in the text. -/
lemma exists_under (h : List.Forall₂ (Mirrors c) entries root.entries)
    (hapart : entries.Pairwise fun a b => a.1.sameKey b.1 = false) (hname : Naming.isFieldName key = true)
    (hliteral : key ∉ literalNames) {e : MappingEntry} (he : root.find? key = some e) :
    ∃ a, under key entries = [a] ∧ Mirrors c a e := by
  obtain ⟨a, rest, hunder, hmirrors⟩ := exists_mirrors_of_find? h he
  rcases Yaml.under_cases hname hliteral hapart with hnil | ⟨b, hb⟩
  · rw [hnil] at hunder
    cases hunder
  · rw [hunder, List.cons.injEq] at hb
    obtain ⟨-, rfl⟩ := hb
    exact ⟨a, hunder, hmirrors⟩

/-- Keys of a document are those of the text. -/
lemma DocMapping.ListsKeys.mirrored (h : List.Forall₂ (Mirrors c) entries root.entries)
    (hapart : entries.Pairwise fun a b => a.1.sameKey b.1 = false) (hname : Naming.isFieldName key = true)
    (hliteral : key ∉ literalNames) {names : List String} (hlists : root.ListsKeys key names) :
    EntitySchema.ListsKeys key entries names := by
  cases hlists with
  | absent hnone => exact .absent (under_eq_nil h hnone)
  | present he hvalue =>
    obtain ⟨⟨k, value⟩, hunder, hmirrors⟩ := exists_under h hapart hname hliteral he
    obtain ⟨inner, extent, rfl, hkeys⟩ := hmirrors.mapping hvalue
    exact .present hunder (by rw [hkeys, List.map_map]; rfl)

/-- Items of a document are those of the text. -/
lemma DocMapping.ListsItems.mirrored (h : List.Forall₂ (Mirrors c) entries root.entries)
    (hapart : entries.Pairwise fun a b => a.1.sameKey b.1 = false) (hname : Naming.isFieldName key = true)
    (hliteral : key ∉ literalNames) {names : List String} (hlists : root.ListsItems key names) :
    EntitySchema.ListsItems key entries names := by
  cases hlists with
  | absent hnone => exact .absent (under_eq_nil h hnone)
  | present he hvalue hnames =>
    obtain ⟨⟨k, value⟩, hunder, hmirrors⟩ := exists_under h hapart hname hliteral he
    obtain ⟨items, extent, rfl, htexts⟩ := hmirrors.sequence hvalue
    exact .present hunder (htexts.trans hnames)

end Mirrored

/-! ### Fields -/

/-- The primary key that is added to a class that declares none. -/
def FieldDef.IsSerialId (f : FieldDef) : Prop :=
  f.name = "id" ∧ f.type = TypeDef.scalar "int" true ∧ f.defaults = [⟨.persist, "serial"⟩]

namespace FieldDraft

/-- A field that is read has been declared. -/
lemma origin_of_ofEntry {lineStarts : List Nat} {owner : FieldOwner} {entry : MappingEntry} {f : FieldDraft}
    (h : (ofEntry lineStarts owner entry).1 = some f) : f.origin = .declared := by
  unfold ofEntry at h
  dsimp only at h
  split at h
  · cases h
  split at h
  · unfold ofExpr at h
    split at h
    · cases h
    · cases h
      rfl
  · cases h

/-- Where nothing is reported, the declared fields are those of all entries, and there are no others. -/
lemma names_ofEntries {lineStarts : List Nat} {owner : FieldOwner} {es : List MappingEntry}
    (h : (ofEntries lineStarts owner es).2 = []) :
    declaredNames (ofEntries lineStarts owner es).1 = es.map (·.key) := by
  induction es with
  | nil => rfl
  | cons e es ih =>
    rw [ofEntries, List.append_eq_nil_iff] at h
    obtain ⟨f, hf⟩ := Option.isSome_iff_exists.mp (isSome_of_ofEntry h.1)
    have hname := (declared_of_ofEntry hf).1
    have horigin := origin_of_ofEntry hf
    rw [ofEntries, List.map_cons, ← ih h.2, ← hname]
    dsimp only
    rw [hf, declaredNames_append]
    simp [declaredNames, horigin]

end FieldDraft

/-! ### Indexes -/

namespace IndexDraft

/-! Every issue about an index is an error. -/

lemma allErrors_textProperty (name key : String) (m : Mapping) :
    Issue.AllErrors (textProperty name key m).2 := by
  unfold textProperty
  split
  · simp
  · split <;> simp [issueAt]

lemma allErrors_uniqueProperty (name : String) (m : Mapping) : Issue.AllErrors (uniqueProperty name m).2 := by
  unfold uniqueProperty
  split
  · simp
  · split <;> simp [issueAt]

lemma allErrors_parameterEntries (name : String) (es : List MappingEntry) :
    Issue.AllErrors (parameterEntries name es).2 := by
  induction es with
  | nil => exact Issue.allErrors_nil
  | cons e es ih =>
    rw [parameterEntries]
    dsimp only
    split
    · exact ih
    · exact Issue.allErrors_cons.mpr ⟨rfl, ih⟩

lemma allErrors_parametersProperty (name : String) (m : Mapping) :
    Issue.AllErrors (parametersProperty name m).2 := by
  unfold parametersProperty
  split
  · simp
  split
  · exact allErrors_parameterEntries _ _
  · simp [issueAt]

lemma allErrors_ofMapping (lineStarts : List Nat) (name : String) (nameSpan : Span) (m : Mapping) :
    Issue.AllErrors (ofMapping lineStarts name nameSpan m).2 := by
  have hunknown : Issue.AllErrors (unknownProperties name m) := Issue.allErrors_map fun _ => rfl
  unfold ofMapping
  dsimp only
  split
  · simp [hunknown, issueAt]
  split
  · simp [hunknown, issueAt]
  split
  · exact Issue.allErrors_nil
  · simp [hunknown, allErrors_textProperty, allErrors_uniqueProperty, allErrors_parametersProperty]

lemma allErrors_ofEntry (lineStarts : List Nat) (entry : MappingEntry) :
    Issue.AllErrors (ofEntry lineStarts entry).2 := by
  unfold ofEntry
  split
  · simp [issueAt]
  split
  · exact allErrors_ofMapping _ _ _ _
  · simp [issueAt]

lemma allErrors_ofEntries (lineStarts : List Nat) (es : List MappingEntry) :
    Issue.AllErrors (ofEntries lineStarts es).2 := by
  induction es with
  | nil => exact Issue.allErrors_nil
  | cons e es ih =>
    rw [ofEntries, Issue.allErrors_append]
    exact ⟨allErrors_ofEntry _ _, ih⟩

/-- An entry that is read without an issue is an index with the name of the entry. -/
lemma exists_of_ofEntry {lineStarts : List Nat} {entry : MappingEntry} (h : (ofEntry lineStarts entry).2 = []) :
    ∃ d, (ofEntry lineStarts entry).1 = some d ∧ d.name = entry.key := by
  unfold ofEntry at h ⊢
  split at h
  · cases h
  rename_i hname
  rw [if_neg hname]
  split at h
  · unfold ofMapping at h ⊢
    dsimp only at h ⊢
    split at h
    · simp at h
    rename_i fieldsEntry hfields
    split at h
    · simp at h
    rename_i fields hfieldNames
    split at h
    · rename_i hempty
      rw [if_pos hempty]
      exact ⟨_, rfl, rfl⟩
    · rename_i hempty
      exact absurd (List.isEmpty_iff.mpr h) hempty
  · cases h

/-- Where nothing is reported, the indexes are those of all entries. -/
lemma names_ofEntries {lineStarts : List Nat} {es : List MappingEntry} (h : (ofEntries lineStarts es).2 = []) :
    (ofEntries lineStarts es).1.map (·.name) = es.map (·.key) := by
  induction es with
  | nil => rfl
  | cons e es ih =>
    rw [ofEntries, List.append_eq_nil_iff] at h
    obtain ⟨d, hd, hname⟩ := exists_of_ofEntry h.1
    rw [ofEntries, List.map_cons, ← ih h.2, ← hname]
    dsimp only
    rw [hd]
    rfl

end IndexDraft

/-! ### Entities -/

namespace Entity

/-- The names of the values of an enum. -/
def valueNames (e : Entity) : List String :=
  match e.body with
  | .enum values .. => values.map (·.name)
  | _ => []

/-- What an entity takes from the properties of its document. -/
structure TakesFrom (root : Mapping) (e : Entity) : Prop where
  fields : root.ListsKeys "fields" (FieldDraft.declaredNames e.fields)
  indexes : root.ListsKeys "indexes" e.indexNames
  values : root.ListsItems "values" e.valueNames
  added : ∀ f ∈ e.fields, f.origin = .synthesized → f.toDefinition.IsSerialId

/-- The declared fields are those of the entries of the `fields` property, if nothing is reported. -/
lemma listsKeys_fieldDrafts {d : ParsedDocument} {owner : FieldOwner} (h : (fieldDrafts d owner).2 = []) :
    d.root.ListsKeys "fields" (FieldDraft.declaredNames (fieldDrafts d owner).1) := by
  unfold fieldDrafts at h ⊢
  split at h
  · rename_i hnone
    exact .absent hnone
  rename_i e he
  split at h
  · rename_i m hvalue
    rw [FieldDraft.names_ofEntries h]
    exact .present he hvalue
  · cases h

/-- The fields that are read have been declared. -/
lemma origin_of_mem_fieldDrafts {d : ParsedDocument} {owner : FieldOwner} {f : FieldDraft}
    (h : f ∈ (fieldDrafts d owner).1) : f.origin = .declared := by
  obtain ⟨-, -, -, -, entry, -, hentry⟩ := exists_of_mem_fieldDrafts h
  exact FieldDraft.origin_of_ofEntry hentry

/-- The indexes are those of the entries of the `indexes` property, if nothing is reported. -/
lemma listsKeys_indexDrafts {d : ParsedDocument} {hasTable : Bool} (h : (indexDrafts d hasTable).2 = []) :
    d.root.ListsKeys "indexes" ((indexDrafts d hasTable).1.map (·.name)) := by
  unfold indexDrafts at h ⊢
  split at h
  · rename_i hnone
    exact .absent hnone
  rename_i e he
  split at h
  swap
  · cases h
  unfold IndexDraft.ofNode at h ⊢
  split at h
  · rename_i m hvalue
    rw [if_pos ‹_›, IndexDraft.names_ofEntries h]
    exact .present he hvalue
  · cases h

lemma allErrors_indexDrafts (d : ParsedDocument) (hasTable : Bool) :
    Issue.AllErrors (indexDrafts d hasTable).2 := by
  unfold indexDrafts
  split
  · simp
  split
  · unfold IndexDraft.ofNode
    split
    · exact IndexDraft.allErrors_ofEntries _ _
    · simp
  · simp

/-! Values of an enum. -/

lemma allErrors_enumValuesFrom (before : List EnumValue) (n : Nat) (items : List SequenceItem) :
    Issue.AllErrors (enumValuesFrom before n items).2 := by
  induction items generalizing before n with
  | nil => exact Issue.allErrors_nil
  | cons i items ih =>
    rw [enumValuesFrom]
    split
    · exact ih _ _
    · exact Issue.allErrors_cons.mpr ⟨rfl, ih _ _⟩

lemma allErrors_enumValues (root : Mapping) (kind : MappingEntry) : Issue.AllErrors (enumValues root kind).2 := by
  unfold enumValues
  dsimp only
  split
  · simp [issueAt]
  split
  · exact allErrors_enumValuesFrom _ _ _
  · simp [issueAt]

/-- An item that is a value has its name. -/
lemma text?_of_enumValue {before : List EnumValue} {i : SequenceItem} {v : EnumValue}
    (h : enumValue before i = .ok v) : i.value.text? = some v.name := by
  unfold enumValue at h
  split at h
  · cases h
  rename_i name hname
  split at h
  · cases h
  split at h
  · cases h
  · cases h
    exact hname

/-- Where nothing is reported, every item is a value. -/
lemma names_enumValuesFrom {before : List EnumValue} {n : Nat} {items : List SequenceItem}
    (h : (enumValuesFrom before n items).2 = []) :
    (enumValuesFrom before n items).1.map (some ·.name) =
      before.map (some ·.name) ++ items.map (·.value.text?) := by
  induction items generalizing before n with
  | nil => simp [enumValuesFrom]
  | cons i items ih =>
    rw [enumValuesFrom] at h ⊢
    split at h
    · rename_i v hv
      rw [ih h]
      simp [text?_of_enumValue hv]
    · cases h

/-- The values of an enum are the items of the `values` property, if nothing is reported. -/
lemma listsItems_enumValues {root : Mapping} {kind : MappingEntry} (h : (enumValues root kind).2 = []) :
    root.ListsItems "values" ((enumValues root kind).1.map (·.name)) := by
  unfold enumValues at h ⊢
  dsimp only at h ⊢
  split at h
  · cases h
  rename_i e he
  split at h
  · rename_i i is r s hvalue
    refine .present he hvalue ?_
    rw [List.map_map]
    exact (names_enumValuesFrom h).symm
  · cases h

/-! Properties of a kind. -/

lemma allErrors_propertyIssues (kind : EntityKind) (es : List MappingEntry) :
    Issue.AllErrors (es.filterMap (propertyIssue? kind)) := by
  intro i hi
  obtain ⟨e, -, he⟩ := List.mem_filterMap.mp hi
  unfold propertyIssue? at he
  dsimp only at he
  split at he
  · cases he
  split at he
  · cases he
    rfl
  · obtain ⟨candidate, -, rfl⟩ := Option.map_eq_some_iff.mp he
    rfl

/-- A property that only entities of other kinds have is reported. -/
lemma find?_eq_none_of_propertyIssues {root : Mapping} {kind : EntityKind} {key : String}
    (hkind : (propertyNames kind).contains key = false)
    (hother : (entityKinds.any fun k => (propertyNames k).contains key) = true)
    (h : root.entries.filterMap (propertyIssue? kind) = []) : root.find? key = none := by
  refine List.find?_eq_none.mpr fun e he hkey => ?_
  obtain rfl : e.key = key := by simpa using hkey
  have hnone := List.filterMap_eq_nil_iff.mp h e he
  simp only [propertyIssue?, hkind, hother, Bool.false_eq_true, if_false, if_true] at hnone
  cases hnone

/-! What the kinds of entities take from their documents. -/

section Kinds

variable {d : ParsedDocument} {entry : MappingEntry} {className source : String}

/-- A class takes its fields and its indexes. -/
lemma takesFrom_class (hproperties : d.root.entries.filterMap (propertyIssue? .class) = [])
    (hno : Diagnostic.hasErrors ((classBody d entry).2.map (Issue.toDiagnostic source)) = false) :
    (ofKind d entry .class className).1.TakesFrom d.root := by
  obtain ⟨c, hbody, htable, hfields⟩ := ofKind_class d entry className
  have hfields' : (ofKind d entry .class className).1.fields = c.fields := by
    simp [fields, hbody]
  simp only [classBody, List.map_append, Diagnostic.hasErrors_append, Bool.or_eq_false_iff] at hno
  obtain ⟨⟨-, hfieldIssues⟩, hindexIssues⟩ := hno
  have hfieldsNil : (fieldDrafts d (ownerOf c.table)).2 = [] := by
    rw [htable]
    exact Issue.eq_nil_of_hasErrors_eq_false (allErrors_fieldDrafts _ _) hfieldIssues
  have hindexesNil := Issue.eq_nil_of_hasErrors_eq_false (allErrors_indexDrafts _ _) hindexIssues
  refine ⟨?_, listsKeys_indexDrafts hindexesNil, ?_, ?_⟩
  · -- The added primary key has not been declared.
    rw [hfields', hfields, FieldDraft.declaredNames_append]
    have hserial : FieldDraft.declaredNames
        (if c.table.isSome && !declaresField d.root "id" then [serialId entry.keySpan] else []) = [] := by
      split <;> rfl
    rw [hserial, List.nil_append]
    exact listsKeys_fieldDrafts hfieldsNil
  · exact .absent (find?_eq_none_of_propertyIssues (by decide) (by decide) hproperties)
  · intro f hf hadded
    rw [hfields', hfields] at hf
    rcases List.mem_append.mp hf with hf | hf
    · split at hf
      · obtain rfl := List.mem_singleton.mp hf
        exact ⟨rfl, rfl, rfl⟩
      · cases hf
    · rw [origin_of_mem_fieldDrafts hf] at hadded
      cases hadded

/-- An exception takes its fields. -/
lemma takesFrom_exception (hproperties : d.root.entries.filterMap (propertyIssue? .exception) = [])
    (hno : Diagnostic.hasErrors ((exceptionBody d).2.map (Issue.toDiagnostic source)) = false) :
    (ofKind d entry .exception className).1.TakesFrom d.root := by
  have hfieldsNil := Issue.eq_nil_of_hasErrors_eq_false (allErrors_fieldDrafts d .exception) hno
  refine ⟨listsKeys_fieldDrafts hfieldsNil, ?_, ?_, ?_⟩
  · exact .absent (find?_eq_none_of_propertyIssues (by decide) (by decide) hproperties)
  · exact .absent (find?_eq_none_of_propertyIssues (by decide) (by decide) hproperties)
  · intro f hf hadded
    rw [origin_of_mem_fieldDrafts hf] at hadded
    cases hadded

/-- An enum takes its values. -/
lemma takesFrom_enum (hproperties : d.root.entries.filterMap (propertyIssue? .enum) = [])
    (hno : Diagnostic.hasErrors ((enumBody d entry).2.map (Issue.toDiagnostic source)) = false) :
    (ofKind d entry .enum className).1.TakesFrom d.root := by
  simp only [enumBody, List.map_append, Diagnostic.hasErrors_append, Bool.or_eq_false_iff] at hno
  have hvaluesNil := Issue.eq_nil_of_hasErrors_eq_false (allErrors_enumValues _ _) hno.1.2
  refine ⟨?_, ?_, listsItems_enumValues hvaluesNil, ?_⟩
  · exact .absent (find?_eq_none_of_propertyIssues (by decide) (by decide) hproperties)
  · exact .absent (find?_eq_none_of_propertyIssues (by decide) (by decide) hproperties)
  · intro f hf
    cases hf

/-- The entry of the kind is found under the name of the kind. -/
lemma find?_of_kindEntry {root : Mapping} {kind : EntityKind} (h : kindEntry root = .ok (entry, kind)) :
    root.find? kind.name = some entry := by
  unfold kindEntry at h
  dsimp only at h
  split at h
  · cases h
  · rename_i e he
    split at h
    swap
    · cases h
    rename_i kind' hkind
    cases h
    have hname : kind.name = entry.key := by simpa using List.find?_some hkind
    have hmem : entry ∈ root.entries := by
      refine (List.mem_filter (p := fun e => (kindOfKey? e.key).isSome)).mp ?_ |>.1
      rw [he]
      exact List.mem_singleton_self entry
    obtain ⟨e, hfind⟩ : ∃ e, root.find? kind.name = some e :=
      Option.isSome_iff_exists.mp (List.find?_isSome.mpr ⟨entry, hmem, by simp [hname]⟩)
    -- Another entry with this key would name a kind too.
    have hkey : e.key = kind.name := by simpa using List.find?_some hfind
    have hkinds : e ∈ root.entries.filter fun e => (kindOfKey? e.key).isSome := by
      refine List.mem_filter.mpr ⟨List.mem_of_find?_eq_some hfind, ?_⟩
      rw [hkey, hname, hkind]
      rfl
    rw [he] at hkinds
    obtain rfl := List.mem_singleton.mp hkinds
    exact hfind
  · cases h

end Kinds

/-! ### Documents without errors -/

/-- What an entity has of the text of its document. -/
structure Contents (entries : List (Yaml.Node × Option Yaml.Node)) (e : Entity) : Prop where
  name : ∃ k n, under e.kind.name entries = [(k, some n)] ∧ n.text? = some e.className
  fields : ListsKeys "fields" entries (FieldDraft.declaredNames e.fields)
  indexes : ListsKeys "indexes" entries e.indexNames
  values : ListsItems "values" entries e.valueNames
  added : ∀ f ∈ e.fields, f.origin = .synthesized → f.toDefinition.IsSerialId

/-- An entity declares what a document says. -/
def Declares (d : DocumentInput) (e : Entity) : Prop :=
  e.header.sourceFileName = d.sourceFileName ∧
    ∃ entries extent, (Yaml.read d.yaml.toList).content = some (.map entries extent) ∧ e.Contents entries

/-- Every issue about the kind is an error, and there is one. -/
lemma hasErrors_of_kindEntry {root : Mapping} {issues : List Issue} (h : kindEntry root = .error issues)
    (source : String) : Diagnostic.hasErrors (issues.map (Issue.toDiagnostic source)) = true := by
  unfold kindEntry at h
  dsimp only at h
  split at h
  · cases h
    rfl
  · split at h <;> cases h
    rfl
  · rename_i first further hfurther hkinds
    cases h
    cases further with
    | nil => exact (hfurther rfl).elim
    | cons e further => rfl

/-- A document without errors declares an entity of a kind under a name, and nothing is reported about its
properties. -/
lemma exists_ofKind {d : ParsedDocument} {source : String}
    (hno : Diagnostic.hasErrors ((ofParsed d).2.map (Issue.toDiagnostic source)) = false) :
    ∃ entry kind className, (ofParsed d).1 = some (ofKind d entry kind className).1 ∧
      kindEntry d.root = .ok (entry, kind) ∧ entry.value.text? = some className ∧
      d.root.entries.filterMap (propertyIssue? kind) = [] ∧
      Diagnostic.hasErrors ((bodyOf d entry kind).2.map (Issue.toDiagnostic source)) = false := by
  unfold ofParsed at hno ⊢
  split at hno
  · rename_i issues hkind
    rw [hasErrors_of_kindEntry hkind] at hno
    cases hno
  rename_i entry kind hkind
  dsimp only at hno ⊢
  split at hno
  · -- The name would have been reported.
    simp [issueAt, Diagnostic.hasErrors, Diagnostic.isError, Issue.toDiagnostic] at hno
  rename_i className hname
  simp only [ofKind, List.map_append, Diagnostic.hasErrors_append, Bool.or_eq_false_iff] at hno
  obtain ⟨hproperties, -, hbody⟩ := hno
  exact ⟨entry, kind, className, rfl, hkind, (Option.filter_eq_some_iff.mp hname).1,
    Issue.eq_nil_of_hasErrors_eq_false (allErrors_propertyIssues _ _) hproperties, hbody⟩

/-- An entity takes all it has from its document. -/
lemma takesFrom_ofKind {d : ParsedDocument} {entry : MappingEntry} {kind : EntityKind} {source : String}
    (className : String) (hproperties : d.root.entries.filterMap (propertyIssue? kind) = [])
    (hno : Diagnostic.hasErrors ((bodyOf d entry kind).2.map (Issue.toDiagnostic source)) = false) :
    (ofKind d entry kind className).1.TakesFrom d.root := by
  cases kind with
  | «class» => exact takesFrom_class hproperties hno
  | exception => exact takesFrom_exception hproperties hno
  | enum => exact takesFrom_enum hproperties hno

lemma kind_ofKind (d : ParsedDocument) (entry : MappingEntry) (kind : EntityKind) (className : String) :
    (ofKind d entry kind className).1.kind = kind := by
  cases kind <;> rfl

/-- A document without errors has an entity that declares what it says. -/
theorem declares_ofDocument {input : DocumentInput} (hno : Diagnostic.hasErrors (ofDocument input).2 = false) :
    ∃ e, (ofDocument input).1 = some e ∧ e.Declares input := by
  unfold ofDocument at hno ⊢
  dsimp only at hno ⊢
  rw [List.map_append, Diagnostic.hasErrors_append, Bool.or_eq_false_iff] at hno
  obtain ⟨d, entries, extent, c, hd, hcontent, hapart, hmirrors⟩ := exists_content hno.1
  rw [hd] at hno ⊢
  obtain ⟨entry, kind, className, hentity, hkind, htext, hproperties, hbody⟩ := exists_ofKind hno.2
  obtain ⟨hfields, hindexes, hvalues, hadded⟩ := takesFrom_ofKind className hproperties hbody
  refine ⟨_, hentity, ?_, entries, extent, hcontent, ?_⟩
  · exact congrArg DocumentInput.sourceFileName (readDocument_input hd)
  · have hname : ∀ k : EntityKind, Naming.isFieldName k.name = true ∧ k.name ∉ literalNames := by
      intro k
      cases k <;> decide
    obtain ⟨⟨key, value⟩, hunder, hentry⟩ :=
      exists_under hmirrors hapart (hname kind).1 (hname kind).2 (find?_of_kindEntry hkind)
    obtain ⟨n, rfl, hn⟩ := hentry.text htext
    refine ⟨⟨key, n, ?_, hn⟩, ?_, ?_, ?_, hadded⟩
    · rw [kind_ofKind]
      exact hunder
    · exact hfields.mirrored hmirrors hapart (by decide) (by decide)
    · exact hindexes.mirrored hmirrors hapart (by decide) (by decide)
    · exact hvalues.mirrored hmirrors hapart (by decide) (by decide)

end Entity

end EntitySchema
