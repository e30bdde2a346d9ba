import Mathlib.Data.List.Basic
import Mathlib.Tactic.Common
import EntitySchema.Entity.OfDocument
import EntitySchema.Proofs.Lines.Fields
import EntitySchema.Proofs.Modules

/-!
# Entities of one line

Of a document that hands over lines an entity is read that keeps lines only (`Entity.HasLines`), and every message about
it is a line (`Entity.withLines_ofDocument`).
-/

namespace EntitySchema

/-- What later messages may name of the index is lines. -/
structure IndexDraft.HasLines (d : IndexDraft) : Prop where
  name : IsLine d.name
  fields : ∀ f ∈ d.fields, IsLine f.value
  type : OptionalLine d.type
  distanceFunction : OptionalLine d.distanceFunction
  parameters : Each (fun ps : IndexParameters => ∀ p ∈ ps.entries, IsLine p.key) d.parameters

/-- What later messages may name of the class is lines. -/
structure ClassDraft.HasLines (c : ClassDraft) : Prop where
  table : OptionalLine c.table
  indexes : ∀ d ∈ c.indexes, d.HasLines

/-- What later messages may name of the entity is lines. -/
structure Entity.HasLines (e : Entity) : Prop where
  className : IsLine e.className
  moduleAlias : IsLine e.moduleAlias
  sourceFileName : IsLine e.header.sourceFileName
  fields : ∀ f ∈ e.fields, f.HasLines
  declared : Each ClassDraft.HasLines e.class?

/-- What later messages may name of an entity with the body is lines. -/
structure Entity.BodyHasLines (b : EntityBody) : Prop where
  fields : ∀ header nameSpan, ∀ f ∈ (Entity.mk header nameSpan b).fields, f.HasLines
  declared : ∀ header nameSpan, Each ClassDraft.HasLines (Entity.mk header nameSpan b).class?

/-! ### Indexes -/

namespace IndexDraft

section Properties

variable {m : Mapping}

lemma allLines_unknownProperties (name : String) (hm : Mapping.HasLines m) :
    Issue.AllLines (unknownProperties name m) := by
  have hnames : ∀ w ∈ propertyNames, IsLine w := by decide
  refine Issue.allLines_map fun e he => ?_
  have hkey : IsLine e.key := (hm e (List.mem_of_mem_filter he)).key
  refine (hkey.between (by decide) (by decide)).append (isLine_hint hnames ?_)
  exact (isLine_intercalate (.lit (by decide)) hnames).between (by decide) (by decide)

lemma isLine_namesInItems {items : List SequenceItem} (h : ∀ i ∈ items, i.value.HasLines)
    {names : List (Spanned String)} (hnames : namesInItems items = some names) : ∀ n ∈ names, IsLine n.value := by
  induction items generalizing names with
  | nil =>
    cases hnames
    exact List.forall_mem_nil _
  | cons i items ih =>
    obtain ⟨hi, hitems⟩ := List.forall_mem_cons.mp h
    unfold namesInItems at hnames
    split at hnames
    · cases hnames
    rename_i text htext
    dsimp only at hnames
    split at hnames
    · cases hnames
    · obtain ⟨rest, hrest, rfl⟩ := Option.map_eq_some_iff.mp hnames
      exact List.forall_mem_cons.mpr ⟨Text.isLine_trimString (hi.text htext), ih hitems hrest⟩

lemma isLine_namesInText {lineStarts : List Nat} {text : String} (h : IsLine text) {contentOffset : Option Nat}
    {span : Span} {names : List (Spanned String)}
    (hnames : namesInText lineStarts text contentOffset span = some names) : ∀ n ∈ names, IsLine n.value := by
  unfold namesInText at hnames
  dsimp only at hnames
  split at hnames
  · cases hnames
  · cases hnames
    intro n hn
    obtain ⟨s, hs, rfl⟩ := List.mem_map.mp hn
    exact Segment.isLine_of_mem_split h 0 s hs

lemma isLine_fieldNames {lineStarts : List Nat} {value : DocNode} (h : value.HasLines) {names : List (Spanned String)}
    (hnames : fieldNames lineStarts value = some names) : ∀ n ∈ names, IsLine n.value := by
  unfold fieldNames at hnames
  dsimp only at hnames
  have hsome := (Option.filter_eq_some_iff.mp hnames).1
  split at hsome
  · exact isLine_namesInItems h.sequence hsome
  · exact isLine_namesInText (h.text rfl) hsome
  · cases hsome

lemma withLines_textProperty (name : String) {key : String} (hkey : IsLine key) (hm : Mapping.HasLines m) :
    WithLines OptionalLine (textProperty name key m) := by
  unfold textProperty
  split
  · exact ⟨each_none, Issue.allLines_nil⟩
  rename_i e he
  split
  · rename_i text htext
    exact ⟨each_some ((hm.find? he).value.text htext), Issue.allLines_nil⟩
  · exact ⟨each_none, Issue.allLines_singleton (hkey.between (by decide) (by decide))⟩

lemma allLines_uniqueProperty (name : String) : Issue.AllLines (uniqueProperty name m).2 := by
  unfold uniqueProperty
  split
  · exact Issue.allLines_nil
  split
  · exact Issue.allLines_nil
  · exact Issue.allLines_singleton (.lit (by decide))

lemma withLines_parameterEntries (name : String) {es : List MappingEntry} (h : ∀ e ∈ es, MappingEntry.HasLines e) :
    WithLines (fun ps => ∀ p ∈ ps, IsLine p.key) (parameterEntries name es) := by
  induction es with
  | nil => exact ⟨List.forall_mem_nil _, Issue.allLines_nil⟩
  | cons e es ih =>
    obtain ⟨he, hes⟩ := List.forall_mem_cons.mp h
    obtain ⟨hparameters, hissues⟩ := ih hes
    unfold parameterEntries
    dsimp only
    split
    · exact ⟨List.forall_mem_cons.mpr ⟨he.key, hparameters⟩, hissues⟩
    · exact ⟨hparameters, Issue.allLines_cons.mpr ⟨he.key.between (by decide) (by decide), hissues⟩⟩

lemma withLines_parametersProperty (name : String) (hm : Mapping.HasLines m) :
    WithLines (Each fun ps : IndexParameters => ∀ p ∈ ps.entries, IsLine p.key) (parametersProperty name m) := by
  unfold parametersProperty
  split
  · exact ⟨each_none, Issue.allLines_nil⟩
  rename_i e he
  have hvalue := (hm.find? he).value
  generalize e.value = value at hvalue ⊢
  split
  · obtain ⟨hparameters, hissues⟩ := withLines_parameterEntries name hvalue.mapping
    exact ⟨each_some hparameters, hissues⟩
  · exact ⟨each_none, Issue.allLines_singleton (.lit (by decide))⟩

end Properties

lemma withLines_ofMapping (lineStarts : List Nat) {name : String} (hname : IsLine name) (nameSpan : Span) {m : Mapping}
    (hm : Mapping.HasLines m) : WithLines (Each IndexDraft.HasLines) (ofMapping lineStarts name nameSpan m) := by
  have hunknown := allLines_unknownProperties name hm
  unfold ofMapping
  dsimp only
  split
  · exact ⟨each_none, Issue.allLines_append.mpr
      ⟨hunknown, Issue.allLines_singleton (hname.between (by decide) (by decide))⟩⟩
  rename_i fieldsEntry hfieldsEntry
  split
  · exact ⟨each_none, Issue.allLines_append.mpr
      ⟨hunknown, Issue.allLines_singleton (hname.between (by decide) (by decide))⟩⟩
  rename_i fields hfields
  obtain ⟨htype, htypeIssues⟩ := withLines_textProperty name (.lit (by decide) : IsLine "type") hm
  obtain ⟨hdistance, hdistanceIssues⟩ := withLines_textProperty name (.lit (by decide) : IsLine "distanceFunction") hm
  obtain ⟨hparameters, hparameterIssues⟩ := withLines_parametersProperty name hm
  split
  · exact ⟨each_some ⟨hname, isLine_fieldNames (hm.find? hfieldsEntry).value hfields, htype, hdistance, hparameters⟩,
      Issue.allLines_nil⟩
  · refine ⟨each_none, ?_⟩
    simp only [Issue.allLines_append]
    exact ⟨⟨⟨⟨hunknown, htypeIssues⟩, hdistanceIssues⟩, allLines_uniqueProperty name⟩, hparameterIssues⟩

lemma withLines_ofEntry (lineStarts : List Nat) {entry : MappingEntry} (h : MappingEntry.HasLines entry) :
    WithLines (Each IndexDraft.HasLines) (ofEntry lineStarts entry) := by
  unfold ofEntry
  split
  · exact ⟨each_none, Issue.allLines_singleton (h.key.between (by decide) (by decide))⟩
  have hvalue := h.value
  generalize entry.value = value at hvalue ⊢
  split
  · exact withLines_ofMapping lineStarts h.key _ hvalue.mapping
  · exact ⟨each_none, Issue.allLines_singleton (h.key.between (by decide) (by decide))⟩

lemma withLines_ofEntries (lineStarts : List Nat) {es : List MappingEntry} (h : ∀ e ∈ es, MappingEntry.HasLines e) :
    WithLines (fun ds => ∀ d ∈ ds, d.HasLines) (ofEntries lineStarts es) := by
  induction es with
  | nil => exact ⟨List.forall_mem_nil _, Issue.allLines_nil⟩
  | cons e es ih =>
    obtain ⟨he, hes⟩ := List.forall_mem_cons.mp h
    exact (withLines_ofEntry lineStarts he).cons (ih hes)

lemma withLines_ofNode (lineStarts : List Nat) {value : DocNode} (h : value.HasLines) :
    WithLines (fun ds => ∀ d ∈ ds, d.HasLines) (ofNode lineStarts value) := by
  unfold ofNode
  split
  · exact withLines_ofEntries lineStarts h.mapping
  · exact ⟨List.forall_mem_nil _, Issue.allLines_singleton (.lit (by decide))⟩

end IndexDraft

/-! ### Entities -/

namespace Entity

lemma isLine_kindName (kind : EntityKind) : IsLine kind.name := by
  cases kind <;> exact .lit (by decide)

lemma isLine_propertyNames (kind : EntityKind) : ∀ w ∈ propertyNames kind, IsLine w := by
  cases kind <;> decide

/-- The entry that declares the kind is one of the document, or there are messages about the kind. -/
lemma either_kindEntry {root : Mapping} (h : Mapping.HasLines root) :
    Either (fun p : MappingEntry × EntityKind => MappingEntry.HasLines p.1) Issue.AllLines (kindEntry root) := by
  have hmissing : IsLine missingKind.message := by
    have hkinds : ∀ w ∈ entityKinds.map EntityKind.name, IsLine w := by decide
    exact (isLine_quoteList hkinds).between (by decide) (by decide)
  have hkinds : ∀ e ∈ root.entries.filter fun e => (kindOfKey? e.key).isSome, MappingEntry.HasLines e :=
    fun e he => h e (List.mem_of_mem_filter he)
  unfold kindEntry
  dsimp only
  generalize (root.entries.filter fun e => (kindOfKey? e.key).isSome) = kinds at hkinds ⊢
  split
  · exact Issue.allLines_singleton hmissing
  · split
    · exact hkinds _ List.mem_cons_self
    · exact Issue.allLines_singleton hmissing
  · rename_i further _
    refine Issue.allLines_map fun e _ => (isLine_intercalate (.lit (by decide)) ?_).between (by decide) (by decide)
    intro s hs
    obtain ⟨k, hk, rfl⟩ := List.mem_map.mp hs
    exact (hkinds k hk).key.quoted

/-! #### Properties -/

section Properties

variable {root : Mapping} (h : Mapping.HasLines root)

lemma isLine_propertyIssue {kind : EntityKind} {e : MappingEntry} (hkey : IsLine e.key) {i : Issue}
    (hi : propertyIssue? kind e = some i) : IsLine i.message := by
  have hrefusal : IsLine ("The \"" ++ e.key ++ "\" property is not allowed for " ++ kind.name ++ " type. ") :=
    (hkey.between (by decide) (by decide)).and (isLine_kindName kind) (by decide)
  have hnames : IsLine (String.intercalate ", " (propertyNames kind)) :=
    isLine_intercalate (.lit (by decide)) (isLine_propertyNames kind)
  unfold propertyIssue? at hi
  dsimp only at hi
  split at hi
  · cases hi
  split at hi
  · cases hi
    exact (hrefusal.append (.lit (by decide))).and hnames (by decide)
  · obtain ⟨candidate, hcandidate, rfl⟩ := Option.map_eq_some_iff.mp hi
    have hword : IsLine candidate := isLine_propertyNames kind candidate (Suggestion.mem_of_closest hcandidate)
    exact (hrefusal.append (.lit (by decide))).and hword (by decide)

lemma allLines_boolProperty (root : Mapping) {key : String} (hkey : IsLine key) (otherwise : Bool) :
    Issue.AllLines (boolProperty root key otherwise).2 := by
  unfold boolProperty
  split
  · exact Issue.allLines_nil
  split
  · exact Issue.allLines_nil
  · exact Issue.allLines_singleton (hkey.between (by decide) (by decide))

include h

lemma withLines_tableProperty : WithLines OptionalLine (tableProperty root) := by
  unfold tableProperty
  split
  · exact ⟨each_none, Issue.allLines_nil⟩
  rename_i e he
  split
  · rename_i table htable
    exact ⟨each_some ((h.find? he).value.text (Option.filter_eq_some_iff.mp htable).1), Issue.allLines_nil⟩
  · exact ⟨each_none, Issue.allLines_singleton (.lit (by decide))⟩

lemma allLines_defaultProperty (values : List EnumValue) : Issue.AllLines (defaultProperty root values).2 := by
  unfold defaultProperty
  split
  · exact Issue.allLines_nil
  rename_i e he
  dsimp only
  split
  · exact Issue.allLines_nil
  · have htext : IsLine (e.value.text?.getD "") := by
      cases htext : e.value.text? with
      | none => exact .lit (by decide)
      | some text => exact (h.find? he).value.text htext
    exact Issue.allLines_singleton (htext.between (by decide) (by decide))

end Properties

/-! #### Enums -/

lemma allLines_serializedProperty (root : Mapping) : Issue.AllLines (serializedProperty root).2 := by
  unfold serializedProperty
  split
  · exact Issue.allLines_nil
  split
  · exact Issue.allLines_nil
  · exact Issue.allLines_singleton (.lit (by decide))

lemma isLine_of_enumValue {before : List EnumValue} {i : SequenceItem} (hi : i.value.HasLines) {message : String}
    (h : enumValue before i = .error message) : IsLine message := by
  unfold enumValue at h
  split at h
  · cases h
    exact .lit (by decide)
  rename_i name hname
  have hname : IsLine name := hi.text hname
  split at h
  · cases h
    exact hname.between (by decide) (by decide)
  split at h
  · cases h
    exact hname.between (by decide) (by decide)
  · cases h

lemma allLines_enumValuesFrom (before : List EnumValue) (n : Nat) {items : List SequenceItem}
    (h : ∀ i ∈ items, i.value.HasLines) : Issue.AllLines (enumValuesFrom before n items).2 := by
  induction items generalizing before n with
  | nil => exact Issue.allLines_nil
  | cons i items ih =>
    obtain ⟨hi, hitems⟩ := List.forall_mem_cons.mp h
    rw [enumValuesFrom]
    split
    · exact ih _ _ hitems
    · rename_i message hmessage
      exact Issue.allLines_cons.mpr ⟨isLine_of_enumValue hi hmessage, ih _ _ hitems⟩

lemma allLines_enumValues {root : Mapping} (h : Mapping.HasLines root) (kind : MappingEntry) :
    Issue.AllLines (enumValues root kind).2 := by
  unfold enumValues
  dsimp only
  split
  · exact Issue.allLines_singleton (.lit (by decide))
  rename_i e he
  have hvalue := (h.find? he).value
  generalize e.value = value at hvalue ⊢
  split
  · exact allLines_enumValuesFrom [] 0 hvalue.sequence
  · exact Issue.allLines_singleton (.lit (by decide))

/-! #### What entities declare -/

section Bodies

variable {d : ParsedDocument} (h : Mapping.HasLines d.root)

lemma hasLines_serialId (span : Span) : (serialId span).HasLines where
  name := .lit (by decide)
  type := TypeDef.hasLines_scalar (.lit (by decide)) true
  option := each_none
  defaults := ⟨each_none, each_some (IsLine.lit (by decide))⟩

include h

lemma withLines_fieldDrafts (owner : FieldOwner) :
    WithLines (fun fs => ∀ f ∈ fs, f.HasLines) (fieldDrafts d owner) := by
  unfold fieldDrafts
  split
  · exact ⟨List.forall_mem_nil _, Issue.allLines_nil⟩
  rename_i e he
  have hvalue := (h.find? he).value
  generalize e.value = value at hvalue ⊢
  split
  · exact FieldDraft.withLines_ofEntries d.lineStarts owner hvalue.mapping
  · exact ⟨List.forall_mem_nil _, Issue.allLines_singleton (.lit (by decide))⟩

lemma withLines_indexDrafts (hasTable : Bool) :
    WithLines (fun ds => ∀ i ∈ ds, i.HasLines) (indexDrafts d hasTable) := by
  unfold indexDrafts
  split
  · exact ⟨List.forall_mem_nil _, Issue.allLines_nil⟩
  rename_i e he
  split
  · exact IndexDraft.withLines_ofNode d.lineStarts (h.find? he).value
  · exact ⟨List.forall_mem_nil _, Issue.allLines_singleton (.lit (by decide))⟩

lemma withLines_classBody (kind : MappingEntry) : WithLines BodyHasLines (classBody d kind) := by
  obtain ⟨htable, htableIssues⟩ := withLines_tableProperty h
  have hmanaged := allLines_boolProperty d.root (.lit (by decide) : IsLine "managedMigration") true
  obtain ⟨hfields, hfieldIssues⟩ :=
    withLines_fieldDrafts h (if (tableProperty d.root).1.isSome then .tableClass else .plainClass)
  obtain ⟨hindexes, hindexIssues⟩ := withLines_indexDrafts h (tableProperty d.root).1.isSome
  unfold classBody
  dsimp only
  refine ⟨⟨fun _ _ => ?_, fun _ _ => each_some ⟨htable, hindexes⟩⟩, ?_⟩
  · dsimp only [fields]
    split
    · exact List.forall_mem_cons.mpr ⟨hasLines_serialId _, hfields⟩
    · exact hfields
  · simp only [Issue.allLines_append]
    exact ⟨⟨⟨htableIssues, hmanaged⟩, hfieldIssues⟩, hindexIssues⟩

lemma withLines_bodyOf (entry : MappingEntry) (kind : EntityKind) :
    WithLines BodyHasLines (bodyOf d entry kind) := by
  cases kind with
  | «class» => exact withLines_classBody h entry
  | exception =>
    obtain ⟨hfields, hissues⟩ := withLines_fieldDrafts h .exception
    exact ⟨⟨fun _ _ => hfields, fun _ _ => each_none⟩, hissues⟩
  | enum =>
    refine ⟨⟨fun _ _ => List.forall_mem_nil _, fun _ _ => each_none⟩, ?_⟩
    exact Issue.allLines_append.mpr ⟨Issue.allLines_append.mpr
      ⟨allLines_serializedProperty d.root, allLines_enumValues h entry⟩, allLines_defaultProperty h _⟩

end Bodies

/-- The entity of a document that has been read as lines, and what is wrong with it. -/
theorem withLines_ofParsed {d : ParsedDocument} (h : Mapping.HasLines d.root)
    (hsource : IsLine d.input.sourceFileName) (halias : ∀ a, d.input.moduleAlias = some a → IsLine a) :
    WithLines (Each Entity.HasLines) (ofParsed d) := by
  have hkind := either_kindEntry h
  have halias : IsLine (d.input.moduleAlias.getD defaultModuleAlias) := by
    cases hsome : d.input.moduleAlias with
    | none => exact .lit (by decide)
    | some a => exact halias a hsome
  unfold ofParsed
  split
  · rename_i issues hissues
    exact ⟨each_none, hkind.of_error hissues⟩
  rename_i entry kind hentry
  have hentry : MappingEntry.HasLines entry := hkind.of_ok hentry
  have hproperties : Issue.AllLines (d.root.entries.filterMap (propertyIssue? kind)) :=
    Issue.allLines_filterMap fun e he i hi => isLine_propertyIssue (h e he).key hi
  dsimp only
  split
  · exact ⟨each_none, Issue.allLines_append.mpr ⟨hproperties,
      Issue.allLines_singleton ((isLine_kindName kind).between (by decide) (by decide))⟩⟩
  rename_i className hclassName
  have hclassName : IsLine className := hentry.value.text (Option.filter_eq_some_iff.mp hclassName).1
  obtain ⟨hbody, hissues⟩ := withLines_bodyOf h entry kind
  have hserver := allLines_boolProperty d.root (.lit (by decide) : IsLine "serverOnly") false
  refine ⟨each_some ⟨hclassName, halias, hsource, hbody.fields _ _, hbody.declared _ _⟩, ?_⟩
  exact Issue.allLines_append.mpr ⟨hproperties, Issue.allLines_append.mpr ⟨hserver, hissues⟩⟩

/-- The entity of a document that hands over lines, and what is wrong with the document. -/
theorem withLines_ofDocument {d : DocumentInput} (h : d.HandsOverLines) (hsource : IsLine d.sourceFileName)
    (halias : ∀ a, d.moduleAlias = some a → IsLine a) :
    Each Entity.HasLines (ofDocument d).1 ∧ Diagnostic.AllLines (ofDocument d).2 := by
  obtain ⟨hdocument, hissues⟩ := withLines_readDocument h
  unfold ofDocument
  dsimp only
  split
  · rename_i p hp
    have hinput : p.input = d := readDocument_input hp
    obtain ⟨hentity, hmore⟩ := withLines_ofParsed (hdocument p hp) (hinput ▸ hsource) (hinput ▸ halias)
    exact ⟨hentity, Issue.AllLines.diagnostics (Issue.allLines_append.mpr ⟨hissues, hmore⟩) _⟩
  · exact ⟨each_none, Issue.AllLines.diagnostics (Issue.allLines_append.mpr ⟨hissues, Issue.allLines_nil⟩) _⟩

/-- An entity has the file name of its document. -/
lemma sourceFileName_ofDocument {d : DocumentInput} {e : Entity} (h : (ofDocument d).1 = some e) :
    e.header.sourceFileName = d.sourceFileName := by
  obtain ⟨p, hp, hparsed⟩ := ofDocument_eq_some h
  obtain ⟨entry, kind, className, -, -, -, rfl⟩ := ofParsed_eq_some hparsed
  exact congrArg DocumentInput.sourceFileName (readDocument_input hp)

end Entity

end EntitySchema
