import Mathlib.Data.List.Basic
import Mathlib.Tactic.Common
import EntitySchema.Proofs.Indexes
import EntitySchema.Proofs.Lines.Entities
import EntitySchema.Proofs.Lookup
import EntitySchema.Resolution.Types
import EntitySchema.Resolution.Uniqueness

/-!
# Passes over entities of one line

Entities that keep lines only still do when their types are resolved (`TypeResolution.hasLines_resolve`), and what is
reported about their names, types and indexes are lines (`Uniqueness.allLines_check`,
`TypeResolution.allLines_resolve`, `IndexCheck.allLines_resolve`).  Whatever the texts are, each of these passes reports
in the documents of the entities only.
-/

namespace EntitySchema

namespace Diagnostic

/-- Diagnostics in the documents of entities. -/
def AllAbout (es : List Entity) (ds : List Diagnostic) : Prop :=
  ∀ d ∈ ds, ∃ e ∈ es, d.source = some e.header.sourceFileName

lemma allAbout_diagnostics {e : Entity} {es : List Entity} (he : e ∈ es) (issues : List Issue) :
    AllAbout es (issues.map e.diagnostic) := by
  intro d hd
  obtain ⟨i, -, rfl⟩ := List.mem_map.mp hd
  exact ⟨e, he, rfl⟩

end Diagnostic

/-- Entities with other fields that have lines only. -/
lemma Entity.HasLines.withFields {e : Entity} (h : e.HasLines) {fs : List FieldDraft} (hfs : ∀ f ∈ fs, f.HasLines) :
    (e.withFields fs).HasLines where
  className := by simpa using h.className
  moduleAlias := by simpa using h.moduleAlias
  sourceFileName := by simpa using h.sourceFileName
  fields f hf := hfs f (Entity.mem_fields_withFields hf)
  declared := by
    have hdeclared := h.declared
    obtain ⟨header, nameSpan, body⟩ := e
    cases body with
    | «class» c => exact each_some ⟨(hdeclared c rfl).table, (hdeclared c rfl).indexes⟩
    | exception | enum => exact each_none

/-! ### Names that are declared twice -/

namespace Uniqueness

/-- The entities that own names have lines only. -/
def OwnersHaveLines (names : List (String × Entity)) : Prop :=
  ∀ p ∈ names, p.2.HasLines

/-- All entities that own names have lines only. -/
structure Names.HaveLines (names : Names) : Prop where
  classes : OwnersHaveLines names.classes
  tables : OwnersHaveLines names.tables
  indexes : OwnersHaveLines names.indexes

section Declare

variable {names : List (String × Entity)} (h : OwnersHaveLines names) {e : Entity} (he : e.HasLines)

include h he

lemma withLines_declare (key : String) (taken : Entity → Issue)
    (htaken : ∀ first : Entity, first.HasLines → IsLine (taken first).message) :
    WithLines OwnersHaveLines (declare names key e taken) := by
  unfold declare
  split
  · rename_i first hfirst
    obtain ⟨p, hp, rfl⟩ := Option.map_eq_some_iff.mp hfirst
    exact ⟨h, Issue.allLines_singleton (htaken _ (h p (List.mem_of_find?_eq_some hp)))⟩
  · exact ⟨List.forall_mem_append.mpr ⟨h, List.forall_mem_singleton.mpr he⟩, Issue.allLines_nil⟩

lemma withLines_declareIndexes {is : List IndexDraft} (his : ∀ i ∈ is, i.HasLines) :
    WithLines OwnersHaveLines (declareIndexes names e is) := by
  induction is generalizing names with
  | nil => exact ⟨h, Issue.allLines_nil⟩
  | cons i is ih =>
    obtain ⟨hi, his⟩ := List.forall_mem_cons.mp his
    obtain ⟨hnames, hissues⟩ := withLines_declare h he i.name (takenIndex i) fun first hfirst =>
      (hi.name.between (by decide) (by decide)).and hfirst.className (by decide)
    obtain ⟨hresult, hmore⟩ := ih hnames his
    exact ⟨hresult, Issue.allLines_append.mpr ⟨hissues, hmore⟩⟩

lemma withLines_declareTable {table : Option (Spanned String)} (htable : OptionalLine table) :
    WithLines OwnersHaveLines (declareTable names e table) := by
  cases table with
  | none => exact ⟨h, Issue.allLines_nil⟩
  | some table =>
    refine withLines_declare h he table.value (takenTable table) fun first hfirst => ?_
    exact ((htable table rfl).between (by decide) (by decide)).and hfirst.className (by decide)

end Declare

lemma withLines_declareEntity {names : Names} (h : names.HaveLines) {e : Entity} (he : e.HasLines) :
    WithLines Names.HaveLines (declareEntity names e) := by
  obtain ⟨hclasses, hclassIssues⟩ := withLines_declare h.classes he e.key (takenClass e) fun first hfirst =>
    (he.className.between (by decide) (by decide)).and hfirst.sourceFileName (by decide)
  unfold declareEntity
  dsimp only
  split
  · exact ⟨⟨hclasses, h.tables, h.indexes⟩, hclassIssues⟩
  rename_i c hc
  obtain ⟨htable, hindexes⟩ := he.declared c hc
  obtain ⟨htables, htableIssues⟩ := withLines_declareTable h.tables he htable
  obtain ⟨hindexes, hindexIssues⟩ := withLines_declareIndexes h.indexes he hindexes
  refine ⟨⟨hclasses, htables, hindexes⟩, ?_⟩
  simp only [Issue.allLines_append]
  exact ⟨⟨hclassIssues, htableIssues⟩, hindexIssues⟩

lemma allLines_checkFrom {names : Names} (h : names.HaveLines) {es : List Entity} (hes : ∀ e ∈ es, e.HasLines) :
    Diagnostic.AllLines (checkFrom names es) := by
  induction es generalizing names with
  | nil => exact List.forall_mem_nil _
  | cons e es ih =>
    obtain ⟨he, hes⟩ := List.forall_mem_cons.mp hes
    obtain ⟨hnames, hissues⟩ := withLines_declareEntity h he
    exact List.forall_mem_append.mpr ⟨hissues.diagnostics _, ih hnames hes⟩

/-- Reports on names of lines are lines. -/
theorem allLines_check {es : List Entity} (hes : ∀ e ∈ es, e.HasLines) : Diagnostic.AllLines (check es) := by
  have hnone : OwnersHaveLines [] := List.forall_mem_nil _
  exact allLines_checkFrom ⟨hnone, hnone, hnone⟩ hes

lemma allAbout_checkFrom {all : List Entity} (names : Names) {es : List Entity} (hes : ∀ e ∈ es, e ∈ all) :
    Diagnostic.AllAbout all (checkFrom names es) := by
  induction es generalizing names with
  | nil => exact List.forall_mem_nil _
  | cons e es ih =>
    obtain ⟨he, hes⟩ := List.forall_mem_cons.mp hes
    exact List.forall_mem_append.mpr ⟨Diagnostic.allAbout_diagnostics he _, ih _ hes⟩

end Uniqueness

/-! ### Types -/

namespace EntityIndex

variable {index : EntityIndex} (h : ∀ e ∈ index.entities, e.HasLines)

include h

lemma hasLines_find? {a n : String} {l : Located} (hl : index.find? a n = some l) : l.entity.HasLines :=
  h _ (List.mem_of_getElem? (find?_eq_some hl).1)

lemma hasLines_elsewhere (className exceptAlias : String) : ∀ l ∈ index.elsewhere className exceptAlias,
    l.entity.HasLines := by
  intro l hl
  obtain ⟨a, -, hfind⟩ := List.mem_filterMap.mp hl
  exact hasLines_find? h hfind

end EntityIndex

namespace TypeResolution

section Resolve

variable {s : Site} (h : ∀ e ∈ s.index.entities, e.HasLines) (hfield : IsLine s.field.name)

include h hfield

/-- The entity that a name of lines stands for, or the message about the name. -/
lemma either_lookup {moduleAlias : Option String} (halias : ∀ a, moduleAlias = some a → IsLine a) {name : String}
    (hname : IsLine name) : Either Entity.HasLines (fun i : Issue => IsLine i.message) (s.lookup moduleAlias name) := by
  have hnotFound : IsLine (s.notFound name).message :=
    (hname.between (by decide) (by decide)).and hfield (by decide)
  unfold Site.lookup
  split
  · split
    · exact (halias _ rfl).between (by decide) (by decide)
    split
    · rename_i l hl
      exact EntityIndex.hasLines_find? h hl
    · exact hnotFound
  split
  · rename_i l hl
    exact EntityIndex.hasLines_find? h hl
  have helsewhere := EntityIndex.hasLines_elsewhere h name s.entity.moduleAlias
  generalize s.index.elsewhere name s.entity.moduleAlias = candidates at helsewhere ⊢
  split
  · exact hnotFound
  · exact helsewhere _ List.mem_cons_self
  · refine ((hname.between (by decide) (by decide)).and hfield (by decide)).and ?_ (by decide)
    refine isLine_intercalate (.lit (by decide)) fun a ha => ?_
    obtain ⟨l, hl, rfl⟩ := List.mem_map.mp ha
    exact (helsewhere l hl).moduleAlias

omit h hfield in
lemma hasLines_referenceTo {e : Entity} (he : e.HasLines) (nullable : Bool) : (referenceTo e nullable).HasLines := by
  refine .intro he.className (fun a ha => ?_) (List.forall_mem_nil _)
  obtain rfl := Option.some.inj ha
  exact he.moduleAlias

omit h hfield in
/-- Several types, each of which is resolved to lines. -/
lemma withLines_resolveAll {ts : List TypeDef} (hts : ∀ t ∈ ts, WithLines TypeDef.HasLines (s.resolve t)) :
    WithLines (fun ts => ∀ t ∈ ts, t.HasLines) (s.resolveAll ts) := by
  induction ts with
  | nil =>
    rw [Site.resolveAll]
    exact ⟨List.forall_mem_nil _, Issue.allLines_nil⟩
  | cons t ts ih =>
    obtain ⟨⟨ht, hissues⟩, hts⟩ := List.forall_mem_cons.mp hts
    obtain ⟨hrest, hmore⟩ := ih hts
    rw [Site.resolveAll]
    exact ⟨List.forall_mem_cons.mpr ⟨ht, hrest⟩, Issue.allLines_append.mpr ⟨hissues, hmore⟩⟩

/-- A type of lines is resolved to one. -/
lemma withLines_resolve {t : TypeDef} (ht : t.HasLines) : WithLines TypeDef.HasLines (s.resolve t) := by
  induction ht with
  | @intro t hname halias hgenerics ih =>
    obtain ⟨name, nullable, generics, category, moduleAlias, entityKind, dimension, enumSerialization⟩ := t
    have ht : TypeDef.HasLines ⟨name, nullable, generics, category, moduleAlias, entityKind, dimension,
        enumSerialization⟩ := .intro hname halias hgenerics
    cases category with
    | container =>
      obtain ⟨hresolved, hissues⟩ := withLines_resolveAll ih
      rw [Site.resolve]
      exact ⟨.intro hname halias hresolved, hissues⟩
    | unresolved =>
      have hlookup := either_lookup h hfield halias hname
      rw [Site.resolve]
      split
      · rename_i e he
        exact ⟨hasLines_referenceTo (hlookup.of_ok he) nullable, Issue.allLines_nil⟩
      · rename_i i hi
        exact ⟨ht, Issue.allLines_singleton (hlookup.of_error hi)⟩
    | scalar | vector | entity =>
      rw [Site.resolve]
      exact ⟨ht, Issue.allLines_nil⟩

omit h hfield in
lemma isLine_defaultIssue {type : TypeDef} (htype : type.HasLines) (values : Option (List EnumValue))
    {d : Spanned String} (hd : IsLine d.value) : IsLine (s.defaultIssue type values d).message := by
  unfold Site.defaultIssue
  dsimp only
  split
  · exact (hd.between (by decide) (by decide)).and htype.name (by decide)
  · exact htype.describe.between (by decide) (by decide)

omit h hfield in
lemma withLines_checkDefaults {type : TypeDef} (htype : type.HasLines) {d : DraftDefaults} (hd : d.HasLines) :
    WithLines DraftDefaults.HasLines (s.checkDefaults type d) := by
  have hkept : ∀ {o : Option (Spanned String)} (p : Spanned String → Bool), OptionalLine o →
      OptionalLine (o.filter p) := fun p ho v hv => ho v (Option.filter_eq_some_iff.mp hv).1
  have hbad : ∀ {o : Option (Spanned String)} (values : Option (List EnumValue)), OptionalLine o →
      Issue.AllLines ((o.filter fun v => !isValue values v).toList.map (s.defaultIssue type values)) := by
    refine fun values ho => Issue.allLines_map fun v hv => isLine_defaultIssue htype values ?_
    exact hkept _ ho v (Option.mem_toList.mp hv)
  unfold Site.checkDefaults
  split
  · exact ⟨hd, Issue.allLines_nil⟩
  dsimp only
  refine ⟨⟨hkept _ hd.model, hkept _ hd.persist⟩, Issue.allLines_append.mpr ⟨hbad _ hd.model, ?_⟩⟩
  split
  · exact Issue.allLines_nil
  · exact hbad _ hd.persist

end Resolve

lemma withLines_resolveField {s : Site} (h : ∀ e ∈ s.index.entities, e.HasLines) (hfield : s.field.HasLines) :
    WithLines FieldDraft.HasLines s.resolveField := by
  obtain ⟨htype, hissues⟩ := withLines_resolve h hfield.name hfield.type
  obtain ⟨hdefaults, hmore⟩ := withLines_checkDefaults (s := s) htype hfield.defaults
  exact ⟨⟨hfield.name, htype, hfield.option, hdefaults⟩, Issue.allLines_append.mpr ⟨hissues, hmore⟩⟩

section Entities

variable {index : EntityIndex}

/-- Entities of lines are resolved to such entities. -/
theorem hasLines_resolve (h : ∀ e ∈ index.entities, e.HasLines) : ∀ e ∈ (resolve index).1, e.HasLines := by
  intro e' he'
  obtain ⟨r, hr, rfl⟩ := List.mem_map.mp he'
  obtain ⟨e, he, rfl⟩ := List.mem_map.mp hr
  refine (h e he).withFields fun f' hf' => ?_
  obtain ⟨r, hr, rfl⟩ := List.mem_map.mp hf'
  obtain ⟨f, hf, rfl⟩ := List.mem_map.mp hr
  exact (withLines_resolveField (s := ⟨index, e, f⟩) h ((h e he).fields f hf)).1

/-- Reports on types of lines are lines. -/
theorem allLines_resolve (h : ∀ e ∈ index.entities, e.HasLines) : Diagnostic.AllLines (resolve index).2 := by
  intro d hd
  obtain ⟨r, hr, hd⟩ := List.mem_flatMap.mp hd
  obtain ⟨e, he, rfl⟩ := List.mem_map.mp hr
  obtain ⟨i, hi, rfl⟩ := List.mem_map.mp hd
  obtain ⟨r, hr, hi⟩ := List.mem_flatMap.mp hi
  obtain ⟨f, hf, rfl⟩ := List.mem_map.mp hr
  exact (withLines_resolveField (s := ⟨index, e, f⟩) h ((h e he).fields f hf)).2 i hi

lemma allAbout_resolve (index : EntityIndex) : Diagnostic.AllAbout index.entities (resolve index).2 := by
  intro d hd
  obtain ⟨r, hr, hd⟩ := List.mem_flatMap.mp hd
  obtain ⟨e, he, rfl⟩ := List.mem_map.mp hr
  exact Diagnostic.allAbout_diagnostics he _ d hd

end Entities

end TypeResolution

/-! ### Indexes -/

namespace IndexCheck

lemma isLine_typeName (kind : IndexType) : IsLine kind.name := by
  cases kind <;> exact .lit (by decide)

section Check

variable {d : IndexDraft} (hd : d.HasLines)

include hd

lemma allLines_distanceFunctionOf (kind : IndexType) {vector : Option FieldDraft}
    (hvector : Each FieldDraft.HasLines vector) : Issue.AllLines (distanceFunctionOf d kind vector).2 := by
  have hnames : ∀ typeName, ∀ w ∈ (distanceFunctionsFor typeName).map DistanceFunction.name, IsLine w := by
    intro typeName
    unfold distanceFunctionsFor
    split <;> decide
  unfold distanceFunctionOf
  split
  · exact Issue.allLines_nil
  rename_i function hfunction
  split
  · exact Issue.allLines_singleton (.lit (by decide))
  split
  · exact Issue.allLines_nil
  rename_i f
  dsimp only
  split
  · exact Issue.allLines_nil
  · refine Issue.allLines_singleton ?_
    exact (((hd.distanceFunction function hfunction).between (by decide) (by decide)).and (hvector f rfl).type.name
      (by decide)).and (isLine_quoteList (hnames _)) (by decide)

lemma either_checkField {columns : List FieldDraft} (hcolumns : ∀ f ∈ columns, f.HasLines) (seen : List String)
    {name : String} (hname : IsLine name) : Either FieldDraft.HasLines IsLine (checkField d columns seen name) := by
  have husedBy : IsLine ("The field \"" ++ name ++ "\" used by index \"" ++ d.name ++ "\" ") :=
    (hname.between (by decide) (by decide)).and hd.name (by decide)
  unfold checkField
  dsimp only
  split
  · exact (hname.between (by decide) (by decide)).and hd.name (by decide)
  split
  · exact (husedBy.append (.lit (by decide))).append (.lit (by decide))
  · rename_i f hf
    split
    · exact hcolumns f (List.mem_of_find?_eq_some hf)
    · exact (husedBy.append (.lit (by decide))).append (.lit (by decide))

lemma withLines_checkFields {columns : List FieldDraft} (hcolumns : ∀ f ∈ columns, f.HasLines) (seen : List String)
    {rs : List (Spanned String)} (hrs : ∀ r ∈ rs, IsLine r.value) :
    WithLines (fun fs => ∀ f ∈ fs, f.HasLines) (checkFields d columns seen rs) := by
  induction rs generalizing seen with
  | nil => exact ⟨List.forall_mem_nil _, Issue.allLines_nil⟩
  | cons r rs ih =>
    obtain ⟨hr, hrs⟩ := List.forall_mem_cons.mp hrs
    have hfirst := either_checkField hd hcolumns seen hr
    obtain ⟨hfields, hissues⟩ := ih (r.value :: seen) hrs
    rw [checkFields]
    dsimp only
    split
    · rename_i f hf
      exact ⟨List.forall_mem_cons.mpr ⟨hfirst.of_ok hf, hfields⟩, hissues⟩
    · rename_i message hmessage
      exact ⟨hfields, Issue.allLines_cons.mpr ⟨hfirst.of_error hmessage, hissues⟩⟩

lemma isLine_of_kindOf {fields vectors : List FieldDraft} {i : Issue} (h : kindOf d fields vectors = .error i) :
    IsLine i.message := by
  have hnames : ∀ w ∈ indexTypes.map IndexType.name, IsLine w := by decide
  unfold kindOf at h
  split at h
  · cases h
  rename_i type htype
  split at h
  · cases h
  · cases h
    exact ((hd.type type htype).between (by decide) (by decide)).and (isLine_quoteList hnames) (by decide)

lemma allLines_kindIssues (kind : IndexType) {vectors : List FieldDraft} (hvectors : ∀ f ∈ vectors, f.HasLines) :
    Issue.AllLines (kindIssues d kind vectors) := by
  unfold kindIssues
  split
  · refine Issue.allLines_append.mpr ⟨?_, ?_⟩
    · split
      · refine Issue.allLines_singleton ?_
        exact ((isLine_typeName kind).between (by decide) (by decide)).and hd.name (by decide)
      · exact Issue.allLines_nil
    · split
      · exact Issue.allLines_singleton (hd.name.between (by decide) (by decide))
      · exact Issue.allLines_nil
  · exact Issue.allLines_map fun f hf => (hvectors f hf).name.between (by decide) (by decide)

lemma allLines_parametersOf (kind : IndexType) : Issue.AllLines (parametersOf d kind).2 := by
  have hallowed : ∀ allowed, parameterNames? kind = some allowed → ∀ w ∈ allowed, IsLine w := by
    intro allowed h
    unfold parameterNames? at h
    split at h
    · cases h
      decide
    · cases h
      decide
    · cases h
  unfold parametersOf
  split
  · exact Issue.allLines_nil
  rename_i parameters hparameters
  split
  · exact Issue.allLines_singleton (.lit (by decide))
  rename_i allowed hnames
  refine Issue.allLines_filterMap fun p hp i hi => ?_
  have hkey : IsLine p.key := hd.parameters parameters hparameters p hp
  unfold parameterIssue? at hi
  split at hi
  · cases hi
    exact ((hkey.between (by decide) (by decide)).and (isLine_typeName kind) (by decide)).and
      (isLine_quoteList (hallowed allowed hnames)) (by decide)
  split at hi
  · cases hi
    exact hkey.between (by decide) (by decide)
  · cases hi

/-- What is wrong with an index of lines is told in lines. -/
lemma either_check {columns : List FieldDraft} (hcolumns : ∀ f ∈ columns, f.HasLines) :
    Either (fun _ => True) Issue.AllLines (check columns d) := by
  obtain ⟨hfields, hfieldIssues⟩ := withLines_checkFields hd hcolumns [] hd.fields
  have hvectors : ∀ f ∈ (checkFields d columns [] d.fields).1.filter (·.type.category == .vector), f.HasLines :=
    fun f hf => hfields f (List.mem_of_mem_filter hf)
  unfold check
  dsimp only
  split
  · rename_i i hi
    exact Issue.allLines_append.mpr ⟨hfieldIssues, Issue.allLines_singleton (isLine_of_kindOf hd hi)⟩
  rename_i kind _
  split
  · trivial
  · refine Issue.allLines_append.mpr ⟨Issue.allLines_append.mpr ⟨Issue.allLines_append.mpr ⟨hfieldIssues, ?_⟩, ?_⟩, ?_⟩
    · exact allLines_kindIssues hd kind hvectors
    · exact allLines_distanceFunctionOf hd kind fun f hf => hvectors f (List.mem_of_head? hf)
    · exact allLines_parametersOf hd kind

end Check

lemma allLines_checkAll {columns : List FieldDraft} (hcolumns : ∀ f ∈ columns, f.HasLines) {ds : List IndexDraft}
    (hds : ∀ d ∈ ds, d.HasLines) : Issue.AllLines (checkAll columns ds).2 := by
  induction ds with
  | nil => exact Issue.allLines_nil
  | cons d ds ih =>
    obtain ⟨hd, hds⟩ := List.forall_mem_cons.mp hds
    have hfirst := either_check hd hcolumns
    rw [checkAll]
    dsimp only
    split
    · exact ih hds
    · rename_i more hmore
      exact Issue.allLines_append.mpr ⟨hfirst.of_error hmore, ih hds⟩

lemma allLines_checkEntity {e : Entity} (h : e.HasLines) : Diagnostic.AllLines (checkEntity e).2 := by
  have hnone : Diagnostic.AllLines [] := List.forall_mem_nil _
  unfold checkEntity
  split
  · rename_i c hc
    have hfields : ∀ f ∈ c.fields, f.HasLines := by
      have hlines := h.fields
      rwa [Entity.fields, hc] at hlines
    have hclass : e.class? = some c := by
      rw [Entity.class?, hc]
    split
    · exact hnone
    · exact (allLines_checkAll hfields (h.declared c hclass).indexes).diagnostics _
  · exact hnone

/-- Reports on indexes of lines are lines. -/
theorem allLines_resolve {es : List Entity} (h : ∀ e ∈ es, e.HasLines) : Diagnostic.AllLines (resolve es).2 := by
  intro d hd
  obtain ⟨r, hr, hd⟩ := List.mem_flatMap.mp hd
  obtain ⟨e, he, rfl⟩ := List.mem_map.mp hr
  exact allLines_checkEntity (h e he) d hd

lemma allAbout_checkEntity {es : List Entity} {e : Entity} (he : e ∈ es) :
    Diagnostic.AllAbout es (checkEntity e).2 := by
  have hnone : Diagnostic.AllAbout es [] := List.forall_mem_nil _
  unfold checkEntity
  split
  · split
    · exact hnone
    · exact Diagnostic.allAbout_diagnostics he _
  · exact hnone

lemma allAbout_resolve (es : List Entity) : Diagnostic.AllAbout es (resolve es).2 := by
  intro d hd
  obtain ⟨r, hr, hd⟩ := List.mem_flatMap.mp hd
  obtain ⟨e, he, rfl⟩ := List.mem_map.mp hr
  exact allAbout_checkEntity he d hd

end IndexCheck

end EntitySchema
