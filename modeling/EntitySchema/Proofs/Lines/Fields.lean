import Mathlib.Data.List.Basic
import Mathlib.Tactic.Common
import EntitySchema.Entity.Field
import EntitySchema.Proofs.Lines.Documents
import EntitySchema.Proofs.Lines.Expressions

/-!
# Fields of one line

A field that is read of an entry whose key and text are lines keeps nothing but lines (`FieldDraft.HasLines`), and all
messages about it are lines (`withLines_ofEntry`): each of them names the key, a word of the expression, a type or a
default, and every other part of it is written out.
-/

namespace EntitySchema

/-- The texts of the option are lines. -/
structure RelationOption.HasLines (o : RelationOption) : Prop where
  name : OptionalLine o.name
  parent : OptionalLine o.parent
  field : OptionalLine o.field

/-- The texts of the defaults are lines. -/
structure DraftDefaults.HasLines (d : DraftDefaults) : Prop where
  model : OptionalLine d.model
  persist : OptionalLine d.persist

/-- What later messages may name of the field is lines. -/
structure FieldDraft.HasLines (f : FieldDraft) : Prop where
  name : IsLine f.name
  type : f.type.HasLines
  option : Each RelationOption.HasLines f.relationOption
  defaults : f.defaults.HasLines

/-! ### Defaults -/

namespace DefaultValue

lemma isLine_expectation (e : Expectation) : IsLine e.message := by
  cases e <;> exact .lit (by decide)

/-- The message about a default that a type does not have is a line. -/
lemma isLine_check {type : TypeDef} {value key message : String} (htype : type.HasLines) (hvalue : IsLine value)
    (hkey : IsLine key) (h : check type value key = .invalid message) : IsLine message := by
  have hunsupported : IsLine (unsupported type key) :=
    (hkey.between (by decide) (by decide)).and htype.describe (by decide)
  have hnotValid : ∀ e, IsLine (notValid type value key e) := fun e =>
    (((hkey.between (by decide) (by decide)).and hvalue (by decide)).and htype.describe (by decide)).append
      (isLine_expectation e)
  unfold check at h
  split at h
  · cases h
  · split at h
    · cases h
    · cases h
      exact hunsupported
  · cases h
    exact hunsupported
  · cases h
    exact hunsupported
  · split at h
    · cases h
      exact hunsupported
    · split at h
      · cases h
      · cases h
        exact hnotValid _

end DefaultValue

namespace FieldDraft

/-! ### Options -/

lemma isLine_unknownAction {key : RelationKey} {value : String} (h : IsLine value) :
    IsLine (unknownAction key value) := by
  have hactions : ∀ w ∈ referentialActions.map ReferentialAction.name, IsLine w := by decide
  exact (((FieldExpr.isLine_word key).between (by decide) (by decide)).and h (by decide)).and
    (isLine_quoteList hactions) (by decide)

lemma withLines_addParameter (s : Site) {o : RelationOption} {p : RelationParameter} (ho : o.HasLines)
    (hp : FieldExpr.ParameterHasLine p) : WithLines RelationOption.HasLines (addParameter s o p) := by
  have hvalue : IsLine (p.value.getD "") := by
    cases h : p.value with
    | none => exact .lit (by decide)
    | some v => exact hp v h
  have hname : OptionalLine (some ⟨p.value.getD "", s.segmentSpan p.segment⟩) := each_some hvalue
  unfold addParameter
  dsimp only
  split
  · exact ⟨{ ho with name := hname }, Issue.allLines_nil⟩
  · exact ⟨{ ho with parent := hname }, Issue.allLines_nil⟩
  · exact ⟨{ ho with field := hname }, Issue.allLines_nil⟩
  · split
    · exact ⟨⟨ho.name, ho.parent, ho.field⟩, Issue.allLines_nil⟩
    · exact ⟨ho, Issue.allLines_singleton (isLine_unknownAction hvalue)⟩
  · split
    · exact ⟨⟨ho.name, ho.parent, ho.field⟩, Issue.allLines_nil⟩
    · exact ⟨ho, Issue.allLines_singleton (isLine_unknownAction hvalue)⟩
  · exact ⟨⟨ho.name, ho.parent, ho.field⟩, Issue.allLines_nil⟩

lemma withLines_addParameters (s : Site) {o : RelationOption} {ps : List RelationParameter} (ho : o.HasLines)
    (hps : ∀ p ∈ ps, FieldExpr.ParameterHasLine p) : WithLines RelationOption.HasLines (addParameters s o ps) := by
  induction ps generalizing o with
  | nil => exact ⟨ho, Issue.allLines_nil⟩
  | cons p ps ih =>
    obtain ⟨hp, hps⟩ := List.forall_mem_cons.mp hps
    obtain ⟨ho', hissues⟩ := withLines_addParameter s ho hp
    obtain ⟨hresult, hmore⟩ := ih ho' hps
    exact ⟨hresult, Issue.allLines_append.mpr ⟨hissues, hmore⟩⟩

/-- The value of the default is a line. -/
def DeclaredDefault.HasLine (d : DeclaredDefault) : Prop :=
  IsLine d.value

/-- The texts of the options are lines. -/
structure Options.HasLines (o : Options) : Prop where
  relation : Each RelationOption.HasLines o.relation
  bothDefault : Each DeclaredDefault.HasLine o.bothDefault
  modelDefault : Each DeclaredDefault.HasLine o.modelDefault
  persistDefault : Each DeclaredDefault.HasLine o.persistDefault

lemma isLine_refusal {owner : FieldOwner} {body : OptionBody} {message : String}
    (h : refusal? owner body = some message) : IsLine message := by
  have hword := FieldExpr.isLine_optionWord body
  unfold refusal? at h
  split at h
  · split at h
    · cases h
      exact .lit (by decide)
    · cases h
  · cases h
  · split at h
    · cases h
      exact hword.between (by decide) (by decide)
    · cases h
      exact hword.between (by decide) (by decide)
    · cases h

lemma withLines_addOption (s : Site) {o : Options} {option : FieldOption} (ho : o.HasLines)
    (hoption : option.body.HasLines) : WithLines Options.HasLines (addOption s o option) := by
  unfold addOption
  split
  · rename_i message hmessage
    exact ⟨ho, Issue.allLines_singleton (isLine_refusal hmessage)⟩
  generalize option.body = body at hoption ⊢
  split
  · exact ⟨⟨ho.relation, ho.bothDefault, ho.modelDefault, ho.persistDefault⟩, Issue.allLines_nil⟩
  · exact ⟨⟨ho.relation, ho.bothDefault, ho.modelDefault, ho.persistDefault⟩, Issue.allLines_nil⟩
  · obtain ⟨hrelation, hissues⟩ := withLines_addParameters s
      (o := { span := s.segmentSpan option.segment }) ⟨each_none, each_none, each_none⟩ hoption
    exact ⟨{ ho with relation := each_some hrelation }, hissues⟩
  · exact ⟨{ ho with bothDefault := each_some hoption }, Issue.allLines_nil⟩
  · exact ⟨{ ho with modelDefault := each_some hoption }, Issue.allLines_nil⟩
  · exact ⟨{ ho with persistDefault := each_some hoption }, Issue.allLines_nil⟩

lemma withLines_addOptions (s : Site) {o : Options} {os : List FieldOption} (ho : o.HasLines)
    (hos : ∀ option ∈ os, option.body.HasLines) : WithLines Options.HasLines (addOptions s o os) := by
  induction os generalizing o with
  | nil => exact ⟨ho, Issue.allLines_nil⟩
  | cons option os ih =>
    obtain ⟨hoption, hos⟩ := List.forall_mem_cons.mp hos
    obtain ⟨ho', hissues⟩ := withLines_addOption s ho hoption
    obtain ⟨hresult, hmore⟩ := ih ho' hos
    exact ⟨hresult, Issue.allLines_append.mpr ⟨hissues, hmore⟩⟩

/-! ### Defaults of a field -/

section Defaults

variable {type : TypeDef}

lemma withLines_checkedDefault (s : Site) (htype : type.HasLines) (key : DefaultKey) {d : DeclaredDefault}
    (hd : d.HasLine) : WithLines OptionalLine (checkedDefault s type key d) := by
  have hkey : IsLine key.word := by
    cases key <;> exact .lit (by decide)
  unfold checkedDefault
  split
  · rename_i message hmessage
    exact ⟨each_none, Issue.allLines_singleton (DefaultValue.isLine_check htype hd hkey hmessage)⟩
  · exact ⟨each_some hd, Issue.allLines_nil⟩
  · exact ⟨each_some hd, Issue.allLines_nil⟩

lemma isLine_persistRefusal (htype : type.HasLines) {owner : FieldOwner} {shouldPersist : Bool} {message : String}
    (h : persistRefusal? owner type shouldPersist = some message) : IsLine message := by
  unfold persistRefusal? at h
  split at h
  · cases h
    exact .lit (by decide)
  split at h
  · cases h
    exact .lit (by decide)
  split at h
  · cases h
    exact htype.describe.between (by decide) (by decide)
  · cases h

lemma withLines_onDeclared {d : Option DeclaredDefault} {f : DeclaredDefault → Option (Spanned String) × List Issue}
    (hd : Each DeclaredDefault.HasLine d) (hf : ∀ d, d.HasLine → WithLines OptionalLine (f d)) :
    WithLines OptionalLine (onDeclared d f) := by
  cases d with
  | none => exact ⟨each_none, Issue.allLines_nil⟩
  | some d => exact hf d (hd d rfl)

lemma withLines_defaultsOf (s : Site) (htype : type.HasLines) (shouldPersist : Bool) {o : Options} (ho : o.HasLines) :
    WithLines DraftDefaults.HasLines (defaultsOf s type shouldPersist o) := by
  obtain ⟨hmodel, hmodelIssues⟩ := withLines_onDeclared ho.modelDefault fun _ => withLines_checkedDefault s htype .model
  obtain ⟨hpersist, hpersistIssues⟩ : WithLines OptionalLine
      (onDeclared o.persistDefault (checkedPersistDefault s type shouldPersist)) := by
    refine withLines_onDeclared ho.persistDefault fun d hd => ?_
    unfold checkedPersistDefault
    split
    · rename_i message hmessage
      exact ⟨each_none, Issue.allLines_singleton (isLine_persistRefusal htype hmessage)⟩
    · exact withLines_checkedDefault s htype .persist hd
  have hboth := Issue.allLines_append.mpr ⟨hmodelIssues, hpersistIssues⟩
  unfold defaultsOf
  dsimp only
  split
  · exact ⟨⟨hmodel, hpersist⟩, hboth⟩
  rename_i both hdeclared
  split
  · obtain ⟨hvalue, hissues⟩ := withLines_checkedDefault s htype .both (ho.bothDefault both hdeclared)
    refine ⟨⟨hvalue, ?_⟩, hissues⟩
    dsimp only
    split
    · exact hvalue
    · exact each_none
  · refine ⟨⟨hmodel, hpersist⟩, ?_⟩
    rw [List.cons_append]
    exact Issue.allLines_cons.mpr ⟨.lit (by decide), hboth⟩

end Defaults

/-! ### Fields -/

lemma withLines_typeOf (s : Site) (name : String) {parsed : FieldExpr} (h : parsed.HasLines) :
    WithLines (Each TypeDef.HasLines) (typeOf s name parsed) := by
  have hexpr : ∀ code, Issue.AllLines (parsed.issues.map fun i => s.issue code i.message i.start i.stop) :=
    fun code => Issue.allLines_map h.issues
  unfold typeOf
  dsimp only
  split
  · exact ⟨each_none, hexpr _⟩
  rename_i expr hsome
  obtain ⟨htype, hproblems⟩ := (h.type expr hsome).build
  have hissues := fun code => Issue.allLines_append.mpr ⟨hexpr code, Issue.allLines_map (f := fun p : TypeProblem =>
    s.issue .invalidFieldType p.message p.start p.stop) hproblems⟩
  split
  · exact ⟨each_none, hissues _⟩
  rename_i type hbuild
  split
  · exact ⟨each_none, Issue.allLines_append.mpr ⟨hissues _, Issue.allLines_singleton (.lit (by decide))⟩⟩
  · exact ⟨each_some (htype type hbuild), hissues _⟩

lemma withLines_ofExpr (s : Site) {entry : MappingEntry} (hkey : IsLine entry.key) {parsed : FieldExpr}
    (h : parsed.HasLines) : WithLines (Each FieldDraft.HasLines) (ofExpr s entry parsed) := by
  obtain ⟨htype, hissues⟩ := withLines_typeOf s entry.key h
  unfold ofExpr
  generalize typeOf s entry.key parsed = t at htype hissues ⊢
  split
  · exact ⟨each_none, hissues⟩
  rename_i type issues
  have htype : type.HasLines := htype type rfl
  have hnone : Options.HasLines {} := ⟨each_none, each_none, each_none, each_none⟩
  obtain ⟨hoptions, hoptionIssues⟩ := withLines_addOptions s hnone h.options
  obtain ⟨hdefaults, hdefaultIssues⟩ := withLines_defaultsOf s htype
    (s.owner == .tableClass && ((addOptions s {} parsed.options).1.persist.map (·.value)).getD true) hoptions
  refine ⟨each_some ⟨hkey, htype, hoptions.relation, hdefaults⟩, ?_⟩
  exact Issue.allLines_append.mpr ⟨Issue.allLines_append.mpr ⟨hissues, hoptionIssues⟩, hdefaultIssues⟩

/-- A field of an entry of lines, and what is wrong with it. -/
theorem withLines_ofEntry (lineStarts : List Nat) (owner : FieldOwner) {entry : MappingEntry}
    (h : MappingEntry.HasLines entry) : WithLines (Each FieldDraft.HasLines) (ofEntry lineStarts owner entry) := by
  unfold ofEntry
  dsimp only
  split
  · exact ⟨each_none, Issue.allLines_singleton (h.key.between (by decide) (by decide))⟩
  have hvalue := h.value
  generalize entry.value = value at hvalue ⊢
  split
  · exact withLines_ofExpr _ h.key (FieldExpr.hasLines_read (hvalue.text rfl))
  · exact ⟨each_none, Issue.allLines_singleton (h.key.between (by decide) (by decide))⟩

lemma withLines_ofEntries (lineStarts : List Nat) (owner : FieldOwner) {es : List MappingEntry}
    (h : ∀ e ∈ es, MappingEntry.HasLines e) :
    WithLines (fun fs => ∀ f ∈ fs, f.HasLines) (ofEntries lineStarts owner es) := by
  induction es with
  | nil => exact ⟨List.forall_mem_nil _, Issue.allLines_nil⟩
  | cons e es ih =>
    obtain ⟨he, hes⟩ := List.forall_mem_cons.mp h
    exact (withLines_ofEntry lineStarts owner he).cons (ih hes)

end FieldDraft

end EntitySchema
