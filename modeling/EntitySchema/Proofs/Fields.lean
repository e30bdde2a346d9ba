import Mathlib.Data.List.Basic
import Mathlib.Tactic.Common
import EntitySchema.Entity.Field
import EntitySchema.Proofs.Diagnostics
import EntitySchema.Proofs.FieldExpr.Pieces
import EntitySchema.Proofs.Types.WellFormed

/-!
# What is read of a field

A field that has been read has a well formed type and no relation yet, and is stored unless it says
otherwise (`declared_of_ofEntry`).  Every issue about a field is an error.  So without errors no entry of
the `fields` mapping is left out, and no relation clause of an expression is lost: the clause becomes an
option of the expression (`exists_relation_option`), and the option becomes the relation option of the
field (`relationOption_of_ofEntry`).
-/

namespace EntitySchema

/-! ### Clauses of an expression -/
namespace FieldExpr

/-- The segment is a relation clause. -/
def IsRelationClause (s : Segment) : Prop :=
  s.text = "relation" ∨ relationOpening.isPrefixOf s.text.toList = true

/-- The expression has a relation clause behind its type. -/
def HasRelationClause (text : String) : Prop :=
  ∃ s ∈ (Segment.split text.toList).tail, IsRelationClause s

instance (s : Segment) : Decidable (IsRelationClause s) :=
  inferInstanceAs (Decidable (_ ∨ _))

instance (text : String) : Decidable (HasRelationClause text) :=
  inferInstanceAs (Decidable (∃ s ∈ (Segment.split text.toList).tail, IsRelationClause s))

/-- An expression without a type has an issue. -/
lemma issues_ne_nil_of_type {text : String} (h : (read text).type = none) : (read text).issues ≠ [] := by
  unfold read at h ⊢
  split at h
  · rename_i hnil
    exact absurd hnil (Segment.split_ne_nil _ _)
  · rename_i typeSegment rest hsplit
    dsimp only at h
    split at h
    · cases h
    · simp

/-- The type of an expression has no colon in its names. -/
lemma clean_type {text : String} {e : TypeExpr} (h : (read text).type = some e) : e.Clean := by
  unfold read at h
  split at h
  · cases h
  · dsimp only at h
    split at h
    · rename_i t ht
      cases h
      unfold readType at ht
      split at ht
      · cases ht
      · split at ht
        · rename_i hread
          cases ht
          exact TypeExpr.Clean.shift _ _ (TypeExpr.clean_read hread)
        · cases ht
    · cases h

/-- A relation clause that is read without an issue is a relation. -/
lemma readOption_of_clause {s : Segment} (hs : IsRelationClause s) (h : (readOption s).2 = []) :
    ∃ ps, (readOption s).1 = some (.relation ps) := by
  have hnot : ∀ text : String, s.text = text → text ≠ "relation" →
      relationOpening.isPrefixOf text.toList = false → False := by
    rintro _ rfl hne hstart
    rcases hs with hs | hs
    · exact hne hs
    · rw [hstart] at hs
      cases hs
  unfold readOption at h ⊢
  split at h
  · rename_i hempty
    rw [String.isEmpty_iff] at hempty
    exact (hnot "" hempty (by decide) (by decide)).elim
  split at h
  · rename_i hpersist
    rw [beq_iff_eq] at hpersist
    exact (hnot "persist" hpersist (by decide) (by decide)).elim
  split at h
  · rename_i hpersist
    rw [beq_iff_eq] at hpersist
    exact (hnot "!persist" hpersist (by decide) (by decide)).elim
  rename_i h₁ h₂ h₃
  have hclause : (s.text == "relation" || relationOpening.isPrefixOf s.text.toList) = true := by
    simpa [IsRelationClause] using hs
  rw [if_pos hclause] at h
  rw [if_neg h₁, if_neg h₂, if_neg h₃, if_pos hclause]
  unfold readRelation at h ⊢
  split at h
  · rename_i hword
    exact ⟨[], by rw [if_pos hword]⟩
  · rename_i hword
    rw [if_neg hword]
    dsimp only at h ⊢
    split at h
    · cases h
    · rename_i hclosed
      rw [if_neg hclosed]
      exact ⟨_, rfl⟩

/-- Options that are read without an issue contain the one of every segment. -/
lemma mem_readOptions {seen : List String} {ss : List Segment} (h : (readOptions seen ss).2 = []) :
    ∀ s ∈ ss, (readOption s).2 = [] ∧
      ∀ body, (readOption s).1 = some body → ⟨body, s⟩ ∈ (readOptions seen ss).1 := by
  induction ss generalizing seen with
  | nil => simp
  | cons s ss ih =>
    rw [readOptions] at h ⊢
    cases hb : (readOption s).1 with
    | none =>
      simp only [hb, List.append_eq_nil_iff] at h ⊢
      intro s' hs'
      rcases List.mem_cons.mp hs' with rfl | hs'
      · exact ⟨h.1, by simp [hb]⟩
      · exact ih h.2 s' hs'
    | some body =>
      simp only [hb] at h ⊢
      split at h
      · simp at h
      · rename_i hseen
        simp only [List.append_eq_nil_iff] at h
        rw [if_neg hseen]
        intro s' hs'
        rcases List.mem_cons.mp hs' with rfl | hs'
        · refine ⟨h.1, fun body' hbody' => ?_⟩
          rw [hb] at hbody'
          obtain rfl := Option.some.inj hbody'
          exact List.mem_cons_self
        · obtain ⟨hissues, hmem⟩ := ih h.2 s' hs'
          exact ⟨hissues, fun body' hbody' => List.mem_cons_of_mem _ (hmem body' hbody')⟩

/-- A relation clause of an expression without issues is one of its options. -/
theorem exists_relation_option {text : String} (hclause : HasRelationClause text)
    (h : (read text).issues = []) : ∃ o ∈ (read text).options, ∃ ps, o.body = .relation ps := by
  obtain ⟨s, hs, hrelation⟩ := hclause
  unfold read at h ⊢
  cases hsplit : Segment.split text.toList with
  | nil => exact absurd hsplit (Segment.split_ne_nil _ _)
  | cons typeSegment rest =>
    rw [hsplit, List.tail_cons] at hs
    simp only [hsplit] at h ⊢
    cases ht : readType typeSegment with
    | error i => simp [ht] at h
    | ok t =>
      simp only [ht] at h ⊢
      obtain ⟨hissues, hmem⟩ := mem_readOptions h s hs
      obtain ⟨ps, hps⟩ := readOption_of_clause hrelation hissues
      exact ⟨_, hmem _ hps, ps, rfl⟩

end FieldExpr

/-! ### Fields -/

/-- Only a scalar has a text. -/
lemma DocNode.text?_eq_some {n : DocNode} {text : String} (h : n.text? = some text) :
    ∃ contentOffset range span, n = .scalar (.text text) contentOffset range span := by
  unfold text? at h
  split at h
  · cases h
    exact ⟨_, _, _, rfl⟩
  · cases h

namespace FieldDraft

/-- What is known of a field that has been read. -/
structure Declared (owner : FieldOwner) (f : FieldDraft) : Prop where
  unrelated : f.relation = none
  wellFormed : f.type.WellFormed TypeDef.IsName
  id : owner = .tableClass → f.name = "id" → isIdType f.type = true
  stored : owner = .tableClass → f.shouldPersist = false → f.persistSpan ≠ none ∧ f.origin = .declared
  option : owner ≠ .tableClass → f.relationOption = none

/-- The type of a field is well formed, and one of a primary key if the field is. -/
lemma typeOf_eq_some {s : Site} {name : String} {parsed : FieldExpr} {t : TypeDef}
    (hclean : ∀ e, parsed.type = some e → e.Clean) (h : (typeOf s name parsed).1 = some t) :
    t.WellFormed TypeDef.IsName ∧ (s.owner = .tableClass → name = "id" → isIdType t = true) := by
  unfold typeOf at h
  dsimp only at h
  cases he : parsed.type with
  | none => simp [he] at h
  | some expr =>
    simp only [he] at h
    split at h
    · cases h
    rename_i type htype
    have hwf := TypeExpr.wellFormed_build expr (hclean expr he) htype
    split at h
    · cases h
    · rename_i hid
      obtain rfl := Option.some.inj h
      refine ⟨hwf, fun howner hname => ?_⟩
      simpa [howner, hname] using hid

/-- A field without a type has an issue. -/
lemma issues_ne_nil_of_typeOf {s : Site} {name : String} {parsed : FieldExpr}
    (hparsed : parsed.type = none → parsed.issues ≠ []) (h : (typeOf s name parsed).1 = none) :
    (typeOf s name parsed).2 ≠ [] := by
  unfold typeOf at h ⊢
  dsimp only at h ⊢
  cases he : parsed.type with
  | none => simpa [he] using hparsed he
  | some expr =>
    simp only [he] at h ⊢
    split at h
    · rename_i hnone
      have hproblems := TypeExpr.problems_ne_nil_of_build expr hnone
      simp [hproblems]
    rename_i type htype
    split at h
    · rename_i hid
      simp [hid]
    · cases h

/-- An expression with issues leaves issues about the field. -/
lemma issues_of_typeOf {s : Site} {name : String} {parsed : FieldExpr} (h : (typeOf s name parsed).2 = []) :
    parsed.issues = [] := by
  unfold typeOf at h
  dsimp only at h
  split at h
  · simpa using h
  · split at h
    · simp only [List.append_eq_nil_iff, List.map_eq_nil_iff] at h
      exact h.1
    · split at h <;> simp only [List.append_eq_nil_iff, List.map_eq_nil_iff] at h
      · exact h.1.1
      · exact h.1

/-! Every issue about a field is an error. -/

lemma allErrors_typeOf (s : Site) (name : String) (parsed : FieldExpr) :
    Issue.AllErrors (typeOf s name parsed).2 := by
  have hmap : ∀ code, Issue.AllErrors (parsed.issues.map fun i => s.issue code i.message i.start i.stop) :=
    fun code => Issue.allErrors_map fun _ => rfl
  unfold typeOf
  dsimp only
  split
  · exact hmap _
  · rename_i expr he
    have hproblems : Issue.AllErrors
        (expr.build.2.map fun p => s.issue .invalidFieldType p.message p.start p.stop) :=
      Issue.allErrors_map fun _ => rfl
    split
    · simp [hmap, hproblems]
    · split
      · refine Issue.allErrors_append.mpr ⟨Issue.allErrors_append.mpr ⟨hmap _, hproblems⟩, ?_⟩
        simp [Site.issue]
      · exact Issue.allErrors_append.mpr ⟨hmap _, hproblems⟩

lemma allErrors_addParameters (s : Site) (o : RelationOption) (ps : List RelationParameter) :
    Issue.AllErrors (addParameters s o ps).2 := by
  induction ps generalizing o with
  | nil => exact Issue.allErrors_nil
  | cons p ps ih =>
    rw [addParameters, Issue.allErrors_append]
    refine ⟨?_, ih _⟩
    unfold addParameter
    dsimp only
    split <;> (try split) <;> simp [Site.optionIssue, Site.issue]

lemma allErrors_addOptions (s : Site) (o : Options) (os : List FieldOption) :
    Issue.AllErrors (addOptions s o os).2 := by
  induction os generalizing o with
  | nil => exact Issue.allErrors_nil
  | cons option os ih =>
    rw [addOptions, Issue.allErrors_append]
    refine ⟨?_, ih _⟩
    unfold addOption
    split
    · simp [Site.optionIssue, Site.issue]
    · split <;> simp [allErrors_addParameters]

lemma allErrors_checkedDefault (s : Site) (type : TypeDef) (key : DefaultKey) (d : DeclaredDefault) :
    Issue.AllErrors (checkedDefault s type key d).2 := by
  unfold checkedDefault
  split <;> simp [Site.defaultIssue, Site.issue]

lemma allErrors_defaultsOf (s : Site) (type : TypeDef) (shouldPersist : Bool) (o : Options) :
    Issue.AllErrors (defaultsOf s type shouldPersist o).2 := by
  have hdeclared : ∀ d f, (∀ d, Issue.AllErrors (f d).2) → Issue.AllErrors (onDeclared d f).2 := by
    intro d f hf
    unfold onDeclared
    cases d with
    | none => exact Issue.allErrors_nil
    | some d => exact hf d
  have hmodel := hdeclared o.modelDefault _ (allErrors_checkedDefault s type .model)
  have hpersist : Issue.AllErrors
      (onDeclared o.persistDefault (checkedPersistDefault s type shouldPersist)).2 := by
    refine hdeclared _ _ fun d => ?_
    unfold checkedPersistDefault
    split
    · simp [Site.defaultIssue, Site.issue]
    · exact allErrors_checkedDefault s type .persist d
  unfold defaultsOf
  dsimp only
  split
  · simp [hmodel, hpersist]
  · split
    · exact allErrors_checkedDefault s type .both _
    · simp [hmodel, hpersist, Site.defaultIssue, Site.issue]

lemma allErrors_ofExpr (s : Site) (entry : MappingEntry) (parsed : FieldExpr) :
    Issue.AllErrors (ofExpr s entry parsed).2 := by
  have htype := allErrors_typeOf s entry.key parsed
  unfold ofExpr
  split
  · rename_i h
    rwa [h] at htype
  · rename_i h
    rw [h] at htype
    simp [htype, allErrors_addOptions, allErrors_defaultsOf]

lemma allErrors_ofEntry (lineStarts : List Nat) (owner : FieldOwner) (entry : MappingEntry) :
    Issue.AllErrors (ofEntry lineStarts owner entry).2 := by
  unfold ofEntry
  dsimp only
  split
  · simp
  · split
    · exact allErrors_ofExpr _ _ _
    · simp

lemma allErrors_ofEntries (lineStarts : List Nat) (owner : FieldOwner) (es : List MappingEntry) :
    Issue.AllErrors (ofEntries lineStarts owner es).2 := by
  induction es with
  | nil => exact Issue.allErrors_nil
  | cons e es ih =>
    rw [ofEntries, Issue.allErrors_append]
    exact ⟨allErrors_ofEntry _ _ _, ih⟩

/-! ### Options of a field -/

/-- An option never takes the relation option away. -/
lemma relation_addOption {s : Site} {o : Options} {option : FieldOption} (h : o.relation ≠ none) :
    (addOption s o option).1.relation ≠ none := by
  unfold addOption
  split
  · exact h
  · split
    · exact h
    · exact h
    · exact Option.some_ne_none _
    · exact h
    · exact h
    · exact h

/-- A relation among the options of a field of a class with a table is its relation option. -/
lemma relation_addOptions {s : Site} (hs : s.owner = .tableClass) {o : Options} {os : List FieldOption}
    (h : o.relation ≠ none ∨ ∃ option ∈ os, ∃ ps, option.body = .relation ps) :
    (addOptions s o os).1.relation ≠ none := by
  induction os generalizing o with
  | nil =>
    rcases h with h | ⟨option, hmem, -⟩
    · exact h
    · cases hmem
  | cons option os ih =>
    rw [addOptions]
    refine ih ?_
    rcases h with h | ⟨option', hmem, ps, hbody⟩
    · exact Or.inl (relation_addOption h)
    · rcases List.mem_cons.mp hmem with rfl | hmem
      · left
        unfold addOption
        simp [hbody, refusal?, hs]
      · exact Or.inr ⟨option', hmem, ps, hbody⟩

/-- Only a field of a class with a table has a relation option. -/
lemma relation_addOptions_eq_none {s : Site} (hs : s.owner ≠ .tableClass) {o : Options}
    {os : List FieldOption} (h : o.relation = none) : (addOptions s o os).1.relation = none := by
  induction os generalizing o with
  | nil => exact h
  | cons option os ih =>
    rw [addOptions]
    refine ih ?_
    unfold addOption
    split
    · exact h
    · rename_i hrefusal
      split
      · exact h
      · exact h
      · rename_i parameters hbody
        -- A relation would have been refused.
        rw [hbody] at hrefusal
        cases howner : s.owner with
        | tableClass => exact absurd howner hs
        | plainClass | exception => simp [refusal?, howner] at hrefusal
      · exact h
      · exact h
      · exact h

/-! ### Entries of the mapping -/

lemma declared_of_ofExpr {s : Site} {entry : MappingEntry} {parsed : FieldExpr} {f : FieldDraft}
    (hclean : ∀ e, parsed.type = some e → e.Clean) (h : (ofExpr s entry parsed).1 = some f) :
    f.name = entry.key ∧ Declared s.owner f := by
  unfold ofExpr at h
  split at h
  · cases h
  rename_i type issues htype
  obtain ⟨hwf, hid⟩ := typeOf_eq_some hclean (congrArg Prod.fst htype)
  cases h
  refine ⟨rfl, rfl, hwf, hid, ?_, fun howner => relation_addOptions_eq_none howner rfl⟩
  refine fun howner hstored => ⟨fun hspan => ?_, rfl⟩
  simp only [Option.map_eq_none_iff] at hspan
  simp [howner, hspan] at hstored

/-- A field that has been read has the name of its entry, and is as declared. -/
theorem declared_of_ofEntry {lineStarts : List Nat} {owner : FieldOwner} {entry : MappingEntry}
    {f : FieldDraft} (h : (ofEntry lineStarts owner entry).1 = some f) :
    f.name = entry.key ∧ Declared owner f := by
  unfold ofEntry at h
  dsimp only at h
  split at h
  · cases h
  split at h
  · exact declared_of_ofExpr (fun e he => FieldExpr.clean_type he) h
  · cases h

/-- An entry that is read without an issue is a field. -/
lemma isSome_of_ofEntry {lineStarts : List Nat} {owner : FieldOwner} {entry : MappingEntry}
    (h : (ofEntry lineStarts owner entry).2 = []) : (ofEntry lineStarts owner entry).1.isSome := by
  unfold ofEntry at h ⊢
  dsimp only at h ⊢
  split at h
  · cases h
  rename_i hname
  rw [if_neg hname]
  split at h
  · rename_i text contentOffset range nodeSpan
    unfold ofExpr at h ⊢
    split at h
    · rename_i issues htype
      have hissues := issues_ne_nil_of_typeOf FieldExpr.issues_ne_nil_of_type (congrArg Prod.fst htype)
      rw [htype] at hissues
      exact absurd h hissues
    · rfl
  · cases h

/-- A field whose expression has a relation clause has a relation option, if there is no issue. -/
theorem relationOption_of_ofEntry {lineStarts : List Nat} {entry : MappingEntry} {f : FieldDraft}
    {text : String} (htext : entry.value.text? = some text) (hclause : FieldExpr.HasRelationClause text)
    (hno : (ofEntry lineStarts .tableClass entry).2 = [])
    (h : (ofEntry lineStarts .tableClass entry).1 = some f) : f.relationOption ≠ none := by
  obtain ⟨contentOffset, range, span, hvalue⟩ := DocNode.text?_eq_some htext
  unfold ofEntry at h hno
  dsimp only at h hno
  split at h
  · cases h
  rename_i hname
  rw [if_neg hname] at hno
  simp only [hvalue] at h hno
  unfold ofExpr at h hno
  split at h
  · cases h
  rename_i type issues htype
  simp only [htype, List.append_eq_nil_iff] at hno
  cases h
  refine relation_addOptions rfl (Or.inr (FieldExpr.exists_relation_option hclause ?_))
  exact issues_of_typeOf ((congrArg Prod.snd htype).trans hno.1.1)

/-- The fields of a mapping are those of its entries. -/
lemma mem_ofEntries {lineStarts : List Nat} {owner : FieldOwner} {es : List MappingEntry}
    {f : FieldDraft} :
    f ∈ (ofEntries lineStarts owner es).1 ↔ ∃ e ∈ es, (ofEntry lineStarts owner e).1 = some f := by
  induction es with
  | nil => simp [ofEntries]
  | cons e es ih => simp [ofEntries, ih]

/-- Fields that are read without an issue have no issue one by one. -/
lemma issues_of_ofEntries {lineStarts : List Nat} {owner : FieldOwner} {es : List MappingEntry}
    (h : (ofEntries lineStarts owner es).2 = []) : ∀ e ∈ es, (ofEntry lineStarts owner e).2 = [] := by
  induction es with
  | nil => simp
  | cons e es ih =>
    rw [ofEntries, List.append_eq_nil_iff] at h
    intro e' he'
    rcases List.mem_cons.mp he' with rfl | he'
    · exact h.1
    · exact ih h.2 e' he'

end FieldDraft

end EntitySchema
