import Mathlib.Data.List.Basic
import Mathlib.Tactic.Common
import EntitySchema.Proofs.Lines.Passes
import EntitySchema.Proofs.Relations.Keys

/-!
# Relations of one line

Every visit of a field keeps a workspace of lines one, because the keys that it adds are named after fields and classes,
and what it reports are lines (`RelationResolution.Site.hasLines_resolve`).  By induction on the visits the same holds
of the whole pass (`RelationResolution.hasLines_resolve`, `RelationResolution.allLines_resolve`).
-/

namespace EntitySchema

lemma TypeDef.HasLines.listElement? {t element : TypeDef} (h : t.HasLines) (he : t.listElement? = some element) :
    element.HasLines := by
  unfold TypeDef.listElement? at he
  split at he
  · exact h.generics element (List.mem_of_head? he)
  · cases he

/-- What a change adds has lines only. -/
def Change.HasLines (c : Change) : Prop :=
  ∀ k, c.key? = some k → k.HasLines

lemma Change.hasLines_relate (position : Nat) (name : String) (r : RelationDef) : (relate position name r).HasLines :=
  fun _ hk => nomatch hk

/-- All fields have lines only. -/
def Workspace.HasLines (w : Workspace) : Prop :=
  ∀ i, ∀ f ∈ w.fieldsAt i, f.HasLines

namespace Workspace.HasLines

variable {w : Workspace} (h : w.HasLines)

include h

lemma find? {i : Nat} {name : String} {f : FieldDraft} (hf : w.find? i name = some f) : f.HasLines :=
  h i f (mem_of_find? hf)

lemma idType (i : Nat) : (w.idType i).HasLines := by
  unfold Workspace.idType
  split
  · rename_i id hid
    exact (h.find? hid).type.withNullable false
  · exact TypeDef.hasLines_scalar (.lit (by decide)) false

lemma apply {c : Change} (hc : c.HasLines) : (w.apply c).HasLines := by
  intro i f hf
  rcases mem_fieldsAt_apply hf with hf | ⟨d, r, hd, -, rfl⟩ | ⟨-, hk⟩
  · exact h i f hf
  · have hd := h.find? hd
    exact ⟨hd.name, hd.type, hd.option, hd.defaults⟩
  · exact hc f hk

lemma applyAll {cs : List Change} (hcs : ∀ c ∈ cs, c.HasLines) : (w.applyAll cs).HasLines := by
  induction cs generalizing w with
  | nil => exact h
  | cons c cs ih =>
    obtain ⟨hc, hcs⟩ := List.forall_mem_cons.mp hcs
    exact ih (h.apply hc) hcs

end Workspace.HasLines

namespace RelationResolution

/-- Issues whose messages are lines, and changes that add lines only. -/
structure Outcome.HasLines (o : Outcome) : Prop where
  issues : Issue.AllLines o.issues
  changes : ∀ c ∈ o.changes, c.HasLines

lemma Outcome.hasLines_failed {issues : List Issue} (h : Issue.AllLines issues) : (Outcome.failed issues).HasLines :=
  ⟨h, List.forall_mem_nil _⟩

lemma Outcome.HasLines.after {o : Outcome} (h : o.HasLines) {issues : List Issue} (hissues : Issue.AllLines issues) :
    (o.after issues).HasLines :=
  ⟨Issue.allLines_append.mpr ⟨hissues, h.issues⟩, h.changes⟩

namespace Site

/-- What the field is, and what it is resolved against, has lines only. -/
structure HasLines (s : Site) : Prop where
  entities : ∀ e ∈ s.index.entities, e.HasLines
  workspace : s.workspace.HasLines
  owner : s.owner.entity.HasLines
  field : s.field.HasLines
  option : s.option.HasLines

/-! ### Names of added keys -/

lemma toLower_ne_lineFeed {c : Char} (h : c ≠ '\n') : c.toLower ≠ '\n' := by
  unfold Char.toLower
  split
  · intro heq
    have hval := congrArg Char.val heq
    dsimp only at hval
    grind
  · exact h

lemma toUpper_ne_lineFeed {c : Char} (h : c ≠ '\n') : c.toUpper ≠ '\n' := by
  unfold Char.toUpper
  split
  · intro heq
    have hval := congrArg Char.val heq
    dsimp only at hval
    grind
  · exact h

/-- A line of which only the first character is replaced. -/
lemma isLine_replaceFirst {name : String} (h : IsLine name) {c : Char} {cs : List Char} (hname : name.toList = c :: cs)
    {c' : Char} (hc : c ≠ '\n' → c' ≠ '\n') : IsLine (String.ofList (c' :: cs)) := by
  rw [IsLine, hname, List.mem_cons, not_or] at h
  exact .lit (List.not_mem_cons_of_ne_of_not_mem (hc (Ne.symm h.1)).symm h.2)

lemma isLine_lowerFirst {name : String} (h : IsLine name) : IsLine (lowerFirst name) := by
  unfold lowerFirst
  split
  · rename_i hname
    exact isLine_replaceFirst h hname toLower_ne_lineFeed
  · exact h

lemma isLine_upperFirst {name : String} (h : IsLine name) : IsLine (upperFirst name) := by
  unfold upperFirst
  split
  · rename_i hname
    exact isLine_replaceFirst h hname toUpper_ne_lineFeed
  · exact h

/-! ### Messages -/

lemma isLine_keySideOnly (key : RelationKey) : IsLine (keySideOnly key) :=
  (FieldExpr.isLine_word key).between (by decide) (by decide)

lemma allLines_refuse (s : Site) (keys : List RelationKey) {message : RelationKey → String}
    (hmessage : ∀ key, IsLine (message key)) : Issue.AllLines (s.refuse keys message) := by
  refine Issue.allLines_filterMap fun key _ i hi => ?_
  obtain ⟨span, -, rfl⟩ := Option.map_eq_some_iff.mp hi
  exact hmessage key

lemma isLine_nullRequired (s : Site) {key : String} (hkey : IsLine key) : IsLine (s.nullRequired key).message :=
  hkey.between (by decide) (by decide)

section Steps

variable {s : Site} (h : s.HasLines)

include h

lemma allLines_nullableIssues : Issue.AllLines s.nullableIssues := by
  unfold nullableIssues
  split
  · exact Issue.allLines_nil
  · exact Issue.allLines_singleton (h.field.name.between (by decide) (by decide))

/-- The class that a type of lines stands for has lines only. -/
lemma either_tableClass {t : TypeDef} (ht : t.HasLines) :
    Either (fun target : TableClass => target.entity.HasLines) (fun i : Issue => IsLine i.message)
      (s.tableClass t) := by
  have hmissing : IsLine (tableClass.missing s t).message := ht.name.between (by decide) (by decide)
  unfold tableClass
  split
  · rename_i position entity hfind
    split
    · exact h.entities _ (List.mem_of_getElem? (EntityIndex.findClass?_eq_some hfind).2.2.1)
    · exact hmissing
  · exact hmissing

section Target

variable {target : TableClass} (htarget : target.entity.HasLines)

include htarget

/-- The field on the other side of a relation has lines only. -/
lemma either_counterpart {name : Spanned String} (hname : IsLine name.value) :
    Either FieldDraft.HasLines (fun i : Issue => IsLine i.message) (s.counterpart target name) := by
  have hcandidates : ∀ f ∈ s.counterparts target name.value, f.HasLines :=
    fun f hf => h.workspace target.position f (List.mem_of_mem_filter hf)
  unfold counterpart
  generalize s.counterparts target name.value = candidates at hcandidates ⊢
  split
  · exact hcandidates _ List.mem_cons_self
  · exact (hname.between (by decide) (by decide)).and htarget.className (by decide)
  · exact ((hname.between (by decide) (by decide)).and (isLine_natText candidates.length) (by decide)).and
      htarget.className (by decide)

lemma isLine_unrelated {name : Spanned String} (hname : IsLine name.value) {f : FieldDraft} (hf : f.HasLines) :
    IsLine (s.unrelated target name f).message :=
  (((htarget.className.between (by decide) (by decide)).and hf.name (by decide)).and hname (by decide)).and
    h.owner.className (by decide)

/-- The side that holds the key, and the field there, if it is the other one. -/
lemma either_keySide :
    Either (fun side => ∀ f, side = KeySide.other f → f.HasLines) Issue.AllLines (s.keySide target) := by
  unfold keySide
  split
  · exact fun f hf => nomatch hf
  rename_i name hoption
  have hname : IsLine name.value := h.option.name name hoption
  have hcounterpart := either_counterpart h htarget hname
  have hundecided : ∀ f, Issue.AllLines (s.undecided target name f) := by
    intro f
    unfold undecided
    split
    · exact Issue.allLines_singleton (hname.between (by decide) (by decide))
    · exact Issue.allLines_nil
  split
  · rename_i i hi
    exact Issue.allLines_singleton (hcounterpart.of_error hi)
  rename_i f hf
  have hf : f.HasLines := hcounterpart.of_ok hf
  split
  · split
    · exact fun f hf => nomatch hf
    · intro f' hf'
      cases hf'
      exact hf
    · exact hundecided f
  split
  · exact fun f hf => nomatch hf
  · exact Issue.allLines_singleton (isLine_unrelated h htarget hname hf)

/-! ### Object fields -/

lemma either_linkKey {key : Spanned String} (hkey : IsLine key.value) :
    Either Change.HasLines (fun i : Issue => IsLine i.message) (s.linkKey target key) := by
  have hidType := (h.workspace.idType target.position).describe
  unfold linkKey
  dsimp only
  split
  · exact (hkey.between (by decide) (by decide)).and h.owner.className (by decide)
  split
  · exact hkey.between (by decide) (by decide)
  split
  · exact ((hkey.between (by decide) (by decide)).and hidType (by decide)).and htarget.className (by decide)
  split
  · exact isLine_nullRequired s hkey
  · exact Change.hasLines_relate _ _ _

omit htarget in
lemma isLine_addedKeyName : IsLine s.addedKeyName :=
  h.field.name.append (.lit (by decide))

omit htarget in
lemma either_addKey (target : TableClass) :
    Either Change.HasLines (fun i : Issue => IsLine i.message) (s.addKey target) := by
  have hname := isLine_addedKeyName h
  unfold addKey
  dsimp only
  split
  · exact ((hname.between (by decide) (by decide)).and h.owner.className (by decide)).and hname (by decide)
  · intro k hk
    cases hk
    exact ⟨hname, (h.workspace.idType target.position).withNullable _, each_none, each_none, each_none⟩

lemma hasLines_resolveOwnKey : (s.resolveOwnKey target).HasLines := by
  unfold resolveOwnKey
  dsimp only
  split
  · rename_i i hi
    refine Outcome.hasLines_failed (Issue.allLines_singleton ?_)
    split at hi
    · rename_i key hkey
      exact (either_linkKey h htarget (h.option.field key hkey)).of_error hi
    · exact (either_addKey h target).of_error hi
  · rename_i change hchange
    refine ⟨Issue.allLines_nil, List.forall_mem_cons.mpr ⟨?_, List.forall_mem_singleton.mpr ?_⟩⟩
    · split at hchange
      · rename_i key hkey
        exact (either_linkKey h htarget (h.option.field key hkey)).of_ok hchange
      · exact (either_addKey h target).of_ok hchange
    · exact Change.hasLines_relate _ _ _

lemma hasLines_resolveObject : (s.resolveObject target).HasLines := by
  have hside := either_keySide h htarget
  unfold resolveObject
  split
  · rename_i issues hissues
    exact Outcome.hasLines_failed (hside.of_error hissues)
  · exact hasLines_resolveOwnKey h htarget
  · exact ⟨allLines_refuse s _ isLine_keySideOnly, List.forall_mem_singleton.mpr (Change.hasLines_relate _ _ _)⟩

/-! ### List fields -/

lemma isLine_of_counterpartKey {name : Spanned String} (hname : IsLine name.value) {i : Issue}
    (hi : s.counterpartKey target name = .error i) : IsLine i.message := by
  have hcounterpart := either_counterpart h htarget hname
  unfold counterpartKey at hi
  split at hi
  · rename_i i' hi'
    cases hi
    exact hcounterpart.of_error hi'
  rename_i f hf
  split at hi
  · cases hi
  split at hi
  · cases hi
  · cases hi
    exact isLine_unrelated h htarget hname (hcounterpart.of_ok hf)

omit htarget in
lemma isLine_hiddenKeyName : IsLine s.hiddenKeyName := by
  have hclass := h.owner.className
  exact ((((IsLine.lit (by decide)).append (isLine_lowerFirst hclass)).append (isLine_upperFirst h.field.name)).append
    hclass).append (.lit (by decide))

lemma either_addHiddenKey :
    Either Change.HasLines (fun i : Issue => IsLine i.message) (s.addHiddenKey target) := by
  have hname := isLine_hiddenKeyName h
  unfold addHiddenKey
  dsimp only
  split
  · exact (hname.between (by decide) (by decide)).and htarget.className (by decide)
  · intro k hk
    cases hk
    exact ⟨hname, (h.workspace.idType s.owner.position).withNullable true, each_none, each_none, each_none⟩

lemma hasLines_resolveList : (s.resolveList target).HasLines := by
  have hrefusals : Issue.AllLines s.listRefusals :=
    Issue.allLines_append.mpr ⟨allLines_refuse s _ isLine_keySideOnly,
      allLines_refuse s _ fun key => (FieldExpr.isLine_word key).between (by decide) (by decide)⟩
  unfold resolveList
  refine Outcome.HasLines.after ?_ hrefusals
  split
  · rename_i name hname
    split
    · rename_i i hi
      exact Outcome.hasLines_failed
        (Issue.allLines_singleton (isLine_of_counterpartKey h htarget (h.option.name name hname) hi))
    · exact ⟨Issue.allLines_nil, List.forall_mem_singleton.mpr (Change.hasLines_relate _ _ _)⟩
  · have hadded := either_addHiddenKey h htarget
    split
    · rename_i i hi
      exact Outcome.hasLines_failed (Issue.allLines_singleton (hadded.of_error hi))
    · rename_i change hchange
      exact ⟨Issue.allLines_nil, List.forall_mem_cons.mpr
        ⟨hadded.of_ok hchange, List.forall_mem_singleton.mpr (Change.hasLines_relate _ _ _)⟩⟩

end Target

/-! ### Keys -/

lemma either_linkParent {parent : Spanned String} (hparent : IsLine parent.value) :
    Either Change.HasLines (fun i : Issue => IsLine i.message) (s.linkParent parent) := by
  unfold linkParent
  split
  · exact hparent.between (by decide) (by decide)
  rename_i l _
  dsimp only
  split
  · exact ((h.field.name.between (by decide) (by decide)).and (h.workspace.idType l.position).describe
      (by decide)).and hparent (by decide)
  split
  · exact isLine_nullRequired s h.field.name
  · exact Change.hasLines_relate _ _ _

lemma hasLines_resolveParent {parent : Spanned String} (hparent : IsLine parent.value) :
    (s.resolveParent parent).HasLines := by
  have hlink := either_linkParent h hparent
  have hrefusals : Issue.AllLines (s.refuse [.field, .optional] fun key =>
      "The \"" ++ key.word ++ "\" parameter cannot be combined with \"parent\".") :=
    allLines_refuse s _ fun key => (FieldExpr.isLine_word key).between (by decide) (by decide)
  unfold resolveParent
  split
  · exact Outcome.hasLines_failed (Issue.allLines_singleton (h.field.type.describe.between (by decide) (by decide)))
  dsimp only
  split
  · rename_i i hi
    exact Outcome.hasLines_failed
      (Issue.allLines_append.mpr ⟨hrefusals, Issue.allLines_singleton (hlink.of_error hi)⟩)
  · rename_i change hchange
    exact ⟨hrefusals, List.forall_mem_singleton.mpr (hlink.of_ok hchange)⟩

/-! ### Fields -/

lemma hasLines_resolveTarget {t : TypeDef} (ht : t.HasLines) {link : TableClass → Outcome}
    (hlink : ∀ target : TableClass, target.entity.HasLines → (link target).HasLines) :
    (s.resolveTarget t link).HasLines := by
  have htarget := either_tableClass h ht
  unfold resolveTarget
  split
  · rename_i i hi
    exact Outcome.hasLines_failed (Issue.allLines_singleton (htarget.of_error hi))
  · rename_i target hok
    exact (hlink target (htarget.of_ok hok)).after (allLines_nullableIssues h)

/-- Resolving one relation of lines gives lines. -/
theorem hasLines_resolve : s.resolve.HasLines := by
  have hnothing : Outcome.HasLines {} := ⟨Issue.allLines_nil, List.forall_mem_nil _⟩
  unfold resolve
  dsimp only
  split
  · rename_i parent hparent
    exact hasLines_resolveParent h (h.option.parent parent hparent)
  split
  · exact hnothing
  split
  · exact hasLines_resolveTarget h h.field.type fun _ htarget => hasLines_resolveObject h htarget
  split
  · rename_i element helement
    exact hasLines_resolveTarget h (h.field.type.listElement? (Option.filter_eq_some_iff.mp helement).1)
      fun _ htarget => hasLines_resolveList h htarget
  · exact Outcome.hasLines_failed (Issue.allLines_singleton ((IsLine.lit (by decide)).append (.lit (by decide))))

end Steps

end Site

/-! ### All relations -/

section Visits

variable {index : EntityIndex}

/-- After visits of fields of lines the workspace has lines only, and what they report are lines. -/
lemma withLines_runAll (h : ∀ e ∈ index.entities, e.HasLines) {w : Workspace} (hw : w.HasLines) {vs : List Visit}
    (hvs : ∀ v ∈ vs, v.owner.entity.HasLines ∧ v.declared.HasLines ∧ v.option.HasLines) :
    (runAll index w vs).1.HasLines ∧ Diagnostic.AllLines (runAll index w vs).2 := by
  induction vs generalizing w with
  | nil => exact ⟨hw, List.forall_mem_nil _⟩
  | cons v vs ih =>
    obtain ⟨⟨howner, hdeclared, hoption⟩, hvs⟩ := List.forall_mem_cons.mp hvs
    have hfield : (v.site index w).field.HasLines := by
      cases hfind : w.find? v.owner.position v.declared.name with
      | none =>
        rw [Visit.site, hfind]
        exact hdeclared
      | some f =>
        rw [Visit.site_field hfind]
        exact hw.find? hfind
    have hresolved := Site.hasLines_resolve (s := v.site index w) ⟨h, hw, howner, hfield, hoption⟩
    obtain ⟨hresult, hmore⟩ := ih (hw.applyAll hresolved.changes) hvs
    exact ⟨hresult, List.forall_mem_append.mpr ⟨hresolved.issues.diagnostics _, hmore⟩⟩

lemma withLines_visited (h : ∀ e ∈ index.entities, e.HasLines) :
    (visited index).1.HasLines ∧ Diagnostic.AllLines (visited index).2 := by
  refine withLines_runAll h ?_ fun v hv => ?_
  · intro i f hf
    cases he : index.entities[i]? with
    | none => simp [initial, Workspace.ofEntities, Workspace.fieldsAt, List.getD_eq_getElem?_getD, he] at hf
    | some e =>
      rw [fieldsAt_initial he] at hf
      exact (h e (List.mem_of_getElem? he)).fields f hf
  · obtain ⟨hentity, -, hdeclared, hoption⟩ := Visit.mem_ofIndex.mp hv
    have howner := h _ (List.mem_of_getElem? hentity)
    have hfield := howner.fields _ hdeclared
    exact ⟨howner, hfield, hfield.option _ hoption⟩

/-- The entities of the pass are those of the index with other fields. -/
lemma exists_withFields {e' : Entity} (he' : e' ∈ (resolve index).1) :
    ∃ i, ∃ e ∈ index.entities, e' = e.withFields ((visited index).1.fieldsAt i) := by
  obtain ⟨i, hi⟩ := List.mem_iff_getElem?.mp he'
  rw [getElem?_resolve, Option.map_eq_some_iff] at hi
  obtain ⟨e, he, rfl⟩ := hi
  exact ⟨i, e, List.mem_of_getElem? he, rfl⟩

/-- Entities of lines are resolved to such entities. -/
theorem hasLines_resolve (h : ∀ e ∈ index.entities, e.HasLines) : ∀ e ∈ (resolve index).1, e.HasLines := by
  intro e' he'
  obtain ⟨i, e, he, rfl⟩ := exists_withFields he'
  exact (h e he).withFields ((withLines_visited h).1 i)

/-- Reports on relations of lines are lines. -/
theorem allLines_resolve (h : ∀ e ∈ index.entities, e.HasLines) : Diagnostic.AllLines (resolve index).2 := by
  rw [resolve_eq]
  exact (withLines_visited h).2

lemma allAbout_runAll {es : List Entity} (w : Workspace) {vs : List Visit} (hvs : ∀ v ∈ vs, v.owner.entity ∈ es) :
    Diagnostic.AllAbout es (runAll index w vs).2 := by
  induction vs generalizing w with
  | nil => exact List.forall_mem_nil _
  | cons v vs ih =>
    obtain ⟨hv, hvs⟩ := List.forall_mem_cons.mp hvs
    exact List.forall_mem_append.mpr ⟨Diagnostic.allAbout_diagnostics hv _, ih _ hvs⟩

lemma allAbout_resolve (index : EntityIndex) : Diagnostic.AllAbout index.entities (resolve index).2 := by
  rw [resolve_eq]
  exact allAbout_runAll _ fun v hv => List.mem_of_getElem? (Visit.mem_ofIndex.mp hv).1

end Visits

end RelationResolution

end EntitySchema
