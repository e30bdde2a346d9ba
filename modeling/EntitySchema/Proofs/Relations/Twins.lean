import Mathlib.Data.List.Basic
import Mathlib.Tactic.Common
import EntitySchema.Proofs.EntityOrder
import EntitySchema.Proofs.Relations.HiddenKeys

/-!
# One relation among entities in another order

Where the same entities stand in another order (`Rearranged`), a class is looked up at another position, but
it is the same class (`Site.Twin.tableClass`).  Two sites are twins if they resolve the same relation and their
classes have the same own fields at this moment; the hidden keys may differ.  If the relation of one of them
is resolved without an issue, and the hidden keys that it adds are new to the other one, then the other one
makes the same changes at its own positions (`Site.Twin.resolve`).
-/

namespace EntitySchema

/-- Two positions of one entity. -/
def EntityIndex.SamePlace (index index' : EntityIndex) (i i' : Nat) : Prop :=
  ∃ e, index.entities[i]? = some e ∧ index'.entities[i']? = some e

/-- A change in both orders: it is made of the same things at the positions of the same entity. -/
inductive Change.Twin (index index' : EntityIndex) : Change → Change → Prop
  | relate {i i' : Nat} {n : String} {r : RelationDef} (h : index.SamePlace index' i i') :
      Twin index index' (.relate i n r) (.relate i' n r)
  | insertAfter {i i' : Nat} {a : String} {k : FieldDraft} (h : index.SamePlace index' i i') :
      Twin index index' (.insertAfter i a k) (.insertAfter i' a k)
  | append {i i' : Nat} {k : FieldDraft} (h : index.SamePlace index' i i') :
      Twin index index' (.append i k) (.append i' k)

namespace FieldDraft

/-- Fields that say the same about their relations. -/
structure Agrees (f f' : FieldDraft) : Prop where
  name : f'.name = f.name
  type : f'.type = f.type
  option : f'.relationOption = f.relationOption

variable {f f' : FieldDraft}

lemma Agrees.keyFieldName?_eq (h : f.Agrees f') : f'.keyFieldName? = f.keyFieldName? := by
  simp only [keyFieldName?, h.option]

lemma Agrees.objectKey_eq (h : f.Agrees f') : f'.objectKey = f.objectKey := by
  simp only [objectKey, h.keyFieldName?_eq, h.name]

end FieldDraft

namespace RelationResolution

/-! ### Rearranged entities -/

/-- The same entities, in two orders, with types that have been resolved and unique tables. -/
structure Rearranged (index index' : EntityIndex) : Prop extends index.Permuted index' where
  legible : Legible index
  tables : index.entities.Pairwise fun e e' => ∀ t, e.table? = some t → e'.table? ≠ some t

/-- Being legible does not depend on the order. -/
lemma Legible.of_perm {index index' : EntityIndex} (h : Legible index)
    (hperm : index.entities.Perm index'.entities) : Legible index' where
  unrelated e he := h.unrelated e (hperm.mem_iff.mpr he)
  types e he f hf := by
    refine (h.types e (hperm.mem_iff.mpr he) f hf).mono ?_
    rintro t ⟨e', he', hreference⟩
    exact ⟨e', hperm.mem_iff.mp he', hreference⟩
  id e he := h.id e (hperm.mem_iff.mpr he)
  names e he := h.names e (hperm.mem_iff.mpr he)

namespace Rearranged

variable {index index' : EntityIndex}

protected lemma symm (h : Rearranged index index') : Rearranged index' index :=
  { h.toPermuted.symm with
    legible := h.legible.of_perm h.entities
    tables := (h.entities.pairwise_iff fun hne t ht' ht => hne t ht ht').mp h.tables }

/-- One order is the same as itself. -/
protected lemma left (h : Rearranged index index') : Rearranged index index :=
  ⟨⟨.refl _, .refl _, h.keys⟩, h.legible, h.tables⟩

/-- An entity has one place. -/
lemma place_unique (h : Rearranged index index') {i j : Nat} {e : Entity} (hi : index.entities[i]? = some e)
    (hj : index.entities[j]? = some e) : i = j :=
  eq_of_pairwise h.keys hi hj (fun hne => hne rfl) fun hne => hne rfl

/-- Positions are the same in one order just if they are the same in the other one. -/
lemma samePlace_iff (h : Rearranged index index') {i i' j j' : Nat} (hi : index.SamePlace index' i i')
    (hj : index.SamePlace index' j j') : i' = j' ↔ i = j := by
  obtain ⟨e, hei, hei'⟩ := hi
  obtain ⟨e', hej, hej'⟩ := hj
  constructor
  · rintro rfl
    obtain rfl := Option.some.inj (hei'.symm.trans hej')
    exact h.place_unique hei hej
  · rintro rfl
    obtain rfl := Option.some.inj (hei.symm.trans hej)
    exact h.symm.place_unique hei' hej'

/-- The class with a table is the same in both orders. -/
lemma findTable?_eq (h : Rearranged index index') {table : String} {l : Located}
    (hl : index.findTable? table = some l) : ∃ i', index'.findTable? table = some ⟨i', l.entity⟩ := by
  have hne := EntityIndex.ne_empty_of_findTable? hl
  rw [EntityIndex.findTable?_eq_first _ hne] at hl ⊢
  refine h.first_eq (h.symm.tables.imp fun hne hp => ?_) hl
  simp only [beq_iff_eq] at hp
  exact hne table hp.1 hp.2

end Rearranged

/-! ### Twins -/

/-- A class with a table in both orders. -/
structure TableClass.Twin (index index' : EntityIndex) (c c' : TableClass) : Prop where
  belongs : c.Belongs index
  belongs' : c'.Belongs index'
  entity : c'.entity = c.entity

/-- The hidden keys that changes add are new. -/
def NewKeys (index index' : EntityIndex) (w' : Workspace) (cs : List Change) : Prop :=
  ∀ i i' k, .append i k ∈ cs → index.SamePlace index' i i' → w'.find? i' k.name = none

/-- The second outcome has no issue, and its changes are those of the first one. -/
structure Outcome.Twin (index index' : EntityIndex) (o o' : Outcome) : Prop where
  issues : o'.issues = []
  changes : List.Forall₂ (Change.Twin index index') o.changes o'.changes

/-- A relation that is resolved in both orders, at moments at which its class has the same own fields. -/
structure Site.Twin (s s' : Site) : Prop where
  arranged : Rearranged s.index s'.index
  owner : TableClass.Twin s.index s'.index s.owner s'.owner
  field : s'.field = s.field
  option : s'.option = s.option
  name : Naming.isFieldName s.field.name = true
  orderly : Orderly s.index s.workspace
  orderly' : Orderly s'.index s'.workspace
  own : s'.workspace.own s'.owner.position = s.workspace.own s.owner.position

namespace TableClass.Twin

variable {index index' : EntityIndex} {c c' : TableClass}

lemma samePlace (h : TableClass.Twin index index' c c') : index.SamePlace index' c.position c'.position :=
  ⟨c.entity, h.belongs.entity, h.entity ▸ h.belongs'.entity⟩

lemma table (h : TableClass.Twin index index' c c') : c'.table = c.table := by
  have htable := h.belongs'.table
  rw [h.entity, h.belongs.table] at htable
  exact (Option.some.inj htable).symm

end TableClass.Twin

namespace Site.Twin

variable {s s' : Site} {c c' : TableClass}

/-! ### What both sites see -/

/-- The class that a type stands for. -/
lemma tableClass (h : s.Twin s') {t : TypeDef} (ht : s.tableClass t = .ok c) :
    ∃ c', s'.tableClass t = .ok c' ∧ TableClass.Twin s.index s'.index c c' := by
  obtain ⟨hclass, htable⟩ := tableClass_eq_ok_iff.mp ht
  obtain ⟨i', hi'⟩ := h.arranged.findClass?_eq hclass
  have hclass' : s'.tableClass t = .ok ⟨i', c.entity, c.table⟩ := tableClass_eq_ok_iff.mpr ⟨hi', htable⟩
  exact ⟨_, hclass', belongs_of_tableClass ht, belongs_of_tableClass hclass', rfl⟩

/-- The type of a primary key. -/
lemma idType (h : s.Twin s') (hc : TableClass.Twin s.index s'.index c c') :
    s'.workspace.idType c'.position = s.workspace.idType c.position := by
  obtain ⟨id, hid, -⟩ := h.arranged.legible.exists_id hc.belongs
  have hid' : (initial s'.index).find? c'.position "id" = some id := by
    rw [Workspace.find?, fieldsAt_initial hc.belongs.entity] at hid
    rw [Workspace.find?, fieldsAt_initial hc.belongs'.entity, hc.entity]
    exact hid
  rw [h.orderly.idType_eq hid, h.orderly'.idType_eq hid']

/-- What is found in the own class under a name that a document can give. -/
lemma find?_own (h : s.Twin s') {n : String} (hn : Naming.isFieldName n = true) :
    s'.workspace.find? s'.owner.position n = s.workspace.find? s.owner.position n := by
  rw [h.orderly'.parted.find?_eq _ hn, h.orderly.parted.find?_eq _ hn, h.own]

/-- What the fields of a class say about their relations. -/
lemma optioned_eq (h : s.Twin s') (hc : TableClass.Twin s.index s'.index c c') :
    (s'.workspace.fieldsAt c'.position).filterMap FieldDraft.optioned? =
      (s.workspace.fieldsAt c.position).filterMap FieldDraft.optioned? := by
  rw [h.orderly'.parted.optioned_eq, h.orderly'.optioned, h.orderly.parted.optioned_eq, h.orderly.optioned,
    fieldsAt_initial hc.belongs'.entity, fieldsAt_initial hc.belongs.entity, hc.entity]

/-- The counterpart of a named relation. -/
lemma counterpart (h : s.Twin s') (hc : TableClass.Twin s.index s'.index c c') {name : Spanned String}
    {g : FieldDraft} (hg : s.counterpart c name = .ok g) :
    ∃ g', s'.counterpart c' name = .ok g' ∧ g.Agrees g' := by
  have hoptioned : ∀ (s : Site) (c : TableClass), ∀ f ∈ s.counterparts c name.value,
      ∃ o, f.relationOption = some o := by
    intro s c f hf
    have hname := (List.mem_filter.mp hf).2
    rw [Bool.and_eq_true, beq_iff_eq, FieldDraft.relationName?] at hname
    obtain ⟨o, ho, -⟩ := Option.bind_eq_some_iff.mp hname.1
    exact ⟨o, ho⟩
  rw [counterpart_eq_ok_iff] at hg
  obtain ⟨o, ho⟩ := hoptioned s c g (by simp [hg])
  have hposition : (c'.position == s'.owner.position) = (c.position == s.owner.position) := by
    rw [Bool.eq_iff_iff, beq_iff_eq, beq_iff_eq]
    exact h.arranged.samePlace_iff hc.samePlace h.owner.samePlace
  have hsame := s'.counterparts_optioned? c' name.value
  rw [h.optioned_eq hc, h.field, hposition, ← s.counterparts_optioned? c name.value, hg] at hsame
  -- Every possible counterpart has a relation option, so there is only one here too.
  obtain ⟨g', hg', hdata⟩ : ∃ g', s'.counterparts c' name.value = [g'] ∧ g.optioned? = g'.optioned? := by
    have hsome : g.optioned? = some (g.name, g.type, o) := by simp [FieldDraft.optioned?, ho]
    rw [List.filterMap_cons, hsome, List.filterMap_nil] at hsame
    have hoptioned' := hoptioned s' c'
    cases hall : s'.counterparts c' name.value with
    | nil => simp [hall] at hsame
    | cons g' gs =>
      rw [hall] at hsame hoptioned'
      obtain ⟨o', ho'⟩ := hoptioned' g' List.mem_cons_self
      have hsome' : g'.optioned? = some (g'.name, g'.type, o') := by simp [FieldDraft.optioned?, ho']
      rw [List.filterMap_cons, hsome', List.cons.injEq] at hsame
      refine ⟨g', ?_, by rw [hsome, hsome', hsame.1]⟩
      rw [List.filterMap_eq_nil_iff] at hsame
      cases gs with
      | nil => rfl
      | cons g'' gs =>
        obtain ⟨o'', ho''⟩ := hoptioned' g'' (by simp)
        have hnone := hsame.2 g'' List.mem_cons_self
        simp [FieldDraft.optioned?, ho''] at hnone
  obtain ⟨hname, htype, hoption⟩ := FieldDraft.eq_of_optioned? hdata ho
  exact ⟨g', counterpart_eq_ok_iff.mpr hg', hname.symm, htype.symm, hoption.trans ho.symm⟩

/-! ### The side that holds the key -/

section KeySide

variable (h : s.Twin s') (hc : TableClass.Twin s.index s'.index c c')
include h hc

/-- Both sites hold the key themselves. -/
lemma keySide_own (hside : s.keySide c = .ok .own) : s'.keySide c' = .ok .own := by
  rw [keySide_eq_own_iff] at hside ⊢
  rw [h.option, h.owner.entity]
  rcases hside with hnone | ⟨name, g, hname, hg, hkey⟩
  · exact Or.inl hnone
  · obtain ⟨g', hg', hagrees⟩ := h.counterpart hc hg
    refine Or.inr ⟨name, g', hname, hg', ?_⟩
    rw [hagrees.type, hagrees.keyFieldName?_eq]
    exact hkey

/-- The counterparts of both sites hold the key. -/
lemma keySide_other {g : FieldDraft} (hside : s.keySide c = .ok (.other g)) :
    ∃ g', s'.keySide c' = .ok (.other g') ∧ g'.objectKey = g.objectKey := by
  obtain ⟨name, hname, hg, hpoints, hfield, hkey⟩ := keySide_eq_other_iff.mp hside
  obtain ⟨g', hg', hagrees⟩ := h.counterpart hc hg
  refine ⟨g', keySide_eq_other_iff.mpr ⟨name, ?_, hg', ?_, ?_, ?_⟩, hagrees.objectKey_eq⟩
  · rw [h.option]
    exact hname
  · rw [hagrees.type, h.owner.entity]
    exact hpoints
  · rw [h.option]
    exact hfield
  · rw [hagrees.keyFieldName?_eq]
    exact hkey

/-- Both sites leave it to their counterparts to report that the key is undecided. -/
lemma keySide_undecided (hside : s.keySide c = .error []) : s'.keySide c' = .error [] := by
  obtain ⟨name, g, hname, hg, hpoints, hboth, hlater⟩ := keySide_eq_error_nil_iff.mp hside
  obtain ⟨g', hg', hagrees⟩ := h.counterpart hc hg
  refine keySide_eq_error_nil_iff.mpr ⟨name, g', ?_, hg', ?_, ?_, ?_⟩
  · rw [h.option]
    exact hname
  · rw [hagrees.type, h.owner.entity]
    exact hpoints
  · rw [h.option, hagrees.keyFieldName?_eq]
    exact hboth
  · rw [h.owner.entity, h.field, hc.entity, hagrees.name]
    exact hlater

end KeySide

/-! ### What both sites make -/

section Made

variable (h : s.Twin s')
include h

lemma issueAt_eq (span : Span) (message : String) : s'.issueAt span message = s.issueAt span message := by
  simp only [issueAt, issueOf, h.field]

lemma refuse_eq (keys : List RelationKey) (message : RelationKey → String) :
    s'.refuse keys message = s.refuse keys message := by
  simp only [refuse, h.issueAt_eq, h.option]

lemma nullableIssues_eq : s'.nullableIssues = s.nullableIssues := by
  unfold nullableIssues
  rw [h.field, h.issueAt_eq]

lemma hiddenKeyName_eq : s'.hiddenKeyName = s.hiddenKeyName := by
  unfold hiddenKeyName
  rw [h.owner.entity, h.field]

lemma hiddenKey_eq : s'.hiddenKey = s.hiddenKey := by
  simp only [hiddenKey, hiddenKeyRelation, h.hiddenKeyName_eq, h.idType h.owner, h.field, h.owner.entity,
    h.owner.table]

lemma addedKeyName_eq : s'.addedKeyName = s.addedKeyName := by
  simp only [addedKeyName, h.field]

lemma parentRelation_eq (parent : String) : s'.parentRelation parent = s.parentRelation parent := by
  simp only [parentRelation, h.option]

/-- The relation of the field itself. -/
lemma twin_relate (r : RelationDef) :
    Change.Twin s.index s'.index (.relate s.owner.position s.field.name r)
      (.relate s'.owner.position s'.field.name r) := by
  rw [h.field]
  exact .relate h.owner.samePlace

variable (hc : TableClass.Twin s.index s'.index c c')
include hc

lemma keyRelation_eq : s'.keyRelation c' = s.keyRelation c := by
  simp only [keyRelation, hc.table, h.option, h.field, h.owner.entity]

lemma addedKey_eq : s'.addedKey c' = s.addedKey c := by
  simp only [addedKey, h.addedKeyName_eq, h.idType hc, h.keyRelation_eq hc, h.field, h.option]

lemma objectRelation_eq (own other : Option String) :
    s'.objectRelation c' own other = s.objectRelation c own other := by
  simp only [objectRelation, h.option, hc.entity, hc.table]

lemma listRelation_eq (key : String) (isImplicit : Bool) :
    s'.listRelation c' key isImplicit = s.listRelation c key isImplicit := by
  simp only [listRelation, h.option, hc.entity, hc.table]

/-- The declared key of an object field is linked. -/
lemma linkKey_eq {key : Spanned String} {change : Change} (hlink : s.linkKey c key = .ok change) :
    ∃ change', s'.linkKey c' key = .ok change' ∧ Change.Twin s.index s'.index change change' := by
  obtain ⟨rfl, existing, hfind, hoption, hrelation, htype, hnull⟩ := linkKey_eq_ok_iff.mp hlink
  -- A field without a relation is no hidden key.
  have hname : Naming.isFieldName key.value = true := by
    by_contra hreserved
    have hmem := Workspace.mem_hiddenKeys_of_find? hfind (Bool.of_not_eq_true hreserved)
    obtain ⟨r, hr⟩ := (h.orderly.parted _ _ hmem).relation
    rw [hrelation] at hr
    cases hr
  refine ⟨_, linkKey_eq_ok_iff.mpr ⟨rfl, existing, ?_, hoption, hrelation, ?_, ?_⟩, ?_⟩
  · rw [h.find?_own hname]
    exact hfind
  · rw [h.idType hc]
    exact htype
  · rw [h.option]
    exact hnull
  · rw [h.keyRelation_eq hc]
    exact .relate h.owner.samePlace

/-- A key is added for an object field. -/
lemma addKey_eq {change : Change} (hadd : s.addKey c = .ok change) :
    ∃ change', s'.addKey c' = .ok change' ∧ Change.Twin s.index s'.index change change' := by
  obtain ⟨rfl, hnew⟩ := addKey_eq_ok_iff.mp hadd
  refine ⟨_, addKey_eq_ok_iff.mpr ⟨rfl, ?_⟩, ?_⟩
  · rw [h.addedKeyName_eq, h.find?_own (isFieldName_addedKeyName h.name)]
    exact hnew
  · rw [h.addedKey_eq hc, h.field]
    exact .insertAfter h.owner.samePlace

/-- The counterpart of a named list field holds the key. -/
lemma counterpartKey_eq {name : Spanned String} {key : String} (hkey : s.counterpartKey c name = .ok key) :
    s'.counterpartKey c' name = .ok key := by
  obtain ⟨g, hg, hkind⟩ := counterpartKey_eq_ok_iff.mp hkey
  obtain ⟨g', hg', hagrees⟩ := h.counterpart hc hg
  refine counterpartKey_eq_ok_iff.mpr ⟨g', hg', ?_⟩
  rw [hagrees.type, hagrees.objectKey_eq, hagrees.option, hagrees.name, h.owner.entity, h.owner.table]
  exact hkind

/-! ### Outcomes -/

/-- An object field whose own class holds the key. -/
lemma resolveOwnKey_eq (hno : (s.resolveOwnKey c).issues = []) :
    Outcome.Twin s.index s'.index (s.resolveOwnKey c) (s'.resolveOwnKey c') := by
  unfold resolveOwnKey at hno ⊢
  rw [h.option]
  cases hkey : s.option.field with
  | some key =>
    cases hlink : s.linkKey c key with
    | error i => simp [hkey, hlink, Outcome.failed] at hno
    | ok change =>
      obtain ⟨change', hlink', htwin⟩ := h.linkKey_eq hc hlink
      simp only [hlink, hlink', h.objectRelation_eq hc]
      exact ⟨rfl, .cons htwin (.cons (h.twin_relate _) .nil)⟩
  | none =>
    cases hadd : s.addKey c with
    | error i => simp [hkey, hadd, Outcome.failed] at hno
    | ok change =>
      obtain ⟨change', hadd', htwin⟩ := h.addKey_eq hc hadd
      simp only [hadd', h.objectRelation_eq hc, h.addedKeyName_eq]
      exact ⟨rfl, .cons htwin (.cons (h.twin_relate _) .nil)⟩

/-- An object field. -/
lemma resolveObject_eq (hno : (s.resolveObject c).issues = []) :
    Outcome.Twin s.index s'.index (s.resolveObject c) (s'.resolveObject c') := by
  unfold resolveObject at hno ⊢
  cases hside : s.keySide c with
  | error issues =>
    simp only [hside, Outcome.failed] at hno
    subst hno
    rw [h.keySide_undecided hc hside]
    exact ⟨rfl, .nil⟩
  | ok side =>
    cases side with
    | own =>
      simp only [hside] at hno
      rw [h.keySide_own hc hside]
      exact h.resolveOwnKey_eq hc hno
    | other g =>
      obtain ⟨g', hside', hkey⟩ := h.keySide_other hc hside
      simp only [hside, resolveOtherKey] at hno
      simp only [hside', resolveOtherKey, h.refuse_eq, h.objectRelation_eq hc, hkey]
      exact ⟨hno, .cons (h.twin_relate _) .nil⟩

/-- A list field. -/
lemma resolveList_eq (hno : (s.resolveList c).issues = [])
    (hnew : NewKeys s.index s'.index s'.workspace (s.resolveList c).changes) :
    Outcome.Twin s.index s'.index (s.resolveList c) (s'.resolveList c') := by
  unfold resolveList at hno hnew ⊢
  simp only [Outcome.after, List.append_eq_nil_iff, listRefusals, h.refuse_eq, h.option] at hno hnew ⊢
  obtain ⟨hrefusals, hno⟩ := hno
  cases hname : s.option.name with
  | some name =>
    cases hkey : s.counterpartKey c name with
    | error i => simp [hname, hkey, Outcome.failed] at hno
    | ok key =>
      simp only [hkey, h.counterpartKey_eq hc hkey, h.listRelation_eq hc]
      refine ⟨by simpa using hrefusals, .cons (h.twin_relate _) .nil⟩
  | none =>
    cases hadd : s.addHiddenKey c with
    | error i => simp [hname, hadd, Outcome.failed] at hno
    | ok change =>
      obtain ⟨rfl, -⟩ := addHiddenKey_eq_ok_iff.mp hadd
      have hfree : s'.workspace.find? c'.position s'.hiddenKeyName = none := by
        rw [h.hiddenKeyName_eq]
        simp only [hname, hadd] at hnew
        exact hnew _ _ _ List.mem_cons_self hc.samePlace
      simp only [addHiddenKey_eq_ok_iff.mpr ⟨rfl, hfree⟩, h.hiddenKeyName_eq, h.hiddenKey_eq,
        h.listRelation_eq hc]
      exact ⟨by simpa using hrefusals, .cons (.append hc.samePlace) (.cons (h.twin_relate _) .nil)⟩

end Made

section Resolved

variable (h : s.Twin s')
include h

/-- A field that holds an object or a list. -/
lemma resolveTarget_eq {t : TypeDef} {link link' : TableClass → Outcome}
    (hlink : ∀ c c', TableClass.Twin s.index s'.index c c' → (link c).issues = [] →
      NewKeys s.index s'.index s'.workspace (link c).changes →
        Outcome.Twin s.index s'.index (link c) (link' c'))
    (hno : (s.resolveTarget t link).issues = [])
    (hnew : NewKeys s.index s'.index s'.workspace (s.resolveTarget t link).changes) :
    Outcome.Twin s.index s'.index (s.resolveTarget t link) (s'.resolveTarget t link') := by
  unfold resolveTarget at hno hnew ⊢
  cases ht : s.tableClass t with
  | error i => simp [ht, Outcome.failed] at hno
  | ok c =>
    obtain ⟨c', ht', hc⟩ := h.tableClass ht
    simp only [ht, Outcome.after, List.append_eq_nil_iff] at hno hnew
    have htwin := hlink c c' hc hno.2 hnew
    simp only [ht', Outcome.after, h.nullableIssues_eq]
    exact ⟨by rw [hno.1, htwin.issues]; rfl, htwin.changes⟩

/-- A field that is a key. -/
lemma resolveParent_eq {p : Spanned String} (hno : (s.resolveParent p).issues = []) :
    Outcome.Twin s.index s'.index (s.resolveParent p) (s'.resolveParent p) := by
  unfold resolveParent at hno ⊢
  rw [h.field]
  by_cases hscalar : s.field.type.category != .scalar
  · simp [hscalar, Outcome.failed] at hno
  rw [if_neg hscalar] at hno ⊢
  cases hlink : s.linkParent p with
  | error i => simp [hlink, Outcome.failed] at hno
  | ok change =>
    obtain ⟨rfl, l, htable, htype, hnull⟩ := linkParent_eq_ok_iff.mp hlink
    obtain ⟨i', htable'⟩ := h.arranged.findTable?_eq htable
    have hl : TableClass.Twin s.index s'.index ⟨l.position, l.entity, p.value⟩ ⟨i', l.entity, p.value⟩ := by
      obtain ⟨hget, hltable⟩ := EntityIndex.findTable?_eq_some htable
      obtain ⟨hget', -⟩ := EntityIndex.findTable?_eq_some htable'
      exact ⟨⟨hget, hltable⟩, ⟨hget', hltable⟩, rfl⟩
    have hlink' : s'.linkParent p = .ok _ := linkParent_eq_ok_iff.mpr
      ⟨rfl, _, htable', by rw [h.field, h.idType hl]; exact htype, by rw [h.field, h.option]; exact hnull⟩
    simp only [hlink] at hno
    simp only [hlink', h.refuse_eq, h.parentRelation_eq, if_neg hscalar]
    exact ⟨hno, .cons (h.twin_relate _) .nil⟩

end Resolved

end Site.Twin

/-- A relation that is resolved without an issue is resolved in the same way by its twin, if the hidden keys
that it adds are new there. -/
theorem Site.Twin.resolve {s s' : Site} (h : s.Twin s') (hno : s.resolve.issues = [])
    (hnew : NewKeys s.index s'.index s'.workspace s.resolve.changes) :
    Outcome.Twin s.index s'.index s.resolve s'.resolve := by
  unfold Site.resolve at hno hnew ⊢
  rw [h.option, h.field]
  cases hp : s.option.parent with
  | some p =>
    simp only [hp] at hno
    exact h.resolveParent_eq hno
  | none =>
    simp only [hp] at hno hnew ⊢
    split
    · exact ⟨rfl, .nil⟩
    rename_i hunresolved
    rw [if_neg hunresolved] at hno hnew
    split
    · rename_i hcategory
      rw [if_pos hcategory] at hno hnew
      exact h.resolveTarget_eq (fun c c' hc hno _ => h.resolveObject_eq hc hno) hno hnew
    rename_i hcategory
    rw [if_neg hcategory] at hno hnew
    split
    · rename_i t helement
      simp only [helement] at hno hnew
      exact h.resolveTarget_eq (fun c c' hc => h.resolveList_eq hc) hno hnew
    · rename_i helement
      simp [helement, Outcome.failed] at hno

end RelationResolution

end EntitySchema
