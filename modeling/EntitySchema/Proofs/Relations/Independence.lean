import Mathlib.Data.List.Basic
import Mathlib.Data.List.Nodup
import Mathlib.Tactic.Common
import EntitySchema.Proofs.Relations.Twins

/-!
# Classes are resolved independently

The relations of a class make the same changes at every moment: those that they make if they are resolved
before all others, `alone` (`twin_runAll_ofEntity`).  So the fields of a class at last are its own fields as
its relations alone leave them, and behind them the hidden keys that every class alone adds, class by class
(`visited_of_rearranged`).  The order of the entities shows in the order of the hidden keys only, and
whether relations are resolved without an issue does not depend on it.
-/

namespace EntitySchema

namespace RelationResolution

open Workspace (hiddenKeysOf)

/-- The visits of an entity of the index are among all visits. -/
lemma Visit.mem_ofIndex_of_mem_ofEntity {index : EntityIndex} {i : Nat} {e : Entity}
    (he : index.entities[i]? = some e) {v : Visit} (hv : v ∈ ofEntity i e) : v ∈ ofIndex index := by
  obtain ⟨rfl, rfl, h⟩ := mem_ofEntity.mp hv
  exact mem_ofIndex.mpr ⟨he, h⟩

/-! ### What visits change -/

/-- The changes that visits make, one after the other. -/
def changesOf (index : EntityIndex) (w : Workspace) : List Visit → List Change
  | [] => []
  | v :: vs =>
    let changes := (v.site index w).resolve.changes
    changes ++ changesOf index (w.applyAll changes) vs

/-- A change is made by one of the visits. -/
lemma exists_visit_of_mem {index : EntityIndex} {w : Workspace} {vs : List Visit} {c : Change}
    (h : c ∈ changesOf index w vs) : ∃ v ∈ vs, ∃ u, c ∈ (v.site index u).resolve.changes := by
  induction vs generalizing w with
  | nil => cases h
  | cons v vs ih =>
    rcases List.mem_append.mp h with h | h
    · exact ⟨v, List.mem_cons_self, w, h⟩
    · obtain ⟨v', hv', hu⟩ := ih h
      exact ⟨v', List.mem_cons_of_mem v hv', hu⟩

/-- All issues of relations are errors. -/
lemma runAll_silent {index : EntityIndex} {w : Workspace} {vs : List Visit}
    (h : Diagnostic.hasErrors (runAll index w vs).2 = false) : (runAll index w vs).2 = [] := by
  induction vs generalizing w with
  | nil => rfl
  | cons v vs ih =>
    simp only [runAll, Diagnostic.hasErrors_append, Bool.or_eq_false_iff] at h ⊢
    rw [Issue.eq_nil_of_hasErrors_eq_false (Site.allErrors_resolve _) h.1, ih h.2]
    rfl

section Orderly

variable {index : EntityIndex} {w : Workspace} {vs : List Visit}
variable (hw : Orderly index w) (hi : Legible index) (hvs : ∀ v ∈ vs, v ∈ Visit.ofIndex index)
include hw hi hvs

/-- Visits leave the workspace orderly. -/
lemma Orderly.runAll : Orderly index (runAll index w vs).1 := by
  induction vs generalizing w with
  | nil => exact hw
  | cons v vs ih =>
    exact ih (hw.visit hi (hvs v List.mem_cons_self)) fun v' hv' => hvs v' (List.mem_cons_of_mem v hv')

/-- Visits add their hidden keys at the end. -/
lemma Orderly.hiddenKeys_runAll (j : Nat) :
    (RelationResolution.runAll index w vs).1.hiddenKeys j =
      w.hiddenKeys j ++ hiddenKeysOf (changesOf index w vs) j := by
  induction vs generalizing w with
  | nil => exact (List.append_nil _).symm
  | cons v vs ih =>
    have hv := hvs v List.mem_cons_self
    have htail := ih (hw.visit hi hv) fun v' hv' => hvs v' (List.mem_cons_of_mem v hv')
    simp only [RelationResolution.runAll, changesOf, Workspace.hiddenKeysOf_append]
    rw [htail, hw.parted.hiddenKeys_applyAll (hw.allTidy hi hv), List.append_assoc]

/-- Visits of one class edit its own fields. -/
lemma Orderly.own_runAll_self {i : Nat} (hpos : ∀ v ∈ vs, v.owner.position = i) :
    (RelationResolution.runAll index w vs).1.own i =
      Workspace.editOwn (changesOf index w vs) (w.own i) := by
  induction vs generalizing w with
  | nil => rfl
  | cons v vs ih =>
    have hv := hvs v List.mem_cons_self
    have htail := ih (hw.visit hi hv) (fun v' hv' => hvs v' (List.mem_cons_of_mem v hv'))
      fun v' hv' => hpos v' (List.mem_cons_of_mem v hv')
    have hself := hw.parted.own_applyAll_self (hw.allTidy hi hv)
    rw [hpos v List.mem_cons_self] at hself
    simp only [RelationResolution.runAll, changesOf, Workspace.editOwn, List.foldl_append]
    rw [htail, hself]
    rfl

/-- Visits of other classes leave the own fields of a class alone. -/
lemma Orderly.own_runAll_of_ne {j : Nat} (hpos : ∀ v ∈ vs, v.owner.position ≠ j) :
    (RelationResolution.runAll index w vs).1.own j = w.own j := by
  induction vs generalizing w with
  | nil => rfl
  | cons v vs ih =>
    have hv := hvs v List.mem_cons_self
    have htail := ih (hw.visit hi hv) (fun v' hv' => hvs v' (List.mem_cons_of_mem v hv'))
      fun v' hv' => hpos v' (List.mem_cons_of_mem v hv')
    simp only [RelationResolution.runAll]
    rw [htail, hw.parted.own_applyAll_of_ne (hw.allTidy hi hv) (hpos v List.mem_cons_self).symm]

end Orderly

/-! ### Twin changes -/

section Twin

variable {index index' : EntityIndex} {cs cs' : List Change}

/-- Twin changes edit fields in the same way. -/
lemma editOwn_of_twin (h : List.Forall₂ (Change.Twin index index') cs cs') (fs : List FieldDraft) :
    Workspace.editOwn cs' fs = Workspace.editOwn cs fs := by
  induction h generalizing fs with
  | nil => rfl
  | cons hc _ ih =>
    have hedit : ∀ {c c' : Change}, c.Twin index index' c' → c'.editOwn fs = c.editOwn fs := by
      rintro _ _ (_ | _ | _) <;> rfl
    simp only [Workspace.editOwn, List.foldl_cons, hedit hc] at ih ⊢
    exact ih _

/-- Twin changes add the same hidden keys to an entity. -/
lemma Rearranged.hiddenKeysOf_eq (h : Rearranged index index')
    (hcs : List.Forall₂ (Change.Twin index index') cs cs') {j j' : Nat} (hj : index.SamePlace index' j j') :
    hiddenKeysOf cs' j' = hiddenKeysOf cs j := by
  induction hcs with
  | nil => rfl
  | cons hc _ ih =>
    rw [Workspace.hiddenKeysOf_cons, Workspace.hiddenKeysOf_cons, ih]
    congr 2
    cases hc with
    | relate | insertAfter => rfl
    | append hp => simp only [Change.hiddenKey?, h.samePlace_iff hp hj]

/-! ### One class at two moments -/

section Visit

variable (h : Rearranged index index') {c c' : TableClass} (hc : TableClass.Twin index index' c c')
variable {w w' : Workspace} (hw : Orderly index w) (hw' : Orderly index' w')
variable {v v' : Visit}

include hw in
/-- The hidden keys that a visit adds are new where their names are. -/
lemma Orderly.newKeys (hi : Legible index) (hv : v ∈ Visit.ofIndex index)
    (hnodup : ∀ i i', index.SamePlace index' i i' →
      ((w'.hiddenKeys i' ++ hiddenKeysOf (v.site index w).resolve.changes i).map (·.name)).Nodup) :
    NewKeys index index' w' (v.site index w).resolve.changes := by
  intro i i' k hk hi'
  have hadded := Workspace.mem_hiddenKeysOf hk
  have hkey : k.IsHiddenKey := by
    have hmem := List.mem_append_right (w.hiddenKeys i) hadded
    rw [← hw.parted.hiddenKeys_applyAll (hw.allTidy hi hv)] at hmem
    exact (hw.visit hi hv).parted i k hmem
  by_contra hthere
  obtain ⟨f, hf⟩ := Option.ne_none_iff_exists'.mp hthere
  have hmem := Workspace.mem_hiddenKeys_of_find? hf hkey.name
  have hdisjoint := hnodup i i' hi'
  rw [List.map_append, List.nodup_append] at hdisjoint
  exact hdisjoint.2.2 _ (List.mem_map_of_mem hmem) _ (List.mem_map_of_mem hadded) (Workspace.name_of_find? hf)

include h hc hw hw' in
/-- Two visits of one field resolve the same relation, if the own fields of the class are the same. -/
lemma siteTwin_of_own (hv : v ∈ Visit.ofIndex index) (hdeclared : v'.declared = v.declared)
    (hoption : v'.option = v.option) (howner : v.owner = c) (howner' : v'.owner = c')
    (hown : w'.own c'.position = w.own c.position) : Site.Twin (v.site index w) (v'.site index' w') := by
  subst howner howner'
  have hname : Naming.isFieldName v.declared.name = true := h.legible.isFieldName_declared hv
  have hsame : w'.find? v'.owner.position v.declared.name = w.find? v.owner.position v.declared.name := by
    rw [hw'.parted.find?_eq _ hname, hw.parted.find?_eq _ hname, hown]
  constructor
  case arranged => exact h
  case owner => exact hc
  case field => simp only [Visit.site, hdeclared, hsame]
  case option => exact hoption
  case name =>
    rw [hw.toConsistent.name_site hv]
    exact hname
  case orderly => exact hw
  case orderly' => exact hw'
  case own => exact hown

end Visit

/-- Relations of one class that are resolved without an issue are resolved in the same way at another moment
and in another order, if the hidden keys that they add are new there. -/
lemma twin_runAll_ofFields (h : Rearranged index index') {c c' : TableClass}
    (hc : TableClass.Twin index index' c c') {fields : List FieldDraft}
    (hfields : ∀ f ∈ fields, f ∈ c.entity.fields) {w w' : Workspace} (hw : Orderly index w)
    (hw' : Orderly index' w') (hown : w'.own c'.position = w.own c.position)
    (hsilent : (runAll index w (Visit.ofFields c fields)).2 = [])
    (hnew : ∀ j j', index.SamePlace index' j j' →
      ((w'.hiddenKeys j' ++ hiddenKeysOf (changesOf index w (Visit.ofFields c fields)) j).map
        (·.name)).Nodup) :
    (runAll index' w' (Visit.ofFields c' fields)).2 = [] ∧
      List.Forall₂ (Change.Twin index index') (changesOf index w (Visit.ofFields c fields))
        (changesOf index' w' (Visit.ofFields c' fields)) := by
  induction fields generalizing w w' with
  | nil => exact ⟨rfl, .nil⟩
  | cons f fields ih =>
    have htail : ∀ f ∈ fields, f ∈ c.entity.fields := fun f hf => hfields f (List.mem_cons_of_mem _ hf)
    cases ho : f.relationOption with
    | none =>
      have hskip : ∀ c, Visit.ofFields c (f :: fields) = Visit.ofFields c fields := by
        simp [Visit.ofFields, ho]
      rw [hskip] at hsilent hnew
      rw [hskip, hskip]
      exact ih htail hw hw' hown hsilent hnew
    | some o =>
      have hvisit : ∀ c, Visit.ofFields c (f :: fields) = ⟨c, f, o⟩ :: Visit.ofFields c fields := by
        simp [Visit.ofFields, ho]
      have hlegible := h.symm.legible
      have hv : (⟨c, f, o⟩ : Visit) ∈ Visit.ofIndex index := Visit.mem_ofIndex.mpr
        ⟨hc.belongs.entity, hc.belongs.table, hfields f List.mem_cons_self, ho⟩
      have hv' : (⟨c', f, o⟩ : Visit) ∈ Visit.ofIndex index' := Visit.mem_ofIndex.mpr
        ⟨hc.belongs'.entity, hc.belongs'.table, hc.entity ▸ hfields f List.mem_cons_self, ho⟩
      rw [hvisit] at hsilent hnew
      simp only [runAll, changesOf, Workspace.hiddenKeysOf_append, List.append_eq_nil_iff,
        List.map_eq_nil_iff] at hsilent hnew
      -- The first visit makes twin changes.
      have hfresh : NewKeys index index' w' (Visit.site index ⟨c, f, o⟩ w).resolve.changes := by
        refine hw.newKeys h.legible hv fun j j' hj => ?_
        have hall := hnew j j' hj
        rw [← List.append_assoc, List.map_append] at hall
        exact hall.of_append_left
      have hsite : Site.Twin (Visit.site index ⟨c, f, o⟩ w) (Visit.site index' ⟨c', f, o⟩ w') :=
        siteTwin_of_own h hc hw hw' hv rfl rfl rfl rfl hown
      obtain ⟨hsilent', hchanges⟩ := hsite.resolve hsilent.1 hfresh
      -- So the own fields of the class are the same afterwards, and the other keys are still new.
      have hown' : (w'.applyAll (Visit.site index' ⟨c', f, o⟩ w').resolve.changes).own c'.position =
          (w.applyAll (Visit.site index ⟨c, f, o⟩ w).resolve.changes).own c.position := by
        have hself := hw.parted.own_applyAll_self (hw.allTidy h.legible hv)
        have hself' := hw'.parted.own_applyAll_self (hw'.allTidy hlegible hv')
        dsimp only at hself hself'
        rw [hself, hself', editOwn_of_twin hchanges, hown]
      have hrest := ih htail (hw.visit h.legible hv) (hw'.visit hlegible hv') hown' hsilent.2
        fun j j' hj => by
          rw [hw'.parted.hiddenKeys_applyAll (hw'.allTidy hlegible hv'), h.hiddenKeysOf_eq hchanges hj,
            List.append_assoc]
          exact hnew j j' hj
      rw [hvisit, hvisit]
      simp only [runAll, changesOf]
      rw [hsilent', hrest.1]
      exact ⟨rfl, List.rel_append hchanges hrest.2⟩

/-- The same for all relations of an entity. -/
lemma twin_runAll_ofEntity (h : Rearranged index index') {e : Entity} {i i' : Nat}
    (he : index.entities[i]? = some e) (he' : index'.entities[i']? = some e) {w w' : Workspace}
    (hw : Orderly index w) (hw' : Orderly index' w') (hown : w'.own i' = w.own i)
    (hsilent : (runAll index w (Visit.ofEntity i e)).2 = [])
    (hnew : ∀ j j', index.SamePlace index' j j' →
      ((w'.hiddenKeys j' ++ hiddenKeysOf (changesOf index w (Visit.ofEntity i e)) j).map (·.name)).Nodup) :
    (runAll index' w' (Visit.ofEntity i' e)).2 = [] ∧
      List.Forall₂ (Change.Twin index index') (changesOf index w (Visit.ofEntity i e))
        (changesOf index' w' (Visit.ofEntity i' e)) := by
  unfold Visit.ofEntity at hsilent hnew ⊢
  cases ht : e.table? with
  | none => exact ⟨rfl, .nil⟩
  | some table =>
    rw [ht] at hsilent hnew
    have htwin : TableClass.Twin index index' ⟨i, e, table⟩ ⟨i', e, table⟩ := ⟨⟨he, ht⟩, ⟨he', ht⟩, rfl⟩
    exact twin_runAll_ofFields h htwin (fun f hf => hf) hw hw' hown hsilent hnew

end Twin

/-! ### Every class alone -/

/-- The position of an entity. -/
def place (index : EntityIndex) (e : Entity) : Nat :=
  index.entities.findIdx fun e' => e'.key == e.key

/-- The changes that the relations of an entity make if they are resolved before all others. -/
def aloneChanges (index : EntityIndex) (e : Entity) : List Change :=
  changesOf index (initial index) (Visit.ofEntity (place index e) e)

/-- The diagnostics of the relations of an entity if they are resolved before all others. -/
def aloneDiagnostics (index : EntityIndex) (e : Entity) : List Diagnostic :=
  (runAll index (initial index) (Visit.ofEntity (place index e) e)).2

/-- The own fields of an entity as its relations leave them. -/
def ownFields (index : EntityIndex) (e : Entity) : List FieldDraft :=
  Workspace.editOwn (aloneChanges index e) e.fields

/-- The hidden keys that the relations of an entity add to another one. -/
def addedKeys (index : EntityIndex) (e target : Entity) : List FieldDraft :=
  hiddenKeysOf (aloneChanges index e) (place index target)

section Alone

variable {index index' : EntityIndex}

/-- An entity stands at its place. -/
lemma Rearranged.place_eq (h : Rearranged index index') {i : Nat} {e : Entity}
    (he : index.entities[i]? = some e) : place index e = i := by
  have hmem : ∃ e' ∈ index.entities, (e'.key == e.key) = true :=
    ⟨e, List.mem_of_getElem? he, beq_self_eq_true _⟩
  have hlt := List.findIdx_lt_length_of_exists hmem
  have hget : index.entities[place index e]? = some (index.entities.get ⟨place index e, hlt⟩) :=
    List.getElem?_eq_getElem hlt
  have hkey : (index.entities.get ⟨place index e, hlt⟩).key = e.key :=
    beq_iff_eq.mp (List.findIdx_getElem (w := hlt))
  exact eq_of_pairwise h.keys hget he (fun hne => hne hkey) fun hne => hne hkey.symm

/-- Places are the same in both orders. -/
lemma Rearranged.samePlace_place (h : Rearranged index index') {j' : Nat} {t : Entity}
    (ht : index'.entities[j']? = some t) : index.SamePlace index' (place index t) j' := by
  obtain ⟨j, hj⟩ := h.toPermuted.symm.exists_place ht
  rw [h.place_eq hj]
  exact ⟨t, hj, ht⟩

/-- What an entity adds are hidden keys that refer to its table. -/
lemma isHiddenKey_of_mem_addedKeys {e t : Entity} {k : FieldDraft} (hk : k ∈ addedKeys index e t) :
    k.IsHiddenKey ∧ ∃ r, k.relation = some (.foreignKey r) ∧ e.table? = some r.parentTable ∧
      r.relationFieldOwner = some e.className := by
  obtain ⟨c, hc, hkey⟩ := List.mem_filterMap.mp hk
  obtain ⟨v, hv, u, hc⟩ := exists_visit_of_mem hc
  obtain rfl := Site.Link.eq_hiddenKey (Site.link_resolve _) hc hkey
  obtain ⟨-, hentity, htable, -⟩ := Visit.mem_ofEntity.mp hv
  refine ⟨Site.isHiddenKey_hiddenKey _, _, rfl, htable, ?_⟩
  simp [Site.hiddenKeyRelation, hentity]

/-- What the relations of an entity do at any moment, in another order too, if they have no issues alone
and the hidden keys that they add are new. -/
lemma Rearranged.of_alone (h : Rearranged index index') {i' : Nat} {e : Entity}
    (he : index'.entities[i']? = some e) {w' : Workspace} (hw' : Orderly index' w')
    (hown : w'.own i' = e.fields) (hsilent : aloneDiagnostics index e = [])
    (hnew : ∀ j' t, index'.entities[j']? = some t →
      ((w'.hiddenKeys j' ++ addedKeys index e t).map (·.name)).Nodup) :
    (runAll index' w' (Visit.ofEntity i' e)).2 = [] ∧
      List.Forall₂ (Change.Twin index index') (aloneChanges index e)
        (changesOf index' w' (Visit.ofEntity i' e)) := by
  obtain ⟨i, hi⟩ := h.toPermuted.symm.exists_place he
  unfold aloneDiagnostics at hsilent
  unfold aloneChanges
  unfold addedKeys aloneChanges at hnew
  rw [h.place_eq hi] at hsilent hnew ⊢
  refine twin_runAll_ofEntity h hi he h.legible.orderly hw' ?_ hsilent ?_
  · rw [hown, (h.legible.parts_initial i).1, fieldsAt_initial hi]
  · rintro j j' ⟨t, hj, hj'⟩
    have hall := hnew j' t hj'
    rw [h.place_eq hj] at hall
    exact hall

/-- The relations of an entity that are resolved without an issue at any moment make the changes that they
make alone. -/
lemma Rearranged.alone_of (h : Rearranged index index) {i : Nat} {e : Entity}
    (he : index.entities[i]? = some e) {w : Workspace} (hw : Orderly index w) (hown : w.own i = e.fields)
    (hsilent : (runAll index w (Visit.ofEntity i e)).2 = []) :
    aloneDiagnostics index e = [] ∧
      ∀ j t, index.entities[j]? = some t →
        hiddenKeysOf (changesOf index w (Visit.ofEntity i e)) j = addedKeys index e t := by
  have hvs : ∀ v ∈ Visit.ofEntity i e, v ∈ Visit.ofIndex index :=
    fun v hv => Visit.mem_ofIndex_of_mem_ofEntity he hv
  have htwin := twin_runAll_ofEntity h he he hw h.legible.orderly ?_ hsilent ?_
  · unfold aloneDiagnostics addedKeys aloneChanges
    rw [h.place_eq he]
    refine ⟨htwin.1, fun j t ht => ?_⟩
    rw [h.place_eq ht]
    exact (h.hiddenKeysOf_eq htwin.2 ⟨t, ht, ht⟩).symm
  · rw [hown, (h.legible.parts_initial i).1, fieldsAt_initial he]
  · -- The keys are among those of the class after the run, which have different names.
    intro j j' hj
    have hnodup := (hw.runAll h.legible hvs).nodup_hiddenKeys h.legible.toTyped j
    rw [hw.hiddenKeys_runAll h.legible hvs, List.map_append] at hnodup
    rw [(h.legible.parts_initial j').2, List.nil_append]
    exact hnodup.of_append_right

/-! ### All classes -/

/-- Entities from a position on whose relations have not been resolved yet. -/
structure Ahead (index : EntityIndex) (n : Nat) (es : List Entity) (w : Workspace) : Prop where
  orderly : Orderly index w
  stands : ∀ k e, es[k]? = some e → index.entities[n + k]? = some e
  untouched : ∀ k e, es[k]? = some e → w.own (n + k) = e.fields

section Ahead

variable {n : Nat} {e : Entity} {es : List Entity} {w : Workspace}

/-- At the beginning all entities are ahead. -/
lemma Legible.ahead (hi : Legible index) : Ahead index 0 index.entities (initial index) where
  orderly := hi.orderly
  stands k e hk := by rwa [Nat.zero_add]
  untouched k e hk := by rw [Nat.zero_add, (hi.parts_initial k).1, fieldsAt_initial hk]

lemma Ahead.head (h : Ahead index n (e :: es) w) : index.entities[n]? = some e :=
  h.stands 0 e rfl

lemma Ahead.own_head (h : Ahead index n (e :: es) w) : w.own n = e.fields :=
  h.untouched 0 e rfl

/-- The visits of the first entity. -/
lemma Ahead.mem_ofIndex (h : Ahead index n (e :: es) w) :
    ∀ v ∈ Visit.ofEntity n e, v ∈ Visit.ofIndex index :=
  fun _ hv => Visit.mem_ofIndex_of_mem_ofEntity h.head hv

/-- After its visits the other entities are ahead. -/
lemma Ahead.next (h : Ahead index n (e :: es) w) (hi : Legible index) :
    Ahead index (n + 1) es (runAll index w (Visit.ofEntity n e)).1 where
  orderly := h.orderly.runAll hi h.mem_ofIndex
  stands k e' hk := by
    rw [Nat.add_assoc, Nat.add_comm 1]
    exact h.stands (k + 1) e' hk
  untouched k e' hk := by
    rw [h.orderly.own_runAll_of_ne hi h.mem_ofIndex, Nat.add_assoc, Nat.add_comm 1]
    · exact h.untouched (k + 1) e' hk
    · intro v hv
      have hpos := (Visit.mem_ofEntity.mp hv).1
      omega

/-- The visits of entities that are ahead do not touch the own fields of those before them. -/
lemma Ahead.own_runAll_of_lt (h : Ahead index n es w) (hi : Legible index) {j : Nat} (hj : j < n) :
    (runAll index w (Visit.ofEntities n es)).1.own j = w.own j := by
  refine h.orderly.own_runAll_of_ne hi ?_ ?_
  · intro v hv
    obtain ⟨k, hk, hget, hrest⟩ := Visit.mem_ofEntities.mp hv
    have hstands := h.stands k _ hget
    rw [← hk] at hstands
    exact Visit.mem_ofIndex.mpr ⟨hstands, hrest⟩
  · intro v hv
    obtain ⟨k, hk, -⟩ := Visit.mem_ofEntities.mp hv
    omega

end Ahead

/-- Relations of entities that are resolved without an issue one after the other are resolved without an
issue alone, and add the same hidden keys. -/
lemma Rearranged.alone_of_runAll (h : Rearranged index index) {n : Nat} {es : List Entity} {w : Workspace}
    (hw : Ahead index n es w) (hsilent : (runAll index w (Visit.ofEntities n es)).2 = []) :
    (∀ e ∈ es, aloneDiagnostics index e = []) ∧
      ∀ j t, index.entities[j]? = some t →
        (runAll index w (Visit.ofEntities n es)).1.hiddenKeys j =
          w.hiddenKeys j ++ es.flatMap (addedKeys index · t) := by
  induction es generalizing n w with
  | nil => exact ⟨by simp, fun j t _ => (List.append_nil _).symm⟩
  | cons e es ih =>
    rw [Visit.ofEntities_cons, runAll_append, List.append_eq_nil_iff] at hsilent
    obtain ⟨hfirst, hkeys⟩ := h.alone_of hw.head hw.orderly hw.own_head hsilent.1
    obtain ⟨hrest, hmore⟩ := ih (hw.next h.legible) hsilent.2
    refine ⟨List.forall_mem_cons.mpr ⟨hfirst, hrest⟩, fun j t ht => ?_⟩
    rw [Visit.ofEntities_cons, runAll_append, hmore j t ht,
      hw.orderly.hiddenKeys_runAll h.legible hw.mem_ofIndex, hkeys j t ht, List.append_assoc,
      List.flatMap_cons]

/-- What resolving entities one after the other in another order makes of a workspace. -/
structure Assembled (index index' : EntityIndex) (n : Nat) (es : List Entity) (w' : Workspace) : Prop where
  silent : (runAll index' w' (Visit.ofEntities n es)).2 = []
  hiddenKeys : ∀ j' t, index'.entities[j']? = some t →
    (runAll index' w' (Visit.ofEntities n es)).1.hiddenKeys j' =
      w'.hiddenKeys j' ++ es.flatMap (addedKeys index · t)
  own : ∀ k e, es[k]? = some e →
    (runAll index' w' (Visit.ofEntities n es)).1.own (n + k) = ownFields index e

/-- Entities are resolved one after the other as they are alone, if no relation has an issue alone and the
hidden keys are new. -/
lemma Rearranged.assembled (h : Rearranged index index') {n : Nat} {es : List Entity} {w' : Workspace}
    (hw' : Ahead index' n es w') (hsilent : ∀ e ∈ es, aloneDiagnostics index e = [])
    (hnew : ∀ j' t, index'.entities[j']? = some t →
      ((w'.hiddenKeys j' ++ es.flatMap (addedKeys index · t)).map (·.name)).Nodup) :
    Assembled index index' n es w' := by
  induction es generalizing n w' with
  | nil => exact ⟨rfl, fun j' t _ => (List.append_nil _).symm, by simp⟩
  | cons e es ih =>
    have hlegible := h.symm.legible
    have hnext := hw'.next hlegible
    simp only [List.flatMap_cons, ← List.append_assoc] at hnew
    obtain ⟨hfirst, hchanges⟩ := h.of_alone hw'.head hw'.orderly hw'.own_head (hsilent e List.mem_cons_self)
      fun j' t ht => (List.map_append ▸ hnew j' t ht).of_append_left
    have hkeys : ∀ j' t, index'.entities[j']? = some t →
        (runAll index' w' (Visit.ofEntity n e)).1.hiddenKeys j' = w'.hiddenKeys j' ++ addedKeys index e t := by
      intro j' t ht
      rw [hw'.orderly.hiddenKeys_runAll hlegible hw'.mem_ofIndex,
        h.hiddenKeysOf_eq hchanges (h.samePlace_place ht)]
      rfl
    have hrest := ih hnext (fun e' he' => hsilent e' (List.mem_cons_of_mem _ he')) fun j' t ht => by
      rw [hkeys j' t ht]
      exact hnew j' t ht
    constructor
    case silent =>
      rw [Visit.ofEntities_cons, runAll_append, hfirst, hrest.silent]
      rfl
    case hiddenKeys =>
      intro j' t ht
      rw [Visit.ofEntities_cons, runAll_append, hrest.hiddenKeys j' t ht, hkeys j' t ht, List.append_assoc,
        List.flatMap_cons]
    case own =>
      intro k e' hk
      rw [Visit.ofEntities_cons, runAll_append]
      cases k with
      | zero =>
        obtain rfl : e = e' := Option.some.inj hk
        have hpos : ∀ v ∈ Visit.ofEntity n e, v.owner.position = n :=
          fun v hv => (Visit.mem_ofEntity.mp hv).1
        change (runAll index' _ (Visit.ofEntities (n + 1) es)).1.own n = _
        rw [hnext.own_runAll_of_lt hlegible (Nat.lt_succ_self n),
          hw'.orderly.own_runAll_self hlegible hw'.mem_ofIndex hpos, editOwn_of_twin hchanges, hw'.own_head]
        rfl
      | succ k =>
        have hown := hrest.own k e' hk
        rw [Nat.add_assoc, Nat.add_comm 1] at hown
        exact hown

/-- All visits leave the workspace orderly. -/
lemma Legible.orderly_visited (hi : Legible index) : Orderly index (visited index).1 :=
  hi.orderly.runAll hi fun _ hv => hv

/-- If all relations are resolved without an error, then they are in every order of the entities.  The
fields of an entity are its own fields, as its relations alone leave them, and the hidden keys that the
entities add alone, in their order. -/
theorem visited_of_rearranged (h : Rearranged index index')
    (hno : Diagnostic.hasErrors (visited index).2 = false) :
    Diagnostic.hasErrors (visited index').2 = false ∧
      ∀ (j' : Nat) (t : Entity), index'.entities[j']? = some t →
        (visited index').1.own j' = ownFields index t ∧
          (visited index').1.hiddenKeys j' = index'.entities.flatMap (addedKeys index · t) := by
  have hlegible' := h.symm.legible
  obtain ⟨hsilent, hkeys⟩ := h.left.alone_of_runAll h.legible.ahead (runAll_silent hno)
  -- The hidden keys of an entity have different names, in one order and so in every order.
  have hnew : ∀ j' t, index'.entities[j']? = some t →
      (((initial index').hiddenKeys j' ++ index'.entities.flatMap (addedKeys index · t)).map
        (·.name)).Nodup := by
    intro j' t ht
    obtain ⟨j, hj⟩ := h.toPermuted.symm.exists_place ht
    have hnodup := h.legible.orderly_visited.nodup_hiddenKeys h.legible.toTyped j
    have hj' : (visited index).1.hiddenKeys j = _ := hkeys j t hj
    rw [hj', (h.legible.parts_initial j).2, List.nil_append] at hnodup
    rw [(hlegible'.parts_initial j').2, List.nil_append]
    exact ((h.entities.flatMap_right _).map _).nodup_iff.mp hnodup
  have hall := h.assembled hlegible'.ahead (fun e he => hsilent e (h.entities.mem_iff.mpr he)) hnew
  refine ⟨?_, fun j' t ht => ?_⟩
  · change Diagnostic.hasErrors (runAll index' (initial index') (Visit.ofEntities 0 index'.entities)).2 = false
    rw [hall.silent]
    rfl
  · have hown := hall.own j' t ht
    have hhidden := hall.hiddenKeys j' t ht
    rw [Nat.zero_add] at hown
    rw [(hlegible'.parts_initial j').2, List.nil_append] at hhidden
    exact ⟨hown, hhidden⟩

/-- The fields of an entity are found alike in every order of the entities. -/
lemma find?_visited (h : Rearranged index index') (hno : Diagnostic.hasErrors (visited index).2 = false)
    {i j : Nat} {t : Entity} (hi : index.entities[i]? = some t) (hj : index'.entities[j]? = some t)
    (name : String) : (visited index').1.find? j name = (visited index).1.find? i name := by
  obtain ⟨hown, hhidden⟩ := (visited_of_rearranged h.left hno).2 i t hi
  obtain ⟨hown', hhidden'⟩ := (visited_of_rearranged h hno).2 j t hj
  -- The hidden keys have different names, so their order does not matter.
  have hnodup := h.legible.orderly_visited.nodup_hiddenKeys h.legible.toTyped i
  have hsame : ((visited index').1.hiddenKeys j).find? (·.name == name) =
      ((visited index).1.hiddenKeys i).find? (·.name == name) := by
    refine find?_eq_of_mem_iff (fun k => ?_) fun k hk k' hk' hname hname' => ?_
    · rw [hhidden, hhidden']
      exact (h.entities.flatMap_right _).mem_iff.symm
    · rw [beq_iff_eq] at hname hname'
      exact List.inj_on_of_nodup_map hnodup hk hk' (hname.trans hname'.symm)
  rw [Workspace.find?, Workspace.find?, ← Workspace.own_append_hiddenKeys, ← Workspace.own_append_hiddenKeys,
    List.find?_append, List.find?_append, hown, hown', hsame]

end Alone

end RelationResolution

end EntitySchema
