import Mathlib.Data.List.Basic
import Mathlib.Tactic.Common
import EntitySchema.Proofs.Lookup
import EntitySchema.Proofs.Relations.Step
import EntitySchema.Proofs.Workspace

/-!
# The changes of one relation

Linking a relation of a field that is found as it was declared makes fresh changes (`Link.allFresh`).  An
object or list relation is written on the field itself (`Link.relate_of_writes`), behind its key if the key
is not left to another visit (`Link.object_of_mem`, `Link.list_of_mem`).
-/

namespace EntitySchema

namespace RelationResolution

namespace Site

/-- The target of a list field is the class at a position. -/
lemma ListTarget.position_lt {s : Site} {t : TypeDef} {target : TableClass} (h : s.ListTarget t target) :
    target.position < s.index.entities.length := by
  have hclass := (tableClass_eq_ok_iff.mp h.tableClass).1
  exact (List.getElem?_eq_some_iff.mp (EntityIndex.findClass?_eq_some hclass).2.2.1).1

/-- Linking a relation relates the field itself and at most a field that declares no relation. -/
lemma Link.of_relate_mem {s : Site} {cs : List Change} (h : s.Link cs) {i : Nat} {n : String}
    {r : RelationDef} (hc : .relate i n r ∈ cs) :
    i = s.owner.position ∧
      (n = s.field.name ∨ ∃ d, s.workspace.find? i n = some d ∧ d.relationOption = none) := by
  cases h with
  | nothing => cases hc
  | ownField htarget hside hkey hfind hoption hrelation htype hnull =>
    rcases List.mem_cons.mp hc with hc | hc
    · cases hc
      exact ⟨rfl, Or.inr ⟨_, hfind, hoption⟩⟩
    · cases List.mem_singleton.mp hc
      exact ⟨rfl, Or.inl rfl⟩
  | ownAdded | listHidden =>
    rcases List.mem_cons.mp hc with hc | hc
    · cases hc
    · cases List.mem_singleton.mp hc
      exact ⟨rfl, Or.inl rfl⟩
  | parent | other | listNamed =>
    cases List.mem_singleton.mp hc
    exact ⟨rfl, Or.inl rfl⟩

/-- Linking a relation relates the field itself. -/
lemma Link.exists_relate {s : Site} {cs : List Change} (h : s.Link cs) (hne : cs ≠ []) :
    ∃ r, .relate s.owner.position s.field.name r ∈ cs := by
  cases h with
  | nothing => exact absurd rfl hne
  | parent | other | listNamed => exact ⟨_, List.mem_singleton_self _⟩
  | ownField | ownAdded | listHidden => exact ⟨_, List.mem_cons_of_mem _ (List.mem_singleton_self _)⟩

/-- Relating a field that is found without a relation is fresh. -/
lemma fresh_relate {w : Workspace} {i : Nat} {n : String} {d : FieldDraft} (hd : w.find? i n = some d)
    (hr : d.relation = none) (r : RelationDef) : (Change.relate i n r).Fresh w where
  relate p m r' h := by
    cases h
    exact ⟨d, hd, hr⟩
  inRange := Workspace.lt_length_of_find? hd
  key k h := by cases h
  keyRelation k h := by cases h

/-- Linking a field that is found as it was declared makes fresh changes. -/
lemma Link.allFresh {s : Site} {cs : List Change} (h : s.Link cs)
    (hlength : s.workspace.fields.length = s.index.entities.length)
    (hfind : s.workspace.find? s.owner.position s.field.name = some s.field)
    (hrelation : s.field.relation = none) (hoption : s.field.relationOption ≠ none) :
    s.workspace.AllFresh cs := by
  have hself := fun r => fresh_relate hfind hrelation r
  cases h with
  | nothing => trivial
  | parent | other | listNamed => exact ⟨hself _, trivial⟩
  | @ownField target key existing htarget hside hkey hfindKey hoptionKey hrelationKey htype hnull =>
    have hkeyFresh := fresh_relate hfindKey hrelationKey (.foreignKey (s.keyRelation target))
    refine ⟨hkeyFresh, fresh_relate (d := s.field) ?_ hrelation _, trivial⟩
    refine Workspace.find?_apply_of_fresh hkeyFresh hfind ?_
    -- The key declares no relation, so it is another field.
    rintro r hr
    have hname : key.value = s.field.name := by
      injection hr
    rw [hname, hfind] at hfindKey
    cases hfindKey
    exact hoption hoptionKey
  | @ownAdded target htarget hside hkey hnew =>
    have hadded : (Change.insertAfter s.owner.position s.field.name (s.addedKey target)).Fresh
        s.workspace :=
      { relate := by rintro p m r h; cases h
        inRange := Workspace.lt_length_of_find? hfind
        key := by rintro k h; cases h; exact ⟨hnew, rfl⟩
        keyRelation := by rintro k h; cases h; rfl }
    refine ⟨hadded, fresh_relate (d := s.field) ?_ hrelation _, trivial⟩
    exact Workspace.find?_apply_of_fresh hadded hfind fun r hr => by cases hr
  | @listHidden t target htarget hname hnew =>
    have hadded : (Change.append target.position s.hiddenKey).Fresh s.workspace :=
      { relate := by rintro p m r h; cases h
        inRange := hlength ▸ htarget.position_lt
        key := by rintro k h; cases h; exact ⟨hnew, rfl⟩
        keyRelation := by rintro k h; cases h; rfl }
    refine ⟨hadded, fresh_relate (d := s.field) ?_ hrelation _, trivial⟩
    exact Workspace.find?_apply_of_fresh hadded hfind fun r hr => by cases hr

/-! ### What is written -/

/-- The key of an object field in its own class. -/
def ownKeyName (s : Site) : String :=
  (s.option.field.map (·.value)).getD s.addedKeyName

/-- Linking a relation adds only keys. -/
lemma Link.isKey_of_mem {s : Site} {cs : List Change} (h : s.Link cs) {c : Change} (hc : c ∈ cs)
    {k : FieldDraft} (hk : c.key? = some k) : ∃ r, k.relation = some (.foreignKey r) := by
  cases h with
  | nothing => cases hc
  | parent | other | listNamed =>
    obtain rfl := List.mem_singleton.mp hc
    cases hk
  | ownField =>
    rcases List.mem_cons.mp hc with rfl | hc
    · cases hk
    · obtain rfl := List.mem_singleton.mp hc
      cases hk
  | ownAdded | listHidden =>
    rcases List.mem_cons.mp hc with rfl | hc
    · cases hk
      exact ⟨_, rfl⟩
    · obtain rfl := List.mem_singleton.mp hc
      cases hk

/-- A relation that is no key relates the field itself. -/
lemma Link.eq_of_relate_mem {s : Site} {cs : List Change} (h : s.Link cs) {i : Nat} {n : String}
    {r : RelationDef} (hr : r.foreignKey? = none) (hc : .relate i n r ∈ cs) :
    s.owner.position = i ∧ s.field.name = n := by
  cases h with
  | nothing => cases hc
  | parent =>
    cases List.mem_singleton.mp hc
    cases hr
  | other | listNamed =>
    cases List.mem_singleton.mp hc
    exact ⟨rfl, rfl⟩
  | ownField =>
    rcases List.mem_cons.mp hc with hc | hc
    · cases hc
      cases hr
    · cases List.mem_singleton.mp hc
      exact ⟨rfl, rfl⟩
  | ownAdded | listHidden =>
    rcases List.mem_cons.mp hc with hc | hc
    · cases hc
    · cases List.mem_singleton.mp hc
      exact ⟨rfl, rfl⟩

/-- A relation that is no key is written on the field itself. -/
lemma Link.relate_of_writes {s : Site} {cs : List Change} (h : s.Link cs) {c : Change} (hc : c ∈ cs)
    {i : Nat} {f : FieldDraft} {r : RelationDef} (hf : f.relation = some r) (hr : r.foreignKey? = none)
    (hw : c.Writes i f r) :
    s.owner.position = i ∧ s.field.name = f.name ∧ .relate i f.name r ∈ cs := by
  rcases hw with rfl | ⟨-, hk⟩
  · obtain ⟨hposition, hname⟩ := h.eq_of_relate_mem hr hc
    exact ⟨hposition, hname, hc⟩
  · obtain ⟨k, hkey⟩ := h.isKey_of_mem hc hk
    rw [hf] at hkey
    cases hkey
    cases hr

/-- An object relation has a key of its own class, or one of the counterpart. -/
lemma Link.object_of_mem {s : Site} {cs : List Change} (h : s.Link cs) {i : Nat} {n : String}
    {r : ObjectRelation} (hc : .relate i n (.object r) ∈ cs) :
    ∃ target, s.ObjectTarget target ∧
      ((s.keySide target = .ok .own ∧ r = s.objectRelation target (some s.ownKeyName) none) ∨
        ∃ g, s.keySide target = .ok (.other g) ∧ r = s.objectRelation target none (some g.objectKey)) := by
  cases h with
  | nothing => cases hc
  | parent | listNamed => cases List.mem_singleton.mp hc
  | ownField htarget hside hkey | ownAdded htarget hside hkey =>
    rcases List.mem_cons.mp hc with hc | hc
    · cases hc
    · cases List.mem_singleton.mp hc
      exact ⟨_, htarget, Or.inl ⟨hside, by rw [ownKeyName, hkey]; rfl⟩⟩
  | other htarget hside =>
    cases List.mem_singleton.mp hc
    exact ⟨_, htarget, Or.inr ⟨_, hside, rfl⟩⟩
  | listHidden =>
    rcases List.mem_cons.mp hc with hc | hc
    · cases hc
    · cases List.mem_singleton.mp hc

/-- A list relation has a key of the counterpart, or a hidden key that is added. -/
lemma Link.list_of_mem {s : Site} {cs : List Change} (h : s.Link cs) {i : Nat} {n : String}
    {r : ListRelation} (hc : .relate i n (.list r) ∈ cs) :
    ∃ t target, s.ListTarget t target ∧
      ((∃ name key, s.option.name = some name ∧ s.counterpartKey target name = .ok key ∧
          r = s.listRelation target key false) ∨
        (.append target.position s.hiddenKey ∈ cs ∧ r = s.listRelation target s.hiddenKeyName true)) := by
  cases h with
  | nothing => cases hc
  | parent | other => cases List.mem_singleton.mp hc
  | ownField | ownAdded =>
    rcases List.mem_cons.mp hc with hc | hc
    · cases hc
    · cases List.mem_singleton.mp hc
  | listNamed htarget hname hkey =>
    cases List.mem_singleton.mp hc
    exact ⟨_, _, htarget, Or.inl ⟨_, _, hname, hkey, rfl⟩⟩
  | listHidden htarget =>
    rcases List.mem_cons.mp hc with hc | hc
    · cases hc
    · cases List.mem_singleton.mp hc
      exact ⟨_, _, htarget, Or.inr ⟨List.mem_cons_self, rfl⟩⟩

end Site

end RelationResolution

end EntitySchema
