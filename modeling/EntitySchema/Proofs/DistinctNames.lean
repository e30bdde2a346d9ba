import Mathlib.Data.List.Nodup
import Mathlib.Tactic.Common
import EntitySchema.Proofs.Declarations
import EntitySchema.Proofs.Tables

/-!
# Fields and columns with one name

No single check compares the names of the fields of a class.  The keys of a mapping are compared as values, so two
of them that are written alike are literals (`literalNames`); the primary key is added only where no field has its
name; and a key is added only under a name that no field of its class has at this moment.  So when all relations
have been resolved, an added field has a name of its own (`Accepted.addedApart`), and two declared fields share a
name only if it is a literal (`Accepted.shareLiterals`).  The names of the fields are pairwise different just if
the declared names are (`fieldNames_compile`).
-/

namespace EntitySchema

open RelationResolution (visited consistent_visited)

/-! ### Lists of fields -/

namespace FieldDraft

/-- An added field has a name that no declared field has. -/
def AddedApart (fs : List FieldDraft) : Prop :=
  ∀ f ∈ fs, f.origin = .synthesized → f.name ∉ declaredNames fs

/-- Two fields share a name only if both are declared and the name is a literal. -/
def ShareLiterals (fs : List FieldDraft) : Prop :=
  fs.Pairwise fun f g =>
    f.name = g.name → f.name ∈ literalNames ∧ f.origin = .declared ∧ g.origin = .declared

lemma mem_declaredNames {fs : List FieldDraft} {n : String} :
    n ∈ declaredNames fs ↔ ∃ f ∈ fs, f.origin = .declared ∧ f.name = n := by
  simp [declaredNames, and_assoc]

/-- A field that has not been added has been declared. -/
lemma declared_of_ne {f : FieldDraft} (h : f.origin ≠ .synthesized) : f.origin = .declared := by
  cases horigin : f.origin with
  | declared => rfl
  | synthesized => exact absurd horigin h

/-- If only declared fields whose name is a literal are shadowed, and the added ones have names of their own, then
fields share only literals. -/
lemma shareLiterals_of_shadowed {fs : List FieldDraft}
    (h : Shadowed (fun g => g.name ∈ literalNames ∧ g.origin = .declared) fs) (hadded : AddedApart fs) :
    ShareLiterals fs := by
  refine List.Pairwise.imp_of_mem ?_ h
  intro f g hf hg hfg hname
  obtain ⟨hliteral, hdeclared⟩ := hfg hname
  refine ⟨by rwa [hname], declared_of_ne fun hsynthesized => ?_, hdeclared⟩
  exact hadded f hf hsynthesized (mem_declaredNames.mpr ⟨g, hg, hdeclared, hname.symm⟩)

/-- Where fields share only literals, all names are different just if the declared ones are. -/
lemma ShareLiterals.nodup_iff {fs : List FieldDraft} (h : ShareLiterals fs) :
    (fs.map (·.name)).Nodup ↔ (declaredNames fs).Nodup := by
  refine ⟨fun hnodup => hnodup.sublist (List.filter_sublist.map _), fun hnodup => ?_⟩
  have hdeclared := List.pairwise_filter.mp (List.pairwise_map.mp hnodup)
  refine List.pairwise_map.mpr ((h.and hdeclared).imp ?_)
  rintro f g ⟨hshare, hne⟩ hname
  obtain ⟨-, hf, hg⟩ := hshare hname
  exact hne (by simp [hf]) (by simp [hg]) hname

end FieldDraft

/-- The other fields of an entity are among those it is given. -/
lemma Entity.fields_withFields_sublist (e : Entity) (fs : List FieldDraft) : (e.withFields fs).fields.Sublist fs := by
  obtain ⟨header, nameSpan, body⟩ := e
  cases body with
  | «class» | exception => exact List.Sublist.refl fs
  | enum => exact List.nil_sublist fs

/-! ### Relations -/

namespace RelationResolution

/-- A change that adds only keys under new names keeps the names of added fields apart. -/
lemma addedApart_apply {index : EntityIndex} {w : Workspace} {c : Change}
    (hw : ∀ i, FieldDraft.AddedApart (w.fieldsAt i)) (hsound : Sound index w c) (hc : AddsKeys c) (i : Nat) :
    FieldDraft.AddedApart ((w.apply c).fieldsAt i) := by
  intro f hf horigin
  rw [declaredNames_apply hc]
  rcases Workspace.mem_fieldsAt_apply hf with hold | ⟨d, r, hd, -, rfl⟩ | ⟨rfl, hk⟩
  · exact hw i f hold horigin
  · exact hw i d (Workspace.mem_of_find? hd) horigin
  · -- The name of the key is new.
    intro hmem
    obtain ⟨d, hd, -, hname⟩ := FieldDraft.mem_declaredNames.mp hmem
    have hnone := List.find?_eq_none.mp (hsound.key f hk).1 d hd
    simp [hname] at hnone

end RelationResolution

/-! ### Compilations -/

namespace Compilation

section DistinctNames

variable {project : ModuleSource} {dependencies : List ModuleSource} {given : List Diagnostic}

/-- The only field that is added to an entity that has been read is its primary key. -/
lemma Complete.name_of_added {taken : List String} {ms : List ModuleSource} (h : Complete taken ms) :
    ∀ e ∈ (readModules taken ms).entities, ∀ f ∈ e.fields, f.origin = .synthesized → f.name = "id" := by
  intro e he f hf horigin
  obtain ⟨m, hm, d, hd, hread⟩ := (h.entities e).mp he
  obtain ⟨e', hread', -, entries, -, -, hcontents⟩ := Entity.declares_ofDocument (h.documents m hm d hd)
  obtain rfl := Option.some.inj (hread.symm.trans hread')
  exact (hcontents.added f hf horigin).1

/-- A declared field that an earlier one shadows is a literal. -/
lemma Complete.literalsShadowed {taken : List String} {ms : List ModuleSource} (h : Complete taken ms) :
    ∀ e ∈ (readModules taken ms).entities,
      FieldDraft.Shadowed (fun g => g.name ∈ literalNames ∧ g.origin = .declared) e.fields := by
  intro e he
  refine List.Pairwise.imp_of_mem ?_ (h.namesApart e he)
  intro f g hf hg hfg hname
  have hliteral : g.name ∈ literalNames := hfg hname
  refine ⟨hliteral, FieldDraft.declared_of_ne fun horigin => ?_⟩
  rw [h.name_of_added e he g hg horigin] at hliteral
  exact absurd hliteral (by decide)

/-- The primary key that is added has a name of its own. -/
lemma Complete.addedApart {taken : List String} {ms : List ModuleSource} (h : Complete taken ms) :
    ∀ e ∈ (readModules taken ms).entities, FieldDraft.AddedApart e.fields := by
  intro e he f hf horigin hmem
  obtain ⟨g, hg, hdeclared, hname⟩ := FieldDraft.mem_declaredNames.mp hmem
  have hid := h.name_of_added e he f hf horigin
  have hliteral : "id" ∉ literalNames := by decide
  have hfindf := (h.namesApart e he).find?_eq hf (by rwa [hid])
  have hfindg := (h.namesApart e he).find?_eq hg (by rwa [hname, hid])
  rw [hname, hfindf] at hfindg
  obtain rfl := Option.some.inj hfindg
  rw [horigin] at hdeclared
  cases hdeclared

/-- When all relations have been resolved, added fields have names of their own. -/
lemma Accepted.addedApart (h : Accepted project dependencies) (i : Nat) :
    FieldDraft.AddedApart ((visited (declarations project dependencies).typed).1.fieldsAt i) := by
  refine RelationResolution.visited_of_changes h.typed
    (P := fun w => ∀ j, FieldDraft.AddedApart (w.fieldsAt j)) ?_ ?_ i
  · refine forall_initial (by simp [FieldDraft.AddedApart]) fun e he f hf horigin => ?_
    rw [TypeResolution.declaredNames_typedEntity]
    rw [TypeResolution.fields_typedEntity] at hf
    obtain ⟨f₀, hf₀, rfl⟩ := List.mem_map.mp hf
    exact h.complete.addedApart e he f₀ hf₀ horigin
  · exact fun w c _ hw hsound hc => RelationResolution.addedApart_apply hw hsound hc

/-- When all relations have been resolved, fields share only literals. -/
lemma Accepted.shareLiterals (h : Accepted project dependencies) (i : Nat) :
    FieldDraft.ShareLiterals ((visited (declarations project dependencies).typed).1.fieldsAt i) := by
  refine FieldDraft.shareLiterals_of_shadowed ?_ (h.addedApart i)
  refine (consistent_visited h.typed).shadowed _ (forall_initial List.Pairwise.nil fun e he => ?_) i
  exact TypeResolution.shadowed_typedEntity (h.complete.literalsShadowed e he) fun _ hf => hf

/-- The fields of an entity after all passes share only literals. -/
lemma Accepted.shareLiterals_finished (h : Accepted project dependencies) (i : Nat) (e : Entity) :
    FieldDraft.ShareLiterals (finished (declarations project dependencies).typed i e).fields := by
  rw [finished, IndexCheck.fields_checkEntity]
  exact (h.shareLiterals i).sublist (Entity.fields_withFields_sublist e _)

/-- The names of the columns of a table are names of fields of its definition, in their order. -/
lemma names_columns_sublist {m : ModelDef} {enums : List EnumValues} {moduleName : String} {t : Table}
    (h : m.table? enums moduleName = some t) :
    (t.columns.map (·.name)).Sublist (m.fields.map (·.name)) := by
  obtain ⟨-, managed, heq⟩ := ModelDef.table?_eq_some h
  have hnames : t.columns.map (·.name) = (m.fields.filter (·.shouldPersist)).map (·.name) := by
    rw [heq, tableOf, List.map_map]
    rfl
  rw [hnames]
  exact List.filter_sublist.map _

/-- In a compilation without errors fields of a definition share a name only if both are declared and the name is a
literal, and so do columns of a table.  All names of fields are different just if the declared ones are; then the
names of the columns are different too. -/
theorem fieldNames_compile (hno : (compile project dependencies given).hasErrors = false) :
    (∀ m ∈ (compile project dependencies given).models,
      (m.fields.Pairwise fun f g =>
        f.name = g.name → f.name ∈ literalNames ∧ f.origin = .declared ∧ g.origin = .declared) ∧
      ((m.fields.map (·.name)).Nodup ↔ m.declaredNames.Nodup)) ∧
    ∀ p ∈ (compile project dependencies given).modules, ∀ m ∈ p.models, ∀ enums t,
      m.table? enums p.moduleName = some t →
        ((t.columns.map (·.name)).Pairwise fun n n' => n = n' → n ∈ literalNames) ∧
        (m.declaredNames.Nodup → (t.columns.map (·.name)).Nodup) := by
  have h := accepted_of_hasErrors hno
  have hfields : ∀ m ∈ (compile project dependencies given).models,
      (m.fields.Pairwise fun f g =>
        f.name = g.name → f.name ∈ literalNames ∧ f.origin = .declared ∧ g.origin = .declared) ∧
      ((m.fields.map (·.name)).Nodup ↔ m.declaredNames.Nodup) := by
    intro m hm
    obtain ⟨i, e, -, rfl⟩ := (mem_models_iff h).mp hm
    have hshare := h.shareLiterals_finished i e
    rw [Entity.declaredNames_toDefinition, Entity.fields_toDefinition, List.map_map]
    exact ⟨List.pairwise_map.mpr hshare, hshare.nodup_iff⟩
  refine ⟨hfields, fun p hp m hm enums t ht => ?_⟩
  obtain ⟨hshare, hnodup⟩ := hfields m (List.mem_flatMap.mpr ⟨p, hp, hm⟩)
  have hsublist := names_columns_sublist ht
  refine ⟨?_, fun hdeclared => (hnodup.mpr hdeclared).sublist hsublist⟩
  have hliterals : (m.fields.map (·.name)).Pairwise fun n n' => n = n' → n ∈ literalNames :=
    List.pairwise_map.mpr (hshare.imp fun hfg hname => (hfg hname).1)
  exact hliterals.sublist hsublist

/-- Flags with two fields that are written alike. -/
def flags : ModuleSource :=
  sampleModule "flags" ["class: Flag", "table: flag", "fields:", "  true: int", "  'true': String"]

/-- The fields of an employee have different names, but not those of a flag. -/
theorem fieldNames_compile_staff :
    (∀ m ∈ (compile staff [] []).models, (m.fields.map (·.name)).Nodup) ∧
    ∃ m ∈ (compile flags [] []).models, ¬ (m.fields.map (·.name)).Nodup := by
  constructor
  · have hdeclared : ∀ m ∈ (compile staff [] []).models, m.declaredNames.Nodup := by decide +kernel
    intro m hm
    exact ((fieldNames_compile hasErrors_staff).1 m hm).2.mpr (hdeclared m hm)
  · obtain ⟨hno, m, hm, hdeclared⟩ : (compile flags [] []).hasErrors = false ∧
        ∃ m ∈ (compile flags [] []).models, ¬ m.declaredNames.Nodup := by
      decide +kernel
    exact ⟨m, hm, fun hnodup => hdeclared (((fieldNames_compile hno).1 m hm).2.mp hnodup)⟩

end DistinctNames

end Compilation

end EntitySchema
