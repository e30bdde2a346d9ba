import Mathlib.Data.List.Basic
import Mathlib.Tactic.Common
import EntitySchema.Compilation
import EntitySchema.Proofs.FieldNames

/-!
# Reading modules

Modules that are read without errors are all there, under aliases that are pairwise different, and what
they declare is what their documents declare (`complete_of_hasErrors`).  A module whose alias is taken
would be reported, so the induction is on the modules behind the aliases that are taken.
-/

namespace EntitySchema

/-- A document as it is read in its module. -/
def ModuleSource.input (m : ModuleSource) (d : DocumentInput) : DocumentInput :=
  { d with moduleAlias := some m.knownAs }

/-- A document keeps the input that it has been read from. -/
lemma readDocument_input {input : DocumentInput} {p : ParsedDocument}
    (h : (readDocument input).1 = some p) : p.input = input := by
  unfold readDocument at h
  dsimp only at h
  split at h
  · cases h
    rfl
  · cases h

/-- The module of an entity is the one that its document has been read in. -/
lemma Entity.moduleAlias_ofDocument {m : ModuleSource} {d : DocumentInput} {e : Entity}
    (h : (Entity.ofDocument (m.input d)).1 = some e) : e.moduleAlias = m.knownAs := by
  obtain ⟨p, hp, hparsed⟩ := Entity.ofDocument_eq_some h
  obtain ⟨entry, kind, className, -, -, -, rfl⟩ := Entity.ofParsed_eq_some hparsed
  have hinput : p.input = m.input d := readDocument_input hp
  change p.input.moduleAlias.getD _ = m.knownAs
  rw [hinput]
  rfl

namespace Compilation

/-! ### Documents -/

/-- What is declared in documents is what one of them declares. -/
lemma mem_readDocuments {a : String} {ds : List DocumentInput} {e : Entity} :
    e ∈ (readDocuments a ds).1 ↔
      ∃ d ∈ ds, (Entity.ofDocument { d with moduleAlias := some a }).1 = some e := by
  induction ds with
  | nil => simp [readDocuments]
  | cons d ds ih => simp [readDocuments, ih]

/-- Documents are read without errors if each of them is. -/
lemma hasErrors_readDocuments {a : String} {ds : List DocumentInput} :
    Diagnostic.hasErrors (readDocuments a ds).2 = false ↔
      ∀ d ∈ ds, Diagnostic.hasErrors (Entity.ofDocument { d with moduleAlias := some a }).2 = false := by
  induction ds with
  | nil => simp [readDocuments]
  | cons d ds ih => simp [readDocuments, ih]

lemma mem_orderedDocuments {m : ModuleSource} {d : DocumentInput} :
    d ∈ orderedDocuments m ↔ d ∈ m.documents :=
  List.mem_mergeSort

/-! ### Modules -/

/-- Modules all of which have been read, behind aliases that are taken. -/
structure Complete (taken : List String) (ms : List ModuleSource) : Prop where
  free : ∀ m ∈ ms, m.knownAs ∉ taken
  apart : (ms.map ModuleSource.knownAs).Nodup
  modules : (readModules taken ms).modules = ms.map fun m => ⟨m.name, m.knownAs⟩
  documents : ∀ m ∈ ms, ∀ d ∈ m.documents,
    Diagnostic.hasErrors (Entity.ofDocument (m.input d)).2 = false
  entities : ∀ e, e ∈ (readModules taken ms).entities ↔
    ∃ m ∈ ms, ∃ d ∈ m.documents, (Entity.ofDocument (m.input d)).1 = some e

/-- Modules that are read without errors are complete. -/
theorem complete_of_hasErrors {taken : List String} {ms : List ModuleSource}
    (hno : Diagnostic.hasErrors (readModules taken ms).diagnostics = false) : Complete taken ms := by
  induction ms generalizing taken with
  | nil => exact ⟨by simp, by simp, rfl, by simp, by simp [readModules]⟩
  | cons m ms ih =>
    cases htaken : taken.contains m.knownAs with
    | true =>
      -- The alias would have been reported.
      rw [readModules, if_pos htaken] at hno
      simp [Diagnostic.hasErrors, takenAlias, Diagnostic.isError] at hno
    | false =>
      have hread : readModules taken (m :: ms) =
          ⟨⟨m.name, m.knownAs⟩ :: (readModules (taken ++ [m.knownAs]) ms).modules,
            (readDocuments m.knownAs (orderedDocuments m)).1 ++
              (readModules (taken ++ [m.knownAs]) ms).entities,
            (readDocuments m.knownAs (orderedDocuments m)).2 ++
              (readModules (taken ++ [m.knownAs]) ms).diagnostics⟩ := by
        rw [readModules, if_neg (by rw [htaken]; exact Bool.false_ne_true)]
      rw [hread, Diagnostic.hasErrors_append, Bool.or_eq_false_iff] at hno
      have hrest := ih hno.2
      refine ⟨?_, ?_, ?_, ?_, ?_⟩
      · intro m' hm'
        rcases List.mem_cons.mp hm' with rfl | hm'
        · simpa using htaken
        · exact fun h => hrest.free m' hm' (List.mem_append_left _ h)
      · rw [List.map_cons, List.nodup_cons]
        refine ⟨fun h => ?_, hrest.apart⟩
        obtain ⟨m', hm', halias⟩ := List.mem_map.mp h
        exact hrest.free m' hm' (by simp [halias])
      · rw [hread, hrest.modules, List.map_cons]
      · intro m' hm' d hd
        rcases List.mem_cons.mp hm' with rfl | hm'
        · exact hasErrors_readDocuments.mp hno.1 d (mem_orderedDocuments.mpr hd)
        · exact hrest.documents m' hm' d hd
      · intro e
        rw [hread]
        simp only [List.mem_append, mem_readDocuments, mem_orderedDocuments, hrest.entities,
          List.exists_mem_cons_iff]
        rfl

section Complete

variable {taken : List String} {ms : List ModuleSource}

/-- Every entity is as its document declares it. -/
lemma Complete.declared (h : Complete taken ms) :
    ∀ e ∈ (readModules taken ms).entities, e.Declared := by
  intro e he
  obtain ⟨m, -, d, -, he⟩ := (h.entities e).mp he
  exact Entity.declared_ofDocument he

/-- Fields have valid names. -/
lemma Complete.isFieldName (h : Complete taken ms) :
    ∀ e ∈ (readModules taken ms).entities, ∀ f ∈ e.fields, Naming.isFieldName f.name = true := by
  intro e he
  obtain ⟨m, -, d, -, he⟩ := (h.entities e).mp he
  exact Entity.isFieldName_ofDocument he

/-- Fields share only literals as names. -/
lemma Complete.namesApart (h : Complete taken ms) :
    ∀ e ∈ (readModules taken ms).entities, e.NamesApart := by
  intro e he
  obtain ⟨m, hm, d, hd, he⟩ := (h.entities e).mp he
  exact Entity.namesApart_ofDocument he (h.documents m hm d hd)

/-- Every class with a table has a primary key. -/
lemma Complete.exists_id (h : Complete taken ms) :
    ∀ e ∈ (readModules taken ms).entities, e.table?.isSome → ∃ f ∈ e.fields, f.name = "id" := by
  intro e he
  obtain ⟨m, hm, d, hd, he⟩ := (h.entities e).mp he
  exact Entity.exists_id_ofDocument he (h.documents m hm d hd)

/-- Every entity belongs to one of the modules. -/
lemma Complete.moduleAlias_mem (h : Complete taken ms) :
    ∀ e ∈ (readModules taken ms).entities, e.moduleAlias ∈ ms.map ModuleSource.knownAs := by
  intro e he
  obtain ⟨m, hm, d, -, he⟩ := (h.entities e).mp he
  rw [Entity.moduleAlias_ofDocument he]
  exact List.mem_map_of_mem hm

end Complete

end Compilation

end EntitySchema
