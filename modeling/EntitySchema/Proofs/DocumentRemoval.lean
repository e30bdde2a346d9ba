import Mathlib.Data.List.Basic
import Mathlib.Tactic.Common
import EntitySchema.Proofs.Declarations
import EntitySchema.Proofs.DocumentOrder

/-!
# Documents that declare nothing

A document that declares no entity has an error of its own (`hasErrors_of_undeclared`).  Leaving it out leaves
the order of the other documents, and what they declare, and takes its own diagnostics out of those of its
module (`orderedDocuments_without`, `exists_readDocuments_erase`).  The passes see entities and aliases only, so
the definitions of all modules stay what they are, and all other diagnostics stay where they are
(`compile_leavingOut`).
-/

namespace EntitySchema

namespace ModuleSource

/-- The module without one of its documents. -/
def without (m : ModuleSource) (d : DocumentInput) : ModuleSource :=
  { m with documents := m.documents.erase d }

/-- A module of a compilation from which the document `d` of the module `m` is left out. -/
def leavingOut (m : ModuleSource) (d : DocumentInput) (s : ModuleSource) : ModuleSource :=
  if s.knownAs = m.knownAs then s.without d else s

variable {m s : ModuleSource} {d : DocumentInput}

@[simp] lemma knownAs_without : (m.without d).knownAs = m.knownAs := rfl

@[simp] lemma leavingOut_self : m.leavingOut d m = m.without d := if_pos rfl

@[simp] lemma name_leavingOut : (m.leavingOut d s).name = s.name := by
  unfold leavingOut
  split <;> rfl

@[simp] lemma knownAs_leavingOut : (m.leavingOut d s).knownAs = s.knownAs := by
  unfold leavingOut
  split <;> rfl

/-- Modules with other aliases stay as they are. -/
lemma map_leavingOut {ms : List ModuleSource} (h : ∀ s ∈ ms, s.knownAs ≠ m.knownAs) :
    ms.map (m.leavingOut d) = ms := by
  conv_rhs => rw [← List.map_id ms]
  exact List.map_congr_left fun s hs => if_neg (h s hs)

end ModuleSource

/-- A document that declares nothing has an error. -/
theorem Entity.hasErrors_of_undeclared {input : DocumentInput} (hnone : (ofDocument input).1 = none) :
    Diagnostic.hasErrors (ofDocument input).2 = true := by
  by_contra hno
  rw [Bool.not_eq_true] at hno
  obtain ⟨e, he, -⟩ := declares_ofDocument hno
  rw [hnone] at he
  cases he

namespace Compilation

/-! ### One module -/

section Module

variable {m : ModuleSource} {d : DocumentInput}

/-- The other documents of a module are read in their order. -/
lemma orderedDocuments_without (hfiles : m.DistinctFiles) :
    orderedDocuments (m.without d) = (orderedDocuments m).erase d :=
  Text.mergeSort_erase hfiles d

/-- Documents are read one after the other. -/
lemma readDocuments_append (a : String) (ds ds' : List DocumentInput) :
    readDocuments a (ds ++ ds') =
      ((readDocuments a ds).1 ++ (readDocuments a ds').1, (readDocuments a ds).2 ++ (readDocuments a ds').2) := by
  induction ds with
  | nil => rfl
  | cons d ds ih => simp only [List.cons_append, readDocuments, ih, List.append_assoc]

/-- Without a document that declares nothing only its own diagnostics are missing. -/
lemma exists_readDocuments_erase {ds : List DocumentInput} (hd : d ∈ ds)
    (hnone : (Entity.ofDocument (m.input d)).1 = none) :
    ∃ before behind,
      (readDocuments m.knownAs ds).2 = before ++ (Entity.ofDocument (m.input d)).2 ++ behind ∧
        readDocuments m.knownAs (ds.erase d) = ((readDocuments m.knownAs ds).1, before ++ behind) := by
  obtain ⟨ds₁, ds₂, -, hds, herase⟩ := List.exists_erase_eq hd
  have hread : readDocuments m.knownAs (d :: ds₂) =
      ((readDocuments m.knownAs ds₂).1,
        (Entity.ofDocument (m.input d)).2 ++ (readDocuments m.knownAs ds₂).2) := by
    rw [readDocuments]
    change ((Entity.ofDocument (m.input d)).1.toList ++ _, _) = _
    rw [hnone]
    rfl
  refine ⟨(readDocuments m.knownAs ds₁).2, (readDocuments m.knownAs ds₂).2, ?_, ?_⟩
  · rw [hds, readDocuments_append, hread, List.append_assoc]
  · rw [herase, hds, readDocuments_append, readDocuments_append, hread]

end Module

/-! ### All modules -/

section Modules

variable {project : ModuleSource} {dependencies : List ModuleSource} {given : List Diagnostic}
variable {m : ModuleSource} {d : DocumentInput}

/-- What is declared is the same without a document that declares nothing, and only its own diagnostics are
missing. -/
lemma exists_declarations_leavingOut (haliases : ((project :: dependencies).map ModuleSource.knownAs).Nodup)
    (hfiles : m.DistinctFiles) (hm : m ∈ project :: dependencies) (hd : d ∈ m.documents)
    (hnone : (Entity.ofDocument (m.input d)).1 = none) :
    ∃ before behind,
      (declarations project dependencies).diagnostics =
          before ++ (Entity.ofDocument (m.input d)).2 ++ behind ∧
        declarations (m.leavingOut d project) (dependencies.map (m.leavingOut d)) =
          { declarations project dependencies with diagnostics := before ++ behind } := by
  obtain ⟨own, rest, hown, hwithout⟩ := exists_readDocuments_erase (mem_orderedDocuments.mpr hd) hnone
  rw [← orderedDocuments_without hfiles] at hwithout
  have haliases' : ((m.leavingOut d project :: dependencies.map (m.leavingOut d)).map
      ModuleSource.knownAs).Nodup := by
    rw [← List.map_cons, List.map_map]
    simpa [Function.comp_def] using haliases
  rw [declarations_eq haliases, declarations_eq haliases', ← List.map_cons]
  obtain ⟨ms₁, ms₂, hms⟩ := List.append_of_mem hm
  rw [hms] at haliases ⊢
  -- The aliases of the other modules differ from that of `m`, so only `m` changes.
  rw [List.map_append, List.map_cons, List.nodup_append, List.nodup_cons] at haliases
  obtain ⟨-, ⟨hbehind, -⟩, hbefore⟩ := haliases
  have h₁ : ms₁.map (m.leavingOut d) = ms₁ :=
    ModuleSource.map_leavingOut fun s hs =>
      hbefore _ (List.mem_map_of_mem hs) _ List.mem_cons_self
  have h₂ : ms₂.map (m.leavingOut d) = ms₂ :=
    ModuleSource.map_leavingOut fun s hs heq => hbehind (heq ▸ List.mem_map_of_mem hs)
  refine ⟨ms₁.flatMap (fun s => (readDocuments s.knownAs (orderedDocuments s)).2) ++ own,
    rest ++ ms₂.flatMap (fun s => (readDocuments s.knownAs (orderedDocuments s)).2), ?_, ?_⟩
  · simp only [List.flatMap_append, List.flatMap_cons, hown, List.append_assoc]
  · rw [List.map_append, List.map_cons, h₁, h₂, ModuleSource.leavingOut_self]
    have hdeclared : declaredBy (m.without d) = declaredBy m := by
      rw [declaredBy, ModuleSource.knownAs_without, hwithout]
      rfl
    simp only [List.map_append, List.map_cons, List.flatMap_append, List.flatMap_cons, hdeclared,
      ModuleSource.knownAs_without, hwithout, List.append_assoc]
    rfl

/-- A document that declares nothing has an error, and leaving it out of a compilation changes no definition and
takes nothing out of the diagnostics but its own. -/
theorem compile_leavingOut (haliases : ((project :: dependencies).map ModuleSource.knownAs).Nodup)
    (hfiles : ∀ s ∈ project :: dependencies, s.DistinctFiles) (hm : m ∈ project :: dependencies)
    (hd : d ∈ m.documents) (hnone : (Entity.ofDocument (m.input d)).1 = none) :
    Diagnostic.hasErrors (Entity.ofDocument (m.input d)).2 = true ∧
      (compile (m.leavingOut d project) (dependencies.map (m.leavingOut d)) given).project =
        (compile project dependencies given).project ∧
      (compile (m.leavingOut d project) (dependencies.map (m.leavingOut d)) given).dependencies =
        (compile project dependencies given).dependencies ∧
      ∃ before behind,
        (compile project dependencies given).diagnostics =
            before ++ (Entity.ofDocument (m.input d)).2 ++ behind ∧
          (compile (m.leavingOut d project) (dependencies.map (m.leavingOut d)) given).diagnostics =
            before ++ behind := by
  obtain ⟨before, behind, hdiagnostics, hdeclarations⟩ :=
    exists_declarations_leavingOut haliases (hfiles m hm) hm hd hnone
  rw [declarations] at hdiagnostics
  rw [declarations, declarations] at hdeclarations
  refine ⟨Entity.hasErrors_of_undeclared hnone, ?_, ?_, given ++ before, ?_⟩
  · simp only [compile, hdeclarations, ModuleSource.name_leavingOut]
  · simp only [compile, hdeclarations, ModuleSource.name_leavingOut]
  · simp only [compile, hdeclarations, hdiagnostics, List.append_assoc]
    exact ⟨_, rfl, rfl⟩

/-- A document with a table and no class. -/
def untitled : DocumentInput :=
  ⟨"table: drafts\n", "drafts.spy.yaml", "drafts", [], none⟩

/-- A module with an unknown type, a document that declares nothing, and a class behind it. -/
def drafts : ModuleSource :=
  { name := "drafts"
    documents :=
      [sampleDocument "Author" "authors" "latest: Draft?", untitled, sampleDocument "Reader" "readers" "of: Author?"] }

/-- The document that declares nothing can be left out next to the errors of the other documents. -/
theorem compile_leavingOut_drafts :
    (Entity.ofDocument (drafts.input untitled)).1 = none ∧
      (compile orders [drafts.without untitled] []).dependencies = (compile orders [drafts] []).dependencies ∧
      ∃ before behind,
        (compile orders [drafts] []).diagnostics =
            before ++ (Entity.ofDocument (drafts.input untitled)).2 ++ behind ∧
          (compile orders [drafts.without untitled] []).diagnostics = before ++ behind := by
  have hnone : (Entity.ofDocument (drafts.input untitled)).1 = none :=
    Option.isNone_iff_eq_none.mp (by decide +kernel)
  have horders : drafts.leavingOut untitled orders = orders := if_neg (by decide)
  obtain ⟨-, -, hdependencies, hdiagnostics⟩ :=
    @compile_leavingOut orders [drafts] [] drafts untitled (by decide) (by decide) (by simp) (by decide) hnone
  rw [horders, List.map_singleton, ModuleSource.leavingOut_self] at hdependencies hdiagnostics
  exact ⟨hnone, hdependencies, hdiagnostics⟩

end Modules

end Compilation

end EntitySchema
