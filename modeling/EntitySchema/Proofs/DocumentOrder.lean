import Mathlib.Data.List.Basic
import Mathlib.Tactic.Common
import EntitySchema.Proofs.Compilation
import EntitySchema.Proofs.TextOrder

/-!
# The order in which documents are given

The documents of a module are read in the order of their file names.  Where these are pairwise distinct
that order is determined by the documents alone (`orderedDocuments_eq`), nothing else looks at the
documents, and the result of a compilation does not depend on the order in which they are given, whether
or not it has errors (`compile_reordered`).
-/

namespace EntitySchema

/-- No two documents of a module have the same file name. -/
def ModuleSource.DistinctFiles (m : ModuleSource) : Prop :=
  (m.documents.map (·.sourceFileName)).Nodup

instance (m : ModuleSource) : Decidable m.DistinctFiles :=
  inferInstanceAs (Decidable (m.documents.map (·.sourceFileName)).Nodup)

/-- The same module, its documents in any order. -/
structure ModuleSource.Reordered (m m' : ModuleSource) : Prop where
  name : m'.name = m.name
  moduleAlias : m'.moduleAlias = m.moduleAlias
  documents : m.documents.Perm m'.documents

namespace ModuleSource.Reordered

variable {m m' : ModuleSource}

protected lemma refl (m : ModuleSource) : m.Reordered m :=
  ⟨rfl, rfl, .refl _⟩

lemma knownAs (h : m.Reordered m') : m'.knownAs = m.knownAs := by
  rw [ModuleSource.knownAs, ModuleSource.knownAs, h.name, h.moduleAlias]

end ModuleSource.Reordered

namespace Compilation

/-- The order of the file names does not depend on the order in which the documents are given. -/
lemma orderedDocuments_eq {m m' : ModuleSource} (h : m.Reordered m') (hfiles : m.DistinctFiles) :
    orderedDocuments m' = orderedDocuments m :=
  Text.mergeSort_eq_of_perm h.documents hfiles

/-- What modules declare does not depend on the order of their documents. -/
lemma readModules_reordered {ms ms' : List ModuleSource} (h : List.Forall₂ ModuleSource.Reordered ms ms')
    (hfiles : ∀ m ∈ ms, m.DistinctFiles) (taken : List String) :
    readModules taken ms' = readModules taken ms := by
  induction h generalizing taken with
  | nil => rfl
  | cons hm _ ih =>
    have hordered := orderedDocuments_eq hm (hfiles _ List.mem_cons_self)
    have hrest := ih fun m hmem => hfiles m (List.mem_cons_of_mem _ hmem)
    simp only [readModules, hm.knownAs, hm.name, hordered, hrest]

/-- A compilation does not depend on the order in which the documents of its modules are given. -/
theorem compile_reordered {project project' : ModuleSource} {dependencies dependencies' : List ModuleSource}
    {given : List Diagnostic} (hfiles : ∀ m ∈ project :: dependencies, m.DistinctFiles)
    (hproject : project.Reordered project')
    (hdependencies : List.Forall₂ ModuleSource.Reordered dependencies dependencies') :
    compile project' dependencies' given = compile project dependencies given := by
  have hread : readModules [] (project' :: dependencies') = readModules [] (project :: dependencies) :=
    readModules_reordered (.cons hproject hdependencies) hfiles []
  simp only [compile, hread, hproject.name]

/-- A document of a class with a table and one field. -/
def sampleDocument (className table field : String) : DocumentInput :=
  ⟨"class: " ++ className ++ "\ntable: " ++ table ++ "\nfields:\n  " ++ field ++ "\n",
    table ++ ".spy.yaml", table, [], none⟩

/-- A module with two documents that refer to each other's class, with an error in one of them. -/
def orders : ModuleSource :=
  { name := "orders"
    documents :=
      [sampleDocument "Order" "orders" "items: List<Item>?",
        sampleDocument "Item" "items" "unknown: Missing"] }

/-- The two documents can be given the other way round, in the project and in a dependency. -/
theorem compile_reordered_orders :
    compile { orders with documents := orders.documents.reverse }
        [{ orders with name := "other", documents := orders.documents.reverse }] [] =
      compile orders [{ orders with name := "other" }] [] :=
  compile_reordered (by decide) ⟨rfl, rfl, (List.reverse_perm _).symm⟩
    (.cons ⟨rfl, rfl, (List.reverse_perm _).symm⟩ .nil)

end Compilation

end EntitySchema
