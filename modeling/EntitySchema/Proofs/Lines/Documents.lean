import Mathlib.Data.List.Basic
import Mathlib.Tactic.Common
import EntitySchema.Document.Reading
import EntitySchema.Proofs.Lines.Basic

/-!
# What documents hand over

The messages about a document are written out, apart from what the document hands over to them: the messages of its
YAML problems, and its keys and texts as they have been read (`DocumentInput.handedOver`).  Quotes and block scalars
can put a line feed into a key or a text, so that these are lines is a condition on the document (`HandsOverLines`);
under it what is read has lines only (`withLines_readDocument`).
-/

namespace EntitySchema

namespace DocNode

mutual

/-- The texts in a node: the keys of its mappings, and its scalars that are texts. -/
def texts : DocNode → List String
  | .scalar value _ _ _ =>
    match value with
    | .text s => [s]
    | _ => []
  | .mapping ⟨entries, _, _⟩ => entryTexts entries
  | .sequence items _ _ => itemTexts items

/-- The texts in the entries of a mapping. -/
def entryTexts : List (DocEntry DocNode) → List String
  | [] => []
  | ⟨key, _, _, value, _⟩ :: rest => key :: (texts value ++ entryTexts rest)

/-- The texts in the items of a sequence. -/
def itemTexts : List (DocItem DocNode) → List String
  | [] => []
  | ⟨value, _⟩ :: rest => texts value ++ itemTexts rest

end

/-- All texts in the node are lines. -/
def HasLines (n : DocNode) : Prop :=
  ∀ s ∈ n.texts, IsLine s

end DocNode

/-- The key is a line, and the value has lines only. -/
structure MappingEntry.HasLines (e : MappingEntry) : Prop where
  key : IsLine e.key
  value : e.value.HasLines

/-- Every entry of the mapping has lines only. -/
def Mapping.HasLines (m : Mapping) : Prop :=
  ∀ e ∈ m.entries, MappingEntry.HasLines e

lemma DocNode.forall_entryTexts {entries : List MappingEntry} :
    (∀ s ∈ entryTexts entries, IsLine s) ↔ ∀ e ∈ entries, MappingEntry.HasLines e := by
  induction entries with
  | nil => simp [entryTexts]
  | cons e entries ih =>
    rw [entryTexts, List.forall_mem_cons, List.forall_mem_append, ih, List.forall_mem_cons]
    exact ⟨fun h => ⟨⟨h.1, h.2.1⟩, h.2.2⟩, fun h => ⟨h.1.key, h.1.value, h.2⟩⟩

lemma DocNode.forall_itemTexts {items : List SequenceItem} :
    (∀ s ∈ itemTexts items, IsLine s) ↔ ∀ i ∈ items, i.value.HasLines := by
  induction items with
  | nil => simp [itemTexts]
  | cons i items ih => rw [itemTexts, List.forall_mem_append, ih, List.forall_mem_cons, HasLines]

lemma Mapping.HasLines.find? {m : Mapping} (h : Mapping.HasLines m) {key : String} {e : MappingEntry}
    (he : m.find? key = some e) : MappingEntry.HasLines e :=
  h e (List.mem_of_find?_eq_some he)

namespace DocNode.HasLines

lemma text {n : DocNode} (h : n.HasLines) {s : String} (hs : n.text? = some s) : IsLine s := by
  unfold text? at hs
  split at hs
  · obtain rfl := Option.some.inj hs
    exact h _ List.mem_cons_self
  · cases hs

lemma mapping {m : Mapping} (h : (DocNode.mapping m).HasLines) : Mapping.HasLines m :=
  forall_entryTexts.mp h

lemma sequence {items : List SequenceItem} {r : Range} {span : Span} (h : (DocNode.sequence items r span).HasLines) :
    ∀ i ∈ items, i.value.HasLines :=
  forall_itemTexts.mp h

end DocNode.HasLines

/-! ### Reading a document -/

mutual

/-- The issues about a node are written out. -/
lemma allLines_docNode (c : TextContext) : ∀ n : Yaml.Node, Issue.AllLines (docNode c n).2
  | .scalar .. => by
    rw [docNode]
    exact Issue.allLines_nil
  | .alias .. => by
    rw [docNode]
    exact Issue.allLines_singleton (.lit (by decide))
  | .map entries e => by
    rw [docNode]
    exact allLines_docEntries c entries
  | .sequence items e => by
    rw [docNode]
    exact allLines_docItems c items

lemma allLines_docEntries (c : TextContext) :
    ∀ entries : List (Yaml.Node × Option Yaml.Node), Issue.AllLines (docEntries c entries).2
  | [] => by
    rw [docEntries]
    exact Issue.allLines_nil
  | (key, value) :: rest => by
    have hrest := allLines_docEntries c rest
    rw [docEntries]
    cases key with
    | scalar v quoted e =>
      cases value with
      | none => exact hrest
      | some n => exact Issue.allLines_append.mpr ⟨allLines_docNode c n, hrest⟩
    | «alias» | map | sequence => exact Issue.allLines_cons.mpr ⟨.lit (by decide), hrest⟩

lemma allLines_docItems (c : TextContext) : ∀ items : List Yaml.Node, Issue.AllLines (docItems c items).2
  | [] => by
    rw [docItems]
    exact Issue.allLines_nil
  | n :: rest => by
    rw [docItems]
    exact Issue.allLines_append.mpr ⟨allLines_docNode c n, allLines_docItems c rest⟩

end

namespace DocumentInput

/-- What the document hands over to messages as it is. -/
def handedOver (d : DocumentInput) : List String :=
  (Yaml.read d.yaml.toList).problems.map (·.fault.message) ++
    ((readDocument d).1.map fun p => DocNode.entryTexts p.root.entries).getD []

/-- Whatever the document hands over is a line. -/
def HandsOverLines (d : DocumentInput) : Prop :=
  ∀ s ∈ d.handedOver, IsLine s

instance (d : DocumentInput) : Decidable d.HandsOverLines :=
  inferInstanceAs (Decidable (∀ s ∈ d.handedOver, IsLine s))

/-- The module does not matter for what the document hands over. -/
lemma handedOver_withAlias (d : DocumentInput) (a : Option String) :
    { d with moduleAlias := a }.handedOver = d.handedOver := by
  unfold handedOver readDocument
  dsimp only
  split <;> rfl

end DocumentInput

/-- A document that hands over lines is read as lines. -/
theorem withLines_readDocument {d : DocumentInput} (h : d.HandsOverLines) :
    WithLines (Each fun p : ParsedDocument => Mapping.HasLines p.root) (readDocument d) := by
  obtain ⟨hproblems, htexts⟩ := List.forall_mem_append.mp h
  have hmessages : Issue.AllLines (((Yaml.read d.yaml.toList).warnings ++ (Yaml.read d.yaml.toList).errors).map
      (yamlIssue (TextContext.of d.yaml.toList))) := by
    refine Issue.allLines_map fun p hp => hproblems _ (List.mem_map_of_mem ?_)
    exact (List.mem_append.mp hp).elim List.mem_of_mem_filter List.mem_of_mem_filter
  constructor
  · intro p hp
    rw [hp] at htexts
    exact DocNode.forall_entryTexts.mp htexts
  · unfold readDocument
    dsimp only
    split
    · exact Issue.allLines_append.mpr ⟨hmessages, allLines_docEntries _ _⟩
    · refine Issue.allLines_append.mpr ⟨hmessages, ?_⟩
      split
      · exact Issue.allLines_singleton (.lit (by decide))
      · exact Issue.allLines_nil

end EntitySchema
