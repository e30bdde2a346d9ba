import Mathlib.Data.List.Forall2
import Mathlib.Tactic.Common
import EntitySchema.Proofs.FieldNames

/-!
# What a document keeps of its text

The nodes of a document mirror those of its text.  An alias or a key that is no scalar is reported, so where
nothing is reported every entry of a map has an entry in the document, with the same key and the mirror of its
value (`mirrors_docEntries`).  In a document that is read without errors every entry mirrors one of the text
(`exists_content`), and a key that is not the text of a literal occurs once (`under_cases`), so what stands
under a key of the text is what the document finds under it (`exists_mirrors_of_find?`).
-/

namespace EntitySchema

/-! ### Maps of a text -/

namespace Yaml

/-- The text of a node that can be a key. -/
def Node.keyText? : Node → Option String
  | .scalar v _ _ => some v.toText
  | _ => none

/-- The text of a node that is a text. -/
def Node.text? : Node → Option String
  | .scalar (.text s) _ _ => some s
  | _ => none

/-- The entries of a map under a key. -/
def under (key : String) (entries : List (Node × Option Node)) : List (Node × Option Node) :=
  entries.filter (·.1.keyText? == some key)

/-- Where keys differ, a key that is the name of a field and not the text of a literal occurs at most once. -/
lemma under_cases {key : String} {entries : List (Node × Option Node)} (hname : Naming.isFieldName key = true)
    (hliteral : key ∉ literalNames) (hapart : entries.Pairwise fun a b => a.1.sameKey b.1 = false) :
    under key entries = [] ∨ ∃ a, under key entries = [a] := by
  have hkeys : ∀ a ∈ under key entries, ∃ v quoted e, a.1 = .scalar v quoted e ∧ v.toText = key := by
    rintro ⟨n, value⟩ ha
    have hkey := (List.mem_filter.mp ha).2
    cases n with
    | scalar v quoted e => exact ⟨v, quoted, e, rfl, by simpa [Node.keyText?] using hkey⟩
    | «alias» | map | sequence => cases hkey
  have hunder : (under key entries).Pairwise fun a b => a.1.sameKey b.1 = false := hapart.filter _
  match h : under key entries with
  | [] => exact Or.inl rfl
  | [a] => exact Or.inr ⟨a, rfl⟩
  | a :: b :: rest =>
    rw [h] at hkeys hunder
    obtain ⟨v, q, e, hv, hvkey⟩ := hkeys a List.mem_cons_self
    obtain ⟨w, q', e', hw, hwkey⟩ := hkeys b (List.mem_cons_of_mem a List.mem_cons_self)
    have hsame := (List.pairwise_cons.mp hunder).1 b List.mem_cons_self
    rw [hv, hw] at hsame
    have hmem := mem_literalNames_of_toText hsame (hvkey.trans hwkey.symm) (by rw [hvkey]; exact hname)
    rw [hvkey] at hmem
    exact absurd hmem hliteral

end Yaml

/-! ### Issues about nodes -/

mutual

/-- Every issue about a node is an error. -/
lemma allErrors_docNode (c : TextContext) : ∀ n : Yaml.Node, Issue.AllErrors (docNode c n).2
  | .scalar .. => by
    rw [docNode]
    exact Issue.allErrors_nil
  | .alias .. => by
    rw [docNode]
    simp [aliasIssue]
  | .map entries e => by
    rw [docNode]
    exact allErrors_docEntries c entries
  | .sequence items e => by
    rw [docNode]
    exact allErrors_docItems c items

lemma allErrors_docEntries (c : TextContext) :
    ∀ entries : List (Yaml.Node × Option Yaml.Node), Issue.AllErrors (docEntries c entries).2
  | [] => by
    rw [docEntries]
    exact Issue.allErrors_nil
  | (key, value) :: rest => by
    have hrest := allErrors_docEntries c rest
    rw [docEntries]
    cases key with
    | scalar v quoted e =>
      cases value with
      | none => simpa using hrest
      | some n => exact Issue.allErrors_append.mpr ⟨allErrors_docNode c n, hrest⟩
    | «alias» | map | sequence => exact Issue.allErrors_cons.mpr ⟨rfl, hrest⟩

lemma allErrors_docItems (c : TextContext) : ∀ items : List Yaml.Node, Issue.AllErrors (docItems c items).2
  | [] => by
    rw [docItems]
    exact Issue.allErrors_nil
  | n :: rest => by
    rw [docItems]
    exact Issue.allErrors_append.mpr ⟨allErrors_docNode c n, allErrors_docItems c rest⟩

end

/-! ### Mirrored nodes -/

section Mirrors

variable {c : TextContext}

/-- An entry of a document mirrors an entry of a text: it has the text of its key and the mirror of its value,
about which nothing is reported. -/
structure Mirrors (c : TextContext) (a : Yaml.Node × Option Yaml.Node) (e : MappingEntry) : Prop where
  key : a.1.keyText? = some e.key
  value : (∃ n, a.2 = some n ∧ e.value = (docNode c n).1 ∧ (docNode c n).2 = []) ∨
    (a.2 = none ∧ e.value.isNull = true)

/-- Where nothing is reported, every entry is mirrored, in the order of the text. -/
theorem mirrors_docEntries {entries : List (Yaml.Node × Option Yaml.Node)}
    (h : (docEntries c entries).2 = []) : List.Forall₂ (Mirrors c) entries (docEntries c entries).1 := by
  induction entries with
  | nil =>
    rw [docEntries]
    exact List.Forall₂.nil
  | cons a entries ih =>
    obtain ⟨key, value⟩ := a
    rw [docEntries] at h ⊢
    cases key with
    | scalar v quoted e =>
      obtain ⟨hvalue, hrest⟩ := List.append_eq_nil_iff.mp h
      refine List.Forall₂.cons ⟨rfl, ?_⟩ (ih hrest)
      cases value with
      | none => exact Or.inr ⟨rfl, rfl⟩
      | some n => exact Or.inl ⟨n, rfl, rfl, hvalue⟩
    | «alias» | map | sequence => cases h

/-- The mirror of a node has its text. -/
lemma text?_docNode (n : Yaml.Node) : (docNode c n).1.text? = n.text? := by
  cases n with
  | scalar v quoted e =>
    rw [docNode]
    cases v <;> rfl
  | «alias» | map | sequence =>
    rw [docNode]
    rfl

/-- The mirrors of items have their texts. -/
lemma map_text?_docItems (items : List Yaml.Node) :
    (docItems c items).1.map (·.value.text?) = items.map Yaml.Node.text? := by
  induction items with
  | nil =>
    rw [docItems]
    rfl
  | cons n items ih =>
    rw [docItems, List.map_cons, List.map_cons, ih]
    exact congrArg (· :: _) (text?_docNode n)

namespace Mirrors

variable {a : Yaml.Node × Option Yaml.Node} {e : MappingEntry}

/-- A mapping mirrors a map with the same keys. -/
lemma mapping (h : Mirrors c a e) {m : Mapping} (hm : e.value = .mapping m) :
    ∃ inner extent, a.2 = some (.map inner extent) ∧
      inner.map (·.1.keyText?) = m.entries.map fun e => some e.key := by
  rcases h.value with ⟨n, hn, hvalue, hissues⟩ | ⟨-, hnull⟩
  · rw [hm] at hvalue
    cases n with
    | scalar | «alias» | sequence =>
      rw [docNode] at hvalue
      cases hvalue
    | map inner extent =>
      rw [docNode] at hvalue hissues
      cases hvalue
      refine ⟨inner, extent, hn, ?_⟩
      have hkeys := (mirrors_docEntries hissues).imp fun _ _ hmirrors => hmirrors.key
      rwa [← List.forall₂_eq_eq_eq, List.forall₂_map_left_iff, List.forall₂_map_right_iff]
  · rw [hm] at hnull
    cases hnull

/-- A sequence mirrors a sequence with the same texts. -/
lemma sequence (h : Mirrors c a e) {xs : List SequenceItem} {r : Range} {s : Span}
    (hx : e.value = .sequence xs r s) :
    ∃ items extent, a.2 = some (.sequence items extent) ∧
      items.map Yaml.Node.text? = xs.map (·.value.text?) := by
  rcases h.value with ⟨n, hn, hvalue, -⟩ | ⟨-, hnull⟩
  · rw [hx] at hvalue
    cases n with
    | scalar | «alias» | map =>
      rw [docNode] at hvalue
      cases hvalue
    | sequence items extent =>
      rw [docNode] at hvalue
      cases hvalue
      exact ⟨items, extent, hn, (map_text?_docItems items).symm⟩
  · rw [hx] at hnull
    cases hnull

/-- A text mirrors the same text. -/
lemma text (h : Mirrors c a e) {s : String} (hs : e.value.text? = some s) :
    ∃ n, a.2 = some n ∧ n.text? = some s := by
  rcases h.value with ⟨n, hn, hvalue, -⟩ | ⟨-, hnull⟩
  · exact ⟨n, hn, by rw [← text?_docNode (c := c), ← hvalue, hs]⟩
  · unfold DocNode.isNull at hnull
    split at hnull
    · rename_i hvalue
      rw [hvalue] at hs
      cases hs
    · cases hnull

end Mirrors

/-- What stands under a key is mirrored by the entries with this key. -/
lemma forall₂_under {entries : List (Yaml.Node × Option Yaml.Node)} {es : List MappingEntry}
    (h : List.Forall₂ (Mirrors c) entries es) (key : String) :
    List.Forall₂ (Mirrors c) (Yaml.under key entries) (es.filter (·.key == key)) := by
  refine List.rel_filter ?_ h
  intro a e hmirrors
  simp [hmirrors.key]

/-- If a mapping has no entry with a key, nothing stands under it. -/
lemma under_eq_nil {entries : List (Yaml.Node × Option Yaml.Node)} {m : Mapping}
    (h : List.Forall₂ (Mirrors c) entries m.entries) {key : String} (hnone : m.find? key = none) :
    Yaml.under key entries = [] := by
  have hunder := forall₂_under h key
  rw [List.filter_eq_nil_iff.mpr (by simpa [DocMapping.find?] using hnone)] at hunder
  exact List.forall₂_nil_right_iff.mp hunder

/-- The first entry with a key mirrors what stands under it first. -/
lemma exists_mirrors_of_find? {entries : List (Yaml.Node × Option Yaml.Node)} {m : Mapping}
    (h : List.Forall₂ (Mirrors c) entries m.entries) {key : String} {e : MappingEntry}
    (he : m.find? key = some e) : ∃ a rest, Yaml.under key entries = a :: rest ∧ Mirrors c a e := by
  have hunder := forall₂_under h key
  rw [DocMapping.find?, ← List.head?_filter] at he
  obtain ⟨es, hes⟩ := List.head?_eq_some_iff.mp he
  rw [hes] at hunder
  obtain ⟨a, rest, hmirrors, -, hrest⟩ := List.forall₂_cons_right_iff.mp hunder
  exact ⟨a, rest, hrest, hmirrors⟩

end Mirrors

/-! ### Documents without errors -/

/-- A document that is read without errors is a map with different keys, all of whose entries are mirrored. -/
theorem exists_content {input : DocumentInput}
    (hno : Diagnostic.hasErrors ((readDocument input).2.map (Issue.toDiagnostic input.sourceFileName)) = false) :
    ∃ d entries extent c, (readDocument input).1 = some d ∧
      (Yaml.read input.yaml.toList).content = some (.map entries extent) ∧
      (entries.Pairwise fun a b => a.1.sameKey b.1 = false) ∧ List.Forall₂ (Mirrors c) entries d.root.entries := by
  have herrors := errors_read hno
  unfold readDocument at hno ⊢
  dsimp only at hno ⊢
  split at hno
  · rename_i entries extent hcontent
    rw [List.map_append, Diagnostic.hasErrors_append, Bool.or_eq_false_iff] at hno
    have hissues := Issue.eq_nil_of_hasErrors_eq_false (allErrors_docEntries _ entries) hno.2
    refine ⟨_, entries, extent, _, rfl, hcontent, ?_, mirrors_docEntries hissues⟩
    cases Yaml.distinctKeys_read herrors hcontent with
    | map apart values => exact apart
  · -- Another content would have been reported.
    simp [herrors, topLevelIssue, Diagnostic.hasErrors, Diagnostic.isError, Issue.toDiagnostic] at hno

end EntitySchema
