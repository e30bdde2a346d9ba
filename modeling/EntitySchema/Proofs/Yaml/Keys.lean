import Mathlib.Data.List.Basic
import Mathlib.Tactic.Common
import EntitySchema.Yaml.Document

/-!
# Keys of maps

In a document without errors no map has a key twice (`distinctKeys_read`).  A key that an earlier entry has
is reported when its entry is added, so every map under construction either has a problem or has distinct
keys; this is what one entry preserves.  The induction is on the layout.
-/

namespace EntitySchema

namespace Yaml

/-- Problems none of which makes the text invalid. -/
def Clean (problems : List Problem) : Prop :=
  ∀ p ∈ problems, p.isWarning = true

@[simp] lemma clean_append {ps qs : List Problem} : Clean (ps ++ qs) ↔ Clean ps ∧ Clean qs := by
  simp only [Clean, List.mem_append]
  constructor
  · exact fun h => ⟨fun p hp => h p (Or.inl hp), fun p hp => h p (Or.inr hp)⟩
  · rintro ⟨h, h'⟩ p (hp | hp)
    · exact h p hp
    · exact h' p hp

/-- No map of a node has a key twice. -/
inductive Node.DistinctKeys : Node → Prop where
  | scalar (value : Scalar) (quoted : Bool) (e : Extent) : DistinctKeys (.scalar value quoted e)
  | alias (e : Extent) : DistinctKeys (.alias e)
  | map {entries : List (Node × Option Node)} {e : Extent}
      (apart : entries.Pairwise fun a b => a.1.sameKey b.1 = false)
      (values : ∀ a ∈ entries, ∀ v, a.2 = some v → DistinctKeys v) : DistinctKeys (.map entries e)
  | sequence {items : List Node} {e : Extent} (items_distinct : ∀ x ∈ items, DistinctKeys x) :
      DistinctKeys (.sequence items e)

/-- Entries with distinct keys, whose values have distinct keys too. -/
structure DistinctEntries (entries : List (Node × Option Node)) : Prop where
  apart : entries.Pairwise fun a b => a.1.sameKey b.1 = false
  values : ∀ a ∈ entries, ∀ v, a.2 = some v → v.DistinctKeys

lemma distinctEntries_nil : DistinctEntries [] :=
  ⟨List.Pairwise.nil, fun _ h => absurd h List.not_mem_nil⟩

/-- A key that is not reported is a new one. -/
lemma clean_duplicateProblem {entries : List (Node × Option Node)} {key : Node} {offset : Nat} :
    Clean (duplicateProblem entries key offset) ↔ ∀ a ∈ entries, a.1.sameKey key = false := by
  unfold duplicateProblem
  split
  · rename_i h
    obtain ⟨a, ha, hsame⟩ := List.any_eq_true.mp h
    constructor
    · intro hclean
      have hwarning := hclean _ (List.mem_singleton_self _)
      cases hwarning
    · intro hnew
      rw [hnew a ha] at hsame
      cases hsame
  · rename_i h
    refine ⟨fun _ a ha => ?_, fun _ p hp => absurd hp List.not_mem_nil⟩
    by_contra hsame
    exact h (List.any_eq_true.mpr ⟨a, ha, by simpa using hsame⟩)

/-- One more entry with a new key. -/
lemma DistinctEntries.add {entries : List (Node × Option Node)} (h : DistinctEntries entries) {key : Node}
    {value : Option Node} (hnew : ∀ a ∈ entries, a.1.sameKey key = false)
    (hvalue : ∀ v, value = some v → v.DistinctKeys) : DistinctEntries (entries ++ [(key, value)]) where
  apart := by
    rw [List.pairwise_append]
    refine ⟨h.apart, List.pairwise_singleton _ _, fun a ha b hb => ?_⟩
    rw [List.mem_singleton.mp hb]
    exact hnew a ha
  values a ha v hv := by
    rcases List.mem_append.mp ha with ha | ha
    · exact h.values a ha v hv
    · rw [List.mem_singleton.mp ha] at hv
      exact hvalue v hv

/-! ### Scalars -/

lemma distinctKeys_emptyNode (handles : TagHandles) (props : Properties) (position : Nat) :
    (emptyNode handles props position).1.DistinctKeys :=
  .scalar _ _ _

lemma distinctKeys_blockNode (handles : TagHandles) (props : Properties) (atRoot : Bool)
    (offset indent : Nat) (header : List Lexeme) (text : List Char) :
    (blockNode handles props atRoot offset indent header text).1.DistinctKeys :=
  .scalar _ _ _

lemma distinctKeys_flatNode (handles : TagHandles) (props : Properties) (kind : Kind) (offset : Nat)
    (text : List Char) (tail : Option (List Lexeme)) :
    (flatNode handles props kind offset text tail).1.DistinctKeys := by
  unfold flatNode
  dsimp only
  split
  · exact .alias _
  · exact .scalar _ _ _

/-! ### Collections under construction -/

/-- A block map has a problem or distinct keys. -/
def MapBuild.Distinct (b : MapBuild) : Prop :=
  Clean b.problems → DistinctEntries b.entries

/-- A block sequence has a problem or items with distinct keys. -/
def SequenceBuild.Distinct (b : SequenceBuild) : Prop :=
  Clean b.problems → ∀ x ∈ b.items, x.DistinctKeys

/-- A flow collection has a problem or distinct keys. -/
def FlowBuild.Distinct (b : FlowBuild) : Prop :=
  Clean b.problems → DistinctEntries b.entries ∧ ∀ x ∈ b.items, x.DistinctKeys

/-- One more entry of a block map, if its key and its value have been checked. -/
lemma MapBuild.Distinct.add {b : MapBuild} (h : b.Distinct) (key : Node) (value : Option Node) (offset : Nat)
    (problems : List Problem)
    (hclean : Clean problems → Clean b.problems ∧ (∀ a ∈ b.entries, a.1.sameKey key = false) ∧
      ∀ v, value = some v → v.DistinctKeys) :
    MapBuild.Distinct { b with entries := b.entries ++ [(key, value)], offset, problems } := by
  intro hproblems
  obtain ⟨hb, hnew, hvalue⟩ := hclean hproblems
  exact (h hb).add hnew hvalue

lemma MapBuild.distinct_ite {c : Prop} [Decidable c] {b b' : MapBuild} (h : b.Distinct)
    (h' : b'.Distinct) : MapBuild.Distinct (if c then b else b') := by
  split
  · exact h
  · exact h'

lemma FlowBuild.distinct_ite {c : Prop} [Decidable c] {b b' : FlowBuild} (h : b.Distinct)
    (h' : b'.Distinct) : FlowBuild.Distinct (if c then b else b') := by
  split
  · exact h
  · exact h'

/-- One more item. -/
lemma distinctKeys_of_mem_add {items : List Node} {item : Node} (h : ∀ x ∈ items, x.DistinctKeys)
    (hitem : item.DistinctKeys) : ∀ x ∈ items ++ [item], x.DistinctKeys := by
  intro x hx
  rcases List.mem_append.mp hx with hx | hx
  · exact h x hx
  · rw [List.mem_singleton.mp hx]
    exact hitem

/-- More problems of a flow collection. -/
lemma FlowBuild.Distinct.report {b : FlowBuild} (h : b.Distinct) {problems : List Problem}
    (hclean : Clean problems → Clean b.problems) : FlowBuild.Distinct { b with problems } :=
  fun hproblems => h (hclean hproblems)

/-- One more pair of a flow collection. -/
lemma FlowBuild.Distinct.addPair {b : FlowBuild} (h : b.Distinct) (isMap : Bool) (keyStart : Nat) (key : Node)
    (value : Option Node) (offset : Nat) (problems : List Problem)
    (hvalue : Clean problems → ∀ v, value = some v → v.DistinctKeys) :
    (b.addPair isMap keyStart key value offset problems).Distinct := by
  unfold FlowBuild.addPair
  split
  · intro hclean
    simp only [clean_append] at hclean
    obtain ⟨⟨hb, hproblems⟩, hduplicate⟩ := hclean
    exact ⟨(h hb).1.add (clean_duplicateProblem.mp hduplicate) (hvalue hproblems), (h hb).2⟩
  · intro hclean
    simp only [clean_append] at hclean
    refine ⟨(h hclean.1).1, distinctKeys_of_mem_add (h hclean.1).2 ?_⟩
    have hpair : DistinctEntries ([] ++ [(key, value)]) :=
      distinctEntries_nil.add (fun _ h => absurd h List.not_mem_nil) (hvalue hclean.2)
    exact .map hpair.apart hpair.values

mutual

/-- A part that is composed without errors has distinct keys. -/
theorem distinctKeys_compose (handles : TagHandles) (atRoot : Bool) (props : Properties) :
    ∀ p : Part, Clean (compose handles atRoot props p).2 → (compose handles atRoot props p).1.DistinctKeys
  | .flat kind offset _ text tail, _ => distinctKeys_flatNode handles props kind offset text tail
  | .block offset indent header text, _ => distinctKeys_blockNode handles props atRoot offset indent header text
  | .misplaced offset _ _, _ => distinctKeys_emptyNode handles props offset
  | .blockMap offset indent entries, h => by
    have hb : MapBuild.Distinct ⟨[], offset, none, []⟩ := fun _ => distinctEntries_nil
    have hmap := distinct_composeMap handles indent entries _ hb
    simp only [compose, clean_append] at h ⊢
    have hentries := hmap h.1.2
    exact .map hentries.apart hentries.values
  | .blockSequence offset indent entries, h => by
    have hb : SequenceBuild.Distinct ⟨[], offset, none, []⟩ := fun _ _ h => absurd h List.not_mem_nil
    have hsequence := distinct_composeSequence handles indent entries _ hb
    simp only [compose, clean_append] at h ⊢
    exact .sequence (hsequence h.1.2)
  | .flow offset indent opening entries tail, h => by
    have hb : FlowBuild.Distinct ⟨[], [], offset + opening.length, []⟩ :=
      fun _ => ⟨distinctEntries_nil, fun _ h => absurd h List.not_mem_nil⟩
    have hflow := distinct_composeFlow handles (opening.kind == .openMap) indent true entries _ hb
    simp only [compose, clean_append] at h ⊢
    obtain ⟨hentries, hitems⟩ := hflow h.1.1.2
    split
    · exact .map hentries.apart hentries.values
    · exact .sequence hitems

/-- A part that may be missing has distinct keys if it is composed without errors. -/
theorem distinctKeys_composeOr (handles : TagHandles) (props : Properties) (position : Nat) :
    ∀ p : Option Part, Clean (composeOr handles props position p).2 →
      (composeOr handles props position p).1.DistinctKeys
  | some p, h => distinctKeys_compose handles false props p h
  | none, _ => distinctKeys_emptyNode handles props position

/-- The entries of a block map keep its keys distinct. -/
theorem distinct_composeMap (handles : TagHandles) (indent : Nat) :
    ∀ (entries : List (Entry Part)) (b : MapBuild), b.Distinct →
      (composeMap handles indent entries b).Distinct
  | [], b, hb => hb
  | ⟨start, key, separator, value, _⟩ :: rest, b, hb => by
    have hvalue := fun props position => distinctKeys_composeOr handles props position value
    unfold composeMap
    dsimp only
    split
    · refine distinct_composeMap handles indent rest _ fun hclean => ?_
      simp only [clean_append] at hclean
      exact hb hclean.1.1
    · refine distinct_composeMap handles indent rest _
        (MapBuild.distinct_ite (hb.add _ _ _ _ fun hclean => ?_) (hb.add _ _ _ _ fun hclean => ?_))
      · simp only [clean_append, clean_duplicateProblem] at hclean
        obtain ⟨⟨⟨⟨⟨⟨⟨⟨hproblems, -⟩, -⟩, -⟩, -⟩, hnew⟩, -⟩, -⟩, hnode⟩ := hclean
        refine ⟨hproblems, hnew, fun v hv => ?_⟩
        cases hv
        exact hvalue _ _ hnode
      · simp only [clean_append, clean_duplicateProblem] at hclean
        obtain ⟨⟨⟨⟨⟨⟨⟨hproblems, -⟩, -⟩, -⟩, -⟩, hnew⟩, -⟩, -⟩ := hclean
        exact ⟨hproblems, hnew, fun v hv => by cases hv⟩

/-- The items of a block sequence keep their keys distinct. -/
theorem distinct_composeSequence (handles : TagHandles) (indent : Nat) :
    ∀ (entries : List (Entry Part)) (b : SequenceBuild), b.Distinct →
      (composeSequence handles indent entries b).Distinct
  | [], b, hb => hb
  | ⟨start, _, _, value, _⟩ :: rest, b, hb => by
    have hvalue := fun props position => distinctKeys_composeOr handles props position value
    unfold composeSequence
    dsimp only
    split
    · refine distinct_composeSequence handles indent rest _ fun hclean => ?_
      simp only [clean_append] at hclean
      exact hb hclean.1
    · refine distinct_composeSequence handles indent rest _ fun hclean => ?_
      simp only [clean_append] at hclean
      exact distinctKeys_of_mem_add (hb hclean.1.1.1) (hvalue _ _ hclean.2)

/-- The entries of a flow collection keep its keys distinct. -/
theorem distinct_composeFlow (handles : TagHandles) (isMap : Bool) (indent : Nat) (isFirst : Bool) :
    ∀ (entries : List (Entry Part)) (b : FlowBuild), b.Distinct →
      (composeFlow handles isMap indent isFirst entries b).Distinct
  | [], b, hb => hb
  | ⟨start, key, separator, value, _⟩ :: rest, b, hb => by
    have hvalue := fun props position => distinctKeys_composeOr handles props position value
    unfold composeFlow
    dsimp only
    split
    · refine distinct_composeFlow handles isMap indent false rest _ fun hclean => ?_
      simp only [clean_append] at hclean
      exact hb hclean.1.1
    split
    · refine distinct_composeFlow handles isMap indent false rest _ fun hclean => ?_
      simp only [clean_append] at hclean
      obtain ⟨⟨⟨⟨⟨hproblems, -⟩, -⟩, -⟩, hnode⟩, -⟩ := hclean
      exact ⟨(hb hproblems).1, distinctKeys_of_mem_add (hb hproblems).2 (hvalue _ _ hnode)⟩
    · refine distinct_composeFlow handles isMap indent false rest _
        (FlowBuild.distinct_ite
          ((hb.report fun hclean => ?_).addPair _ _ _ _ _ _ fun hclean v hv => ?_)
          ((hb.report fun hclean => ?_).addPair _ _ _ _ _ _ fun _ v hv => by cases hv))
      · simp only [clean_append] at hclean
        exact hclean.1.1.1
      · simp only [clean_append] at hclean
        cases hv
        exact hvalue _ _ hclean.1.2
      · simp only [clean_append] at hclean
        exact hclean.1.1.1

end

/-! ### Documents -/

/-- A document has a problem, or content with distinct keys. -/
def Document.Distinct (d : Document) : Prop :=
  Clean d.problems → ∀ n, d.content = some n → n.DistinctKeys

/-- More problems of a document. -/
lemma Document.Distinct.report {d : Document} (h : d.Distinct) {problems : List Problem}
    (hclean : Clean problems → Clean d.problems) : Document.Distinct { d with problems } :=
  fun hproblems => h (hclean hproblems)

lemma distinct_composeDocument (handles : TagHandles) (offset : Nat) (start : List Lexeme)
    (value : Option Part) (tail : Option (List Lexeme)) :
    (composeDocument handles offset start value tail).Distinct := by
  intro hclean n hn
  cases value with
  | none =>
    simp only [composeDocument] at hn
    cases hn
    exact distinctKeys_emptyNode _ _ _
  | some p =>
    simp only [composeDocument, clean_append] at hn hclean
    cases hn
    exact distinctKeys_compose _ _ _ p hclean.1.2

/-- Every document of a stream has a problem or distinct keys. -/
def Stream.Distinct (s : Stream) : Prop :=
  ∀ d ∈ s.documents, d.Distinct

/-- What changes at most the problems of the last document. -/
lemma Stream.distinct_of_documents {s s' : Stream} (h : s.Distinct)
    (hdocuments : s'.documents = s.documents ∨ ∃ d ds problems, s.documents = d :: ds ∧
      s'.documents = { d with problems := d.problems ++ problems } :: ds) : s'.Distinct := by
  intro d hd
  rcases hdocuments with heq | ⟨d', ds, problems, heq, heq'⟩
  · rw [heq] at hd
    exact h d hd
  · rw [heq'] at hd
    rcases List.mem_cons.mp hd with rfl | hd
    · exact (h d' (by simp [heq])).report fun hclean => (clean_append.mp hclean).1
    · exact h d (by simp [heq, hd])

lemma Stream.Distinct.flush {s : Stream} (h : s.Distinct) : s.flush.Distinct := by
  refine Stream.distinct_of_documents h ?_
  unfold Stream.flush
  split
  · rename_i d ds hd
    exact Or.inr ⟨d, ds, s.pending, hd, rfl⟩
  · exact Or.inl rfl

lemma Stream.Distinct.report {s : Stream} (h : s.Distinct) (problems : List Problem) :
    (s.report problems).Distinct := by
  refine Stream.distinct_of_documents h ?_
  unfold Stream.report
  split
  · rename_i d ds _ hd
    exact Or.inr ⟨d, ds, problems, hd, rfl⟩
  · exact Or.inl rfl

/-- Whatever stands at the outermost level keeps the keys distinct. -/
lemma Stream.Distinct.add {s : Stream} (h : s.Distinct) (t : TopLevel) : (s.add t).Distinct := by
  unfold Stream.add
  cases t with
  | directive l => exact h
  | document offset start value tail =>
    intro d hd
    rcases List.mem_cons.mp hd with rfl | hd
    · refine (distinct_composeDocument s.handles offset start value tail).report fun hclean => ?_
      simp only [clean_append] at hclean
      exact hclean.1.2
    · exact h d hd
  | documentEnd offset text tail =>
    dsimp only
    split
    · exact h
    · exact Stream.Distinct.flush h
  | stray l | strayInDocument l | unknown l => exact h.report _

/-- In a document without errors no map has a key twice. -/
theorem distinctKeys_read {text : List Char} (h : (read text).errors = []) {n : Node}
    (hn : (read text).content = some n) : n.DistinctKeys := by
  have hstream : ∀ (ts : List TopLevel) (s : Stream), s.Distinct → (ts.foldl Stream.add s).Distinct := by
    intro ts
    induction ts with
    | nil => exact fun s hs => hs
    | cons t ts ih => exact fun s hs => ih _ (hs.add t)
  have hall := (hstream (layoutOf (piecesOf text)) {} fun _ hd => absurd hd List.not_mem_nil).flush
  have hclean : Clean (read text).problems := by
    intro p hp
    by_contra hwarning
    have herror : p ∈ (read text).errors := List.mem_filter.mpr ⟨hp, by simpa using hwarning⟩
    rw [h] at herror
    cases herror
  unfold read at hn hclean
  dsimp only at hn hclean
  split at hn
  · rename_i d second rest hdocuments
    simp only [hdocuments] at hclean
    refine hall d (List.mem_reverse.mp ?_) (clean_append.mp hclean).1 n hn
    rw [hdocuments]
    exact List.mem_cons_self
  · rename_i d hdocuments
    simp only [hdocuments] at hclean
    refine hall d (List.mem_reverse.mp ?_) hclean n hn
    rw [hdocuments]
    exact List.mem_cons_self
  · cases hn

end Yaml

end EntitySchema
