import Mathlib.Data.List.Forall2
import Mathlib.Tactic.Common
import EntitySchema.FieldExpr.Reader
import EntitySchema.Proofs.Fields
import EntitySchema.Proofs.FieldExpr.Segments
import EntitySchema.Proofs.TypeExpr.Reading

/-!
# What is read accounts for the whole text

The clauses of a field expression are what stands between its commas.  Reading a clause gives an option of this
clause, or reports an issue about it, or both if the parameters of a relation have issues (`Contribution.IsOf`); the
options and the issues of the expression are what the clauses contribute, in their order (`exists_contributions`).
All offsets are offsets of the whole text: those of the clauses and parameters by `Segment.CutFrom`, and those of the
parts of the type because every part of a type is derived from its own text (`exists_read_of_part`).  All of this
together is `FieldExpr.AccountsFor`, which holds of every text (`accountsFor_read`).
-/

namespace EntitySchema

open Text (units)

/-- The issue is inside of the segment. -/
structure ExprIssue.Inside (i : ExprIssue) (s : Segment) : Prop where
  le_start : s.start ≤ i.start
  start_le_stop : i.start ≤ i.stop
  stop_le : i.stop ≤ s.stop

/-- The parameters of an option, if it is a relation. -/
def OptionBody.parameters : OptionBody → List RelationParameter
  | .relation parameters => parameters
  | _ => []

/-- The segments that an option consists of. -/
def FieldOption.segments (o : FieldOption) : List Segment :=
  o.segment :: o.body.parameters.map (·.segment)

/-- What a clause adds to a field expression: an option, issues, or both. -/
structure Contribution where
  option : Option FieldOption
  issues : List ExprIssue

/-- The clause adds its own option or at least one issue, and only issues inside of it. -/
structure Contribution.IsOf (c : Contribution) (s : Segment) : Prop where
  segment_eq : ∀ o, c.option = some o → o.segment = s
  issues_ne_nil : c.option = none → c.issues ≠ []
  inside : ∀ i ∈ c.issues, i.Inside s

namespace FieldExpr

/-- The clauses behind the type. -/
def clauses (text : String) : List Segment :=
  (Segment.split text.toList).tail

/-- The segments that a field expression consists of. -/
def segments (e : FieldExpr) : List Segment :=
  e.typeSegment :: e.options.flatMap FieldOption.segments

/-- A field expression accounts for a text: its segments and the parts of its type stand where their offsets say, it
has what the clauses contribute and nothing else, and no two options of the same kind. -/
structure AccountsFor (e : FieldExpr) (text : String) : Prop where
  cuts : Segment.Cuts {} 0 (e.typeSegment :: clauses text) text.toList
  slices : ∀ s ∈ e.segments, s.IsSliceOf text
  parts : ∀ t n, e.type = some t → n.PartOf t →
    ∃ m, TypeExpr.read (String.ofList (Text.slice text.toList n.start n.stop)) = .ok m ∧ m.shift n.start = n
  contributions : ∃ typeIssues cs, (typeIssues = [] ↔ e.type.isSome = true) ∧
    (∀ i ∈ typeIssues, i.Inside e.typeSegment) ∧ List.Forall₂ Contribution.IsOf cs (clauses text) ∧ e.options = cs.filterMap (·.option) ∧
    e.issues = typeIssues ++ cs.flatMap (·.issues)
  distinct : (e.options.map (·.body.word)).Nodup
  inOrder : e.issues = [] → e.options.map (·.segment) = clauses text

variable {s : Segment} {offset : Nat} {cs : List Char}

/-- The issue about a part of a segment is inside of the segment. -/
lemma inside_issueAt {p : Segment} {front inner back : List Char} (hs : s.CutFrom offset cs)
    (htext : s.text.toList = front ++ inner ++ back) (hp : p.CutFrom (s.start + units front) inner) (message : String) :
    (issueAt p message).Inside s := by
  have hstop := hs.stop_eq
  obtain ⟨⟨before, after, hinner, hstart⟩, hstop'⟩ := hp
  rw [htext, hinner, Text.units_append, Text.units_append, Text.units_append, Text.units_append] at hstop
  constructor <;> simp only [issueAt] <;> omega

lemma inside_issueAt_self (hs : s.CutFrom offset cs) (message : String) : (issueAt s message).Inside s := by
  have hstop := hs.stop_eq
  constructor <;> simp only [issueAt] <;> omega

/-! ### Relations -/

/-- A parameter is the one of its segment. -/
lemma segment_of_readParameter {seen : List RelationKey} {p : RelationParameter}
    (h : (readParameter seen s).2 = .ok p) : p.segment = s := by
  unfold readParameter at h
  repeat' split at h
  all_goals first
    | cases h; rfl
    | cases h

/-- What is read of parameters is about their segments. -/
lemma of_readParameters (seen : List RelationKey) (ss : List Segment) :
    (∀ p ∈ (readParameters seen ss).1, p.segment ∈ ss) ∧
      ∀ i ∈ (readParameters seen ss).2, ∃ s ∈ ss, ∃ message, i = issueAt s message := by
  induction ss generalizing seen with
  | nil => simp [readParameters]
  | cons s ss ih =>
    obtain ⟨hparameters, hissues⟩ := ih (readParameter seen s).1
    have hparameters' : ∀ p ∈ (readParameters (readParameter seen s).1 ss).1, p.segment ∈ s :: ss :=
      fun p hp => List.mem_cons_of_mem _ (hparameters p hp)
    have hissues' : ∀ i ∈ (readParameters (readParameter seen s).1 ss).2, ∃ s' ∈ s :: ss, ∃ message,
        i = issueAt s' message := by
      intro i hi
      obtain ⟨s', hs', hmessage⟩ := hissues i hi
      exact ⟨s', List.mem_cons_of_mem _ hs', hmessage⟩
    rw [readParameters]
    dsimp only
    split
    · rename_i p hp
      refine ⟨List.forall_mem_cons.mpr ⟨?_, hparameters'⟩, hissues'⟩
      rw [segment_of_readParameter hp]
      exact List.mem_cons_self
    · rename_i message _
      exact ⟨hparameters', List.forall_mem_cons.mpr ⟨⟨s, List.mem_cons_self, message, rfl⟩, hissues'⟩⟩

/-- A text between the opening of a relation and a closing bracket. -/
lemma exists_inner {cs : List Char} (hopening : relationOpening <+: cs) (hlast : cs.getLast? = some ')') :
    cs = relationOpening ++ (cs.drop relationOpening.length).dropLast ++ [')'] := by
  obtain ⟨rest, rfl⟩ := hopening
  rw [List.drop_left]
  cases hrest : rest.getLast? with
  | none =>
    rw [List.getLast?_eq_none_iff.mp hrest] at hlast
    exact absurd hlast (by decide)
  | some c =>
    rw [List.getLast?_append, hrest] at hlast
    obtain rfl : c = ')' := Option.some.inj hlast
    rw [List.append_assoc, List.dropLast_append_getLast? _ hrest]

/-! ### Options -/

lemma parameters_of_readAssignment {body : OptionBody} (h : readAssignment s = .ok body) : body.parameters = [] := by
  unfold readAssignment at h
  repeat' split at h
  all_goals first
    | cases h; rfl
    | cases h

/-- What a clause can be read as: nothing but an issue about it, an option without parameters and issues, or a relation
with what is read of the parameters inside of its brackets. -/
lemma readOption_cases (s : Segment) :
    (∃ message, readOption s = (none, [issueAt s message])) ∨
      (∃ body, body.parameters = [] ∧ readOption s = (some body, [])) ∨
      ∃ inner parameters issues, s.text.toList = relationOpening ++ inner ++ [')'] ∧
        readParameters [] (Segment.split inner (s.start + relationOpening.length)) = (parameters, issues) ∧
        readOption s = (some (.relation parameters), issues) := by
  unfold readOption
  split
  · exact .inl ⟨_, rfl⟩
  split
  · exact .inr (.inl ⟨_, rfl, rfl⟩)
  split
  · exact .inr (.inl ⟨_, rfl, rfl⟩)
  split
  · rename_i hrelation
    unfold readRelation
    split
    · exact .inr (.inl ⟨_, rfl, rfl⟩)
    · rename_i hword
      dsimp only
      split
      · exact .inl ⟨_, rfl⟩
      · rename_i hlast
        rw [Bool.or_eq_true, List.isPrefixOf_iff_prefix] at hrelation
        have hinner := exists_inner (hrelation.resolve_left hword) (by simpa using hlast)
        exact .inr (.inr ⟨_, _, _, hinner, rfl, rfl⟩)
  · split
    · rename_i body hbody
      exact .inr (.inl ⟨body, parameters_of_readAssignment hbody, rfl⟩)
    · exact .inl ⟨_, rfl⟩

/-- What an option of a clause consists of is part of the clause. -/
lemma cutFrom_of_readOption (hs : s.CutFrom offset cs) {body : OptionBody} (h : (readOption s).1 = some body) :
    ∀ p ∈ body.parameters, p.segment.CutFrom offset cs := by
  rcases readOption_cases s with ⟨message, heq⟩ | ⟨body', hnone, heq⟩ | ⟨inner, parameters, issues, htext, hread, heq⟩
  · rw [heq] at h
    cases h
  · rw [heq] at h
    obtain rfl := Option.some.inj h
    rw [hnone]
    exact fun p hp => (List.not_mem_nil hp).elim
  · rw [heq] at h
    obtain rfl := Option.some.inj h
    intro p hp
    have hmem : p.segment ∈ Segment.split inner (s.start + relationOpening.length) := by
      have hparameters := (of_readParameters [] (Segment.split inner (s.start + relationOpening.length))).1
      rw [hread] at hparameters
      exact hparameters p hp
    exact hs.inside htext ((Segment.cuts_split _ _).cutFrom _ hmem)

/-- The issues about a clause are inside of the clause. -/
lemma inside_of_readOption (hs : s.CutFrom offset cs) : ∀ i ∈ (readOption s).2, i.Inside s := by
  rcases readOption_cases s with ⟨message, heq⟩ | ⟨body, -, heq⟩ | ⟨inner, parameters, issues, htext, hread, heq⟩
  · rw [heq]
    intro i hi
    rw [List.mem_singleton.mp hi]
    exact inside_issueAt_self hs message
  · rw [heq]
    exact fun i hi => (List.not_mem_nil hi).elim
  · rw [heq]
    intro i hi
    have hissues := (of_readParameters [] (Segment.split inner (s.start + relationOpening.length))).2
    rw [hread] at hissues
    obtain ⟨p, hp, message, rfl⟩ := hissues i hi
    exact inside_issueAt hs htext ((Segment.cuts_split _ _).cutFrom p hp) message

/-- A clause that is no option has an issue. -/
lemma issues_ne_nil_of_readOption (h : (readOption s).1 = none) : (readOption s).2 ≠ [] := by
  rcases readOption_cases s with ⟨message, heq⟩ | ⟨body, -, heq⟩ | ⟨_, _, _, -, -, heq⟩
  · rw [heq]
    exact List.cons_ne_nil _ _
  · rw [heq] at h
    cases h
  · rw [heq] at h
    cases h

/-- The first of several clauses contributes its option, unless there is none or its word occurred before, and its
issues; behind it the word of the option has occurred. -/
lemma exists_contribution (seen : List String) (hs : s.CutFrom offset cs) :
    ∃ c : Contribution, c.IsOf s ∧
      (∀ o, c.option = some o → o.body.word ∉ seen ∧ (readOption s).1 = some o.body) ∧
      ∀ ss, (readOptions seen (s :: ss)).1 =
          c.option.toList ++ (readOptions (c.option.toList.map (·.body.word) ++ seen) ss).1 ∧
        (readOptions seen (s :: ss)).2 =
          c.issues ++ (readOptions (c.option.toList.map (·.body.word) ++ seen) ss).2 := by
  have hinside := inside_of_readOption hs
  simp only [readOptions]
  cases hbody : (readOption s).1 with
  | none =>
    refine ⟨⟨none, (readOption s).2⟩, ⟨?_, ?_, hinside⟩, ?_, ?_⟩
    · exact fun o ho => by cases ho
    · exact fun _ => issues_ne_nil_of_readOption hbody
    · exact fun o ho => by cases ho
    · exact fun ss => ⟨rfl, rfl⟩
  | some body =>
    by_cases hseen : seen.contains body.word = true
    · refine ⟨⟨none, (readOption s).2 ++
          [issueAt s ("The \"" ++ body.word ++ "\" annotation is declared more than once.")]⟩, ⟨?_, ?_, ?_⟩, ?_, ?_⟩
      · exact fun o ho => by cases ho
      · exact fun _ => List.append_ne_nil_of_right_ne_nil _ (List.cons_ne_nil _ _)
      · refine List.forall_mem_append.mpr ⟨hinside, fun i hi => ?_⟩
        rw [List.mem_singleton.mp hi]
        exact inside_issueAt_self hs _
      · exact fun o ho => by cases ho
      · intro ss
        simp only [if_pos hseen, List.append_assoc]
        exact ⟨rfl, rfl⟩
    · refine ⟨⟨some ⟨body, s⟩, (readOption s).2⟩, ⟨?_, ?_, hinside⟩, ?_, ?_⟩
      · exact fun o ho => by rw [← Option.some.inj ho]
      · exact fun h => by cases h
      · rintro o ho
        obtain rfl := Option.some.inj ho
        exact ⟨by simpa using hseen, rfl⟩
      · intro ss
        simp only [if_neg hseen]
        exact ⟨rfl, rfl⟩

/-- The options and the issues are what the clauses contribute, in their order. -/
lemma exists_contributions (seen : List String) {ss : List Segment} (hss : ∀ s ∈ ss, s.CutFrom offset cs) :
    ∃ contributions, List.Forall₂ Contribution.IsOf contributions ss ∧
      (readOptions seen ss).1 = contributions.filterMap (·.option) ∧
      (readOptions seen ss).2 = contributions.flatMap (·.issues) := by
  induction ss generalizing seen with
  | nil => exact ⟨[], .nil, rfl, rfl⟩
  | cons s ss ih =>
    obtain ⟨hs, hrest⟩ := List.forall_mem_cons.mp hss
    obtain ⟨c, hc, -, hread⟩ := exists_contribution seen hs
    obtain ⟨contributions, hof, hoptions, hissues⟩ := ih _ hrest
    refine ⟨c :: contributions, .cons hc hof, ?_, ?_⟩
    · rw [(hread ss).1, hoptions, List.filterMap_cons]
      cases c.option <;> rfl
    · rw [(hread ss).2, hissues, List.flatMap_cons]

/-- The words of the options are different from each other and from those that occurred before. -/
lemma nodup_readOptions (seen : List String) {ss : List Segment} (hss : ∀ s ∈ ss, s.CutFrom offset cs) :
    ((readOptions seen ss).1.map (·.body.word)).Nodup ∧ ∀ o ∈ (readOptions seen ss).1, o.body.word ∉ seen := by
  induction ss generalizing seen with
  | nil => simp [readOptions]
  | cons s ss ih =>
    obtain ⟨hs, hrest⟩ := List.forall_mem_cons.mp hss
    obtain ⟨c, -, hoption, hread⟩ := exists_contribution seen hs
    obtain ⟨hnodup, hnew⟩ := ih (c.option.toList.map (·.body.word) ++ seen) hrest
    rw [(hread ss).1]
    cases ho : c.option with
    | none =>
      rw [ho] at hnodup hnew
      exact ⟨hnodup, hnew⟩
    | some o =>
      rw [ho] at hnodup hnew
      have hlater : ∀ o' ∈ (readOptions (o.body.word :: seen) ss).1, o'.body.word ≠ o.body.word ∧ o'.body.word ∉ seen :=
        fun o' ho' => not_or.mp (mt List.mem_cons.mpr (hnew o' ho'))
      refine ⟨List.nodup_cons.mpr ⟨fun hmem => ?_, hnodup⟩, List.forall_mem_cons.mpr ⟨(hoption o ho).1, ?_⟩⟩
      · obtain ⟨o', ho', hword⟩ := List.mem_map.mp hmem
        exact (hlater o' ho').1 hword
      · exact fun o' ho' => (hlater o' ho').2

/-- The clauses of the options and the parameters in them are parts of the text. -/
lemma cutFrom_of_readOptions (seen : List String) {ss : List Segment} (hss : ∀ s ∈ ss, s.CutFrom offset cs) :
    ∀ o ∈ (readOptions seen ss).1, ∀ s ∈ o.segments, s.CutFrom offset cs := by
  induction ss generalizing seen with
  | nil => simp [readOptions]
  | cons s ss ih =>
    obtain ⟨hs, hrest⟩ := List.forall_mem_cons.mp hss
    obtain ⟨c, hc, hoption, hread⟩ := exists_contribution seen hs
    rw [(hread ss).1]
    refine List.forall_mem_append.mpr ⟨fun o ho => ?_, ih _ hrest⟩
    rw [Option.mem_toList] at ho
    refine List.forall_mem_cons.mpr ⟨by rwa [hc.segment_eq o ho], fun p hp => ?_⟩
    obtain ⟨parameter, hparameter, rfl⟩ := List.mem_map.mp hp
    exact cutFrom_of_readOption hs (hoption o ho).2 parameter hparameter

/-- If no clause has an issue, the options are those of the clauses. -/
lemma segments_of_contributions {contributions : List Contribution} {ss : List Segment}
    (h : List.Forall₂ Contribution.IsOf contributions ss) (hissues : contributions.flatMap (·.issues) = []) :
    (contributions.filterMap (·.option)).map (·.segment) = ss := by
  induction h with
  | nil => rfl
  | @cons c s contributions ss hc _ ih =>
    rw [List.flatMap_cons, List.append_eq_nil_iff] at hissues
    cases hoption : c.option with
    | none => exact absurd hissues.1 (hc.issues_ne_nil hoption)
    | some o =>
      rw [List.filterMap_cons, hoption, List.map_cons, ih hissues.2, hc.segment_eq o hoption]

/-! ### The type -/

/-- The type of a text that is part of a longer one can be read from the longer text at its offsets, and so can every
part of it. -/
lemma exists_read_of_part {text : String} {e n : TypeExpr} (hs : s.CutFrom 0 text.toList)
    (he : TypeExpr.read s.text = .ok e) (hpart : n.PartOf (e.shift s.start)) :
    ∃ m, TypeExpr.read (String.ofList (Text.slice text.toList n.start n.stop)) = .ok m ∧ m.shift n.start = n := by
  obtain ⟨m, hm, rfl⟩ := hpart.exists_of_shift
  obtain ⟨before, body, after, htext, hbody⟩ := (TypeExpr.derives_of_read he).part hm
  obtain ⟨⟨front, back, hwhole, hstart⟩, -⟩ := hs
  rw [Nat.zero_add] at hbody hstart
  have hslice : Text.slice text.toList (m.shift s.start).start (m.shift s.start).stop = body := by
    have hpieces : text.toList = (front ++ before) ++ body ++ (after ++ back) := by
      rw [hwhole, htext]
      simp
    rw [TypeExpr.start_shift, TypeExpr.stop_shift, hbody.start_eq, hbody.stop_eq, hstart, hpieces,
      Nat.add_right_comm, Nat.add_comm (units before), ← Text.units_append, Text.slice_append]
  obtain ⟨m', hm', rfl⟩ := hbody.exists_shift (Nat.zero_add _).symm
  refine ⟨m', ?_, ?_⟩
  · rw [hslice]
    exact TypeExpr.read_ofList hm'.spaced
  · rw [TypeExpr.start_shift, hbody.start_eq, TypeExpr.shift_shift]

lemma inside_of_readType (hs : s.CutFrom offset cs) {i : ExprIssue} (h : readType s = .error i) : i.Inside s := by
  unfold readType at h
  split at h
  · cases h
    exact inside_issueAt_self hs _
  split at h
  · cases h
  · rename_i e hread
    cases h
    obtain ⟨horder, hstop⟩ := TypeExpr.located_of_read hread
    have hend := hs.stop_eq
    constructor <;> simp only <;> omega

lemma exists_of_readType {t : TypeExpr} (h : readType s = .ok t) :
    ∃ e, TypeExpr.read s.text = .ok e ∧ t = e.shift s.start := by
  unfold readType at h
  split at h
  · cases h
  split at h
  · rename_i e hread
    cases h
    exact ⟨e, hread, rfl⟩
  · cases h

/-! ### The whole text -/

lemma exists_split (text : String) : ∃ typeSegment, Segment.split text.toList = typeSegment :: clauses text := by
  rw [clauses]
  cases hsplit : Segment.split text.toList with
  | nil => exact absurd hsplit (Segment.split_ne_nil _ _)
  | cons typeSegment rest => exact ⟨typeSegment, rfl⟩

lemma read_eq {text : String} {typeSegment : Segment} (h : Segment.split text.toList = typeSegment :: clauses text) :
    read text = match readType typeSegment with
      | .ok t => ⟨some t, typeSegment, (readOptions [] (clauses text)).1, (readOptions [] (clauses text)).2⟩
      | .error issue =>
        ⟨none, typeSegment, (readOptions [] (clauses text)).1, issue :: (readOptions [] (clauses text)).2⟩ := by
  cases htype : readType typeSegment <;> simp only [read, h, htype]

/-- Reading any text accounts for it. -/
theorem accountsFor_read (text : String) : (read text).AccountsFor text := by
  obtain ⟨typeSegment, hsplit⟩ := exists_split text
  have hcuts := Segment.cuts_split text.toList 0
  rw [hsplit] at hcuts
  obtain ⟨htype, hclauses⟩ := List.forall_mem_cons.mp hcuts.cutFrom
  obtain ⟨contributions, hof, hoptions, hissues⟩ := exists_contributions [] hclauses
  have hslices : ∀ s ∈ typeSegment :: (readOptions [] (clauses text)).1.flatMap FieldOption.segments,
      s.IsSliceOf text := by
    refine List.forall_mem_cons.mpr ⟨htype.isSliceOf, fun s hs => ?_⟩
    obtain ⟨o, ho, hmem⟩ := List.mem_flatMap.mp hs
    exact (cutFrom_of_readOptions [] hclauses o ho s hmem).isSliceOf
  have hdistinct := (nodup_readOptions [] hclauses).1
  rw [read_eq hsplit]
  cases hread : readType typeSegment with
  | ok t =>
    obtain ⟨e, he, rfl⟩ := exists_of_readType hread
    exact {
      cuts := hcuts
      slices := hslices
      parts := fun t n ht hpart => by
        obtain rfl := Option.some.inj ht
        exact exists_read_of_part htype he hpart
      contributions := ⟨[], contributions, by simp, by simp, hof, hoptions, hissues⟩
      distinct := hdistinct
      inOrder := fun h => by
        rw [hissues] at h
        rw [hoptions, segments_of_contributions hof h] }
  | error i =>
    have hinside : ∀ j ∈ [i], j.Inside typeSegment := by
      intro j hj
      rw [List.mem_singleton.mp hj]
      exact inside_of_readType htype hread
    exact {
      cuts := hcuts
      slices := hslices
      parts := fun t n ht => by cases ht
      contributions := ⟨[i], contributions, by simp, hinside, hof, hoptions, by rw [hissues]; rfl⟩
      distinct := hdistinct
      inOrder := fun h => by cases h }

end FieldExpr

end EntitySchema
