import Mathlib.Data.List.Basic
import Mathlib.Tactic.Common
import EntitySchema.FieldExpr.Reader
import EntitySchema.Proofs.FieldExpr.Segments
import EntitySchema.Proofs.Lines.Basic
import EntitySchema.Proofs.TypeExpr.Building

/-!
# Expressions of one line

What is read of an expression is cut out of its text or written out, so of a line only lines are read: the names in its
types, the values of its options and the messages of its issues (`FieldExpr.hasLines_read`).  The same holds of what is
wrong with a type expression (`TypeExpr.isLine_of_read`) and of the type that is built of it
(`TypeExpr.HasLines.build`).
-/

namespace EntitySchema

/-! ### Parts of a text -/

namespace Text

lemma trim_subset (cs : List Char) : trim cs ⊆ cs := by
  intro c hc
  rw [trim, trimEnd, List.mem_reverse] at hc
  have hstart : c ∈ trimStart cs := List.mem_reverse.mp ((List.dropWhile_sublist _).mem hc)
  exact (List.dropWhile_sublist _).mem hstart

lemma isLine_trimString {s : String} (h : IsLine s) : IsLine (trimString s) :=
  h.of_subset (trim_subset _)

lemma takeUnits_subset (n : Nat) (cs : List Char) : takeUnits n cs ⊆ cs := by
  induction cs generalizing n with
  | nil => exact fun _ hc => hc
  | cons c cs ih =>
    rw [takeUnits]
    split
    · exact List.nil_subset _
    · exact List.cons_subset_cons c (ih _)

lemma dropUnits_subset (n : Nat) (cs : List Char) : dropUnits n cs ⊆ cs := by
  induction cs generalizing n with
  | nil => exact fun _ hc => hc
  | cons c cs ih =>
    rw [dropUnits]
    split
    · exact fun _ hd => hd
    · exact List.Subset.trans (ih _) (List.subset_cons_self c cs)

lemma slice_subset (cs : List Char) (start stop : Nat) : slice cs start stop ⊆ cs :=
  List.Subset.trans (takeUnits_subset _ _) (dropUnits_subset _ _)

end Text

namespace Segment

/-- A part of a line is a line. -/
lemma CutFrom.isLine {s : Segment} {offset : Nat} {cs : List Char} (h : s.CutFrom offset cs) (hcs : '\n' ∉ cs) :
    IsLine s.text := by
  obtain ⟨⟨before, after, rfl, -⟩, -⟩ := h
  exact fun hmem => hcs (List.mem_append_left _ (List.mem_append_right _ hmem))

lemma isLine_of_mem_split {cs : List Char} (hcs : '\n' ∉ cs) (offset : Nat) :
    ∀ s ∈ split cs offset, IsLine s.text :=
  fun s hs => ((cuts_split cs offset).cutFrom s hs).isLine hcs

/-- The word and the value of a line are lines. -/
lemma isLine_assignment {s : Segment} (h : IsLine s.text) :
    IsLine s.assignment.1 ∧ ∀ v, s.assignment.2 = some v → IsLine v := by
  have hkey : s.text.toList.takeWhile (· != '=') ⊆ s.text.toList := (List.takeWhile_sublist _).subset
  unfold assignment
  dsimp only
  split
  · exact ⟨h, fun v hv => nomatch hv⟩
  · rename_i value hdrop
    have hvalue : value ⊆ s.text.toList := by
      intro c hc
      exact List.mem_of_mem_drop (hdrop ▸ List.mem_cons_of_mem _ hc)
    refine ⟨h.of_subset (List.Subset.trans (Text.trim_subset _) hkey), fun v hv => ?_⟩
    obtain rfl := Option.some.inj hv
    exact h.of_subset (List.Subset.trans (Text.trim_subset _) hvalue)

end Segment

/-! ### Type expressions -/

namespace TypeExpr

/-- All names in the expression are lines. -/
def HasLines (e : TypeExpr) : Prop :=
  ∀ n : TypeExpr, n.PartOf e → IsLine n.name ∧ ∀ a, n.moduleAlias = some a → IsLine a

lemma IsName.isLine {cs : List Char} (h : IsName cs) : IsLine (String.ofList cs) :=
  isLine_of_forall TypeExpr.isNamePart (by decide) h.isNamePart

/-- What is derived has names, whatever the text is. -/
lemma DerivesSpaced.hasLines {offset : Nat} {cs : List Char} {e : TypeExpr} (h : DerivesSpaced offset cs e) :
    e.HasLines := by
  intro n hn
  obtain ⟨_, _, _, -, hbody⟩ := h.part hn
  cases hbody with
  | intro halias hname _ _ _ =>
    refine ⟨hname.isLine, fun a ha => ?_⟩
    cases halias with
    | absent => cases ha
    | present hword =>
      obtain rfl := Option.some.inj ha
      exact hword.isLine

lemma HasLines.shift {e : TypeExpr} (h : e.HasLines) (k : Nat) : (e.shift k).HasLines := by
  intro n hn
  obtain ⟨m, hm, rfl⟩ := hn.exists_of_shift
  rw [shift_eq]
  exact h m hm

/-! #### What is wrong with an expression -/

section Faults

variable {c : Cursor} {e : TypeExprError}

lemma fault_of_takeWord {word : List Char} {fault : TypeExprFault} (h : takeWord c word fault = .error e) :
    e.fault = fault := by
  unfold takeWord at h
  split at h
  · cases h
  · cases h
    rfl

lemma fault_of_takeChar {ch : Char} {fault : TypeExprFault} (h : takeChar c ch fault = .error e) :
    e.fault = fault := by
  unfold takeChar at h
  split at h
  · cases h
  · cases h
    rfl

lemma isLine_of_takeAlias (h : takeAlias c = .error e) : IsLine e.fault.message := by
  unfold takeAlias at h
  split at h
  · dsimp only at h
    split at h
    · rename_i e' hresult
      cases h
      rw [fault_of_takeWord hresult]
      exact .lit (by decide)
    rename_i moduleAlias c₂ h₂ hresult
    obtain ⟨_, ⟨hword, rfl⟩, -⟩ := (reads_name _ _).of_ok hresult
    split at h
    · rename_i e' hresult
      cases h
      rw [fault_of_takeChar hresult]
      exact hword.isLine.between (by decide) (by decide)
    · cases h
  · cases h

lemma isLine_of_takeDimension {name : String} (hname : IsLine name) (h : takeDimension name c = .error e) :
    IsLine e.fault.message := by
  unfold takeDimension at h
  dsimp only at h
  split at h
  · rename_i e' hresult
    cases h
    rw [fault_of_takeWord hresult]
    exact hname.between (by decide) (by decide)
  split at h
  · rename_i e' hresult
    cases h
    rw [fault_of_takeChar hresult]
    exact hname.between (by decide) (by decide)
  · cases h

lemma isLine_of_takeHead (h : takeHead c = .error e) : IsLine e.fault.message := by
  unfold takeHead at h
  dsimp only at h
  split at h
  · rename_i e' hresult
    cases h
    exact isLine_of_takeAlias hresult
  split at h
  · rename_i e' hresult
    cases h
    rw [fault_of_takeWord hresult]
    exact .lit (by decide)
  rename_i name c₃ h₃ hresult
  obtain ⟨_, ⟨hname, rfl⟩, -⟩ := (reads_name _ _).of_ok hresult
  split at h
  · split at h
    · rename_i e' hresult
      cases h
      exact isLine_of_takeDimension hname.isLine hresult
    · cases h
  · cases h

lemma isLine_name_of_takeHead {head : Head} {c' : Cursor} {hp : c'.rest.length < c.rest.length}
    (h : takeHead c = .ok ⟨(head, c'), hp⟩) : IsLine head.name := by
  obtain ⟨_, hhead, -⟩ := (reads_takeHead c).of_ok h
  cases hhead with
  | intro _ hhead _ =>
    cases hhead with
    | intro _ hname _ => exact hname.isLine

mutual

/-- The message of what is wrong with an expression names only names. -/
theorem isLine_of_takeType (c : Cursor) {e : TypeExprError} (h : takeType c = .error e) : IsLine e.fault.message := by
  unfold takeType at h
  split at h
  · rename_i e' hresult
    cases h
    exact isLine_of_takeHead hresult
  rename_i head c₁ h₁ hhead
  split at h
  · rename_i hopen
    have hlt : 2 * (c₁.advance 1).rest.length + 1 < 2 * c.rest.length := by
      have hadvance := c₁.length_advance_lt hopen
      simp only at h₁
      omega
    dsimp only at h
    split at h
    · rename_i e' hresult
      cases h
      exact isLine_of_takeTypes (c₁.advance 1) hresult
    split at h
    · rename_i e' hresult
      cases h
      rw [fault_of_takeChar hresult]
      exact (isLine_name_of_takeHead hhead).between (by decide) (by decide)
    · cases h
  · cases h
termination_by 2 * c.rest.length

theorem isLine_of_takeTypes (c : Cursor) {e : TypeExprError} (h : takeTypes c = .error e) : IsLine e.fault.message := by
  unfold takeTypes at h
  split at h
  · rename_i e' hresult
    cases h
    exact isLine_of_takeType c hresult
  rename_i t c₁ h₁ hresult
  dsimp only at h
  split at h
  · rename_i hcomma
    have hlt : (c₁.skipBlanks.advance 1).rest.length < c.rest.length := by
      have h₂ := c₁.length_skipBlanks_le
      have h₃ := c₁.skipBlanks.length_advance_lt hcomma
      simp only at h₁
      omega
    split at h
    · rename_i e' hresult
      cases h
      exact isLine_of_takeTypes (c₁.skipBlanks.advance 1) hresult
    · cases h
  · cases h
termination_by 2 * c.rest.length + 1

end

/-- What is wrong with a line is told in a line: the rest of the text that is not read is part of it. -/
theorem isLine_of_read {text : String} (htext : IsLine text) (h : read text = .error e) : IsLine e.fault.message := by
  unfold read at h
  dsimp only at h
  split at h
  · rename_i e' hresult
    cases h
    exact isLine_of_takeType _ hresult
  rename_i t c hc hresult
  obtain ⟨cs, -, hpasses⟩ := (reads_takeType ⟨0, text.toList⟩).of_ok hresult
  obtain ⟨blanks, -, hskip⟩ := c.exists_passes_skipBlanks
  split at h
  · cases h
  · cases h
    have hwhole : text.toList = cs ++ blanks ++ c.skipBlanks.rest := (hpasses.trans hskip).rest
    have hrest : c.skipBlanks.rest ⊆ text.toList := by
      rw [hwhole]
      exact List.subset_append_right _ _
    have hfound : IsLine (String.ofList c.skipBlanks.rest) := htext.of_subset hrest
    exact (hfound.between (by decide) (by decide)).and (htext.of_subset (Text.slice_subset _ _ _)) (by decide)

end Faults

/-! #### Building types -/

lemma buildAll_snd (es : List TypeExpr) : (buildAll es).2 = es.flatMap fun e => e.build.2 := by
  induction es with
  | nil => rfl
  | cons e es ih => rw [buildAll, List.flatMap_cons, ← ih]

lemma isLine_problem {p : TypeProblem} (h : IsLine p.name) : IsLine p.message := by
  have harguments : ∀ n : Nat, IsLine (if n = 1 then "argument" else "arguments") := by
    intro n
    split <;> exact .lit (by decide)
  unfold TypeProblem.message
  split
  · exact h.between (by decide) (by decide)
  · exact h.between (by decide) (by decide)
  · exact h.between (by decide) (by decide)
  · exact (h.between (by decide) (by decide)).and h (by decide)
  · rename_i n _
    exact ((h.between (by decide) (by decide)).and (isLine_natText n) (by decide)).and (harguments n) (by decide)

/-- The type of an expression, and the messages about its nodes. -/
theorem HasLines.build {e : TypeExpr} (h : e.HasLines) :
    (∀ t, e.build.1 = some t → t.HasLines) ∧ ∀ p ∈ e.build.2, IsLine p.message := by
  induction e with
  | mk name moduleAlias nullable dimension generics start stop ih =>
    obtain ⟨⟨hname, halias⟩, hgenerics⟩ := (forall_partOf_iff _).mp h
    constructor
    · intro t ht
      obtain ⟨-, ts, hts, rfl⟩ := (build_fst_eq_some_iff _ t).mp ht
      exact .intro hname halias (forall_of_forall₂ hts fun g hg => (ih g hg (hgenerics g hg)).1)
    · have harguments : ∀ p ∈ (buildAll generics).2, IsLine p.message := by
        intro p hp
        rw [buildAll_snd] at hp
        obtain ⟨g, hg, hp⟩ := List.mem_flatMap.mp hp
        exact (ih g hg (hgenerics g hg)).2 p hp
      rw [build_eq]
      split
      · refine List.forall_mem_append.mpr ⟨harguments, fun p hp => ?_⟩
        rw [List.mem_singleton.mp hp]
        exact isLine_problem hname
      · exact harguments
      · exact harguments

end TypeExpr

/-! ### Field expressions -/

/-- The values in the option are lines. -/
def OptionBody.HasLines : OptionBody → Prop
  | .relation parameters => ∀ p ∈ parameters, ∀ v, p.value = some v → IsLine v
  | .default _ value => IsLine value
  | .scope _ | .persist _ => True

namespace FieldExpr

/-- All that is read of the expression is lines. -/
structure HasLines (e : FieldExpr) : Prop where
  type : ∀ t, e.type = some t → t.HasLines
  options : ∀ o ∈ e.options, o.body.HasLines
  issues : ∀ i ∈ e.issues, IsLine i.message

lemma isLine_word (k : RelationKey) : IsLine k.word := by
  cases k <;> exact .lit (by decide)

lemma isLine_optionWord (body : OptionBody) : IsLine body.word := by
  rcases body with _ | ⟨key, _⟩ | _ | _
  · exact .lit (by decide)
  · cases key <;> exact .lit (by decide)
  · exact .lit (by decide)
  · exact .lit (by decide)

section Reading

variable {s : Segment}

/-- A parameter whose value is a line. -/
def ParameterHasLine (p : RelationParameter) : Prop :=
  ∀ v, p.value = some v → IsLine v

lemma either_readParameter (seen : List RelationKey) (hs : IsLine s.text) :
    Either ParameterHasLine IsLine (readParameter seen s).2 := by
  obtain ⟨hword, hvalue⟩ := Segment.isLine_assignment hs
  have hwords : ∀ w ∈ relationKeys.map RelationKey.word, IsLine w := by decide
  unfold readParameter
  split
  · exact IsLine.lit (by decide)
  generalize s.assignment = a at hword hvalue ⊢
  obtain ⟨word, value⟩ := a
  dsimp only at hword hvalue ⊢
  split
  · refine (hword.between (by decide) (by decide)).append (isLine_hint hwords ?_)
    exact (isLine_quoteList hwords).between (by decide) (by decide)
  rename_i key _
  have hrequired : IsLine ("The relation parameter \"" ++ key.word ++ "\" requires a value.") :=
    (isLine_word key).between (by decide) (by decide)
  split
  · exact (isLine_word key).between (by decide) (by decide)
  split
  · exact fun v hv => nomatch hv
  · exact IsLine.lit (by decide)
  · split
    · exact hrequired
    · exact hvalue
  · exact hrequired

lemma isLine_readParameters (seen : List RelationKey) {ss : List Segment} (hss : ∀ s ∈ ss, IsLine s.text) :
    (∀ p ∈ (readParameters seen ss).1, ParameterHasLine p) ∧
      ∀ i ∈ (readParameters seen ss).2, IsLine i.message := by
  induction ss generalizing seen with
  | nil => simp [readParameters]
  | cons s ss ih =>
    obtain ⟨hs, hss⟩ := List.forall_mem_cons.mp hss
    have hfirst := either_readParameter seen hs
    obtain ⟨hparameters, hissues⟩ := ih (readParameter seen s).1 hss
    rw [readParameters]
    dsimp only
    split
    · rename_i p hp
      exact ⟨List.forall_mem_cons.mpr ⟨hfirst.of_ok hp, hparameters⟩, hissues⟩
    · rename_i message hmessage
      exact ⟨hparameters, List.forall_mem_cons.mpr ⟨hfirst.of_error hmessage, hissues⟩⟩

/-- An option, if there is one, whose values are lines, and issues whose messages are. -/
def ReadsLines (r : Option OptionBody × List ExprIssue) : Prop :=
  (∀ body, r.1 = some body → body.HasLines) ∧ ∀ i ∈ r.2, IsLine i.message

lemma readsLines_issue {message : String} (h : IsLine message) : ReadsLines (none, [issueAt s message]) := by
  refine ⟨fun _ hbody => (nomatch hbody), fun i hi => ?_⟩
  rw [List.mem_singleton.mp hi]
  exact h

lemma readsLines_option {body : OptionBody} (h : body.HasLines) : ReadsLines (some body, []) := by
  refine ⟨fun body' hbody' => ?_, List.forall_mem_nil _⟩
  rwa [← Option.some.inj hbody']

lemma readsLines_readRelation (hs : IsLine s.text) : ReadsLines (readRelation s) := by
  unfold readRelation
  split
  · exact readsLines_option (List.forall_mem_nil _)
  dsimp only
  split
  · exact readsLines_issue (.lit (by decide))
  have hinner : '\n' ∉ (s.text.toList.drop relationOpening.length).dropLast :=
    fun hmem => hs (List.mem_of_mem_drop (List.mem_of_mem_dropLast hmem))
  obtain ⟨hparameters, hissues⟩ := isLine_readParameters [] (Segment.isLine_of_mem_split hinner
    (s.start + relationOpening.length))
  refine ⟨fun body hbody => ?_, hissues⟩
  obtain rfl := Option.some.inj hbody
  exact hparameters

lemma either_readAssignment (hs : IsLine s.text) : Either OptionBody.HasLines IsLine (readAssignment s) := by
  obtain ⟨hword, hvalue⟩ := Segment.isLine_assignment hs
  have hscopes : ∀ w ∈ fieldScopes.map FieldScope.name, IsLine w := by decide
  have hwords : ∀ w ∈ optionWords, IsLine w := by decide
  unfold readAssignment
  generalize s.assignment = a at hword hvalue ⊢
  obtain ⟨word, value⟩ := a
  dsimp only at hword hvalue ⊢
  have hrequired : IsLine ("The \"" ++ word ++ "\" annotation requires a value.") :=
    hword.between (by decide) (by decide)
  have hdefault : ∀ key v, value = some v → Either OptionBody.HasLines IsLine
      (if v.isEmpty then .error ("The \"" ++ word ++ "\" annotation requires a value.") else .ok (.default key v)) := by
    intro key v hv
    split
    · exact hrequired
    · exact hvalue v hv
  split
  · split
    · exact hdefault .both _ rfl
    · exact hrequired
  · split
    · exact hdefault .model _ rfl
    · exact hrequired
  · split
    · exact hdefault .persist _ rfl
    · exact hrequired
  · split
    · trivial
    · have htext : IsLine (value.getD "") := by
        cases value with
        | none => exact .lit (by decide)
        | some v => exact hvalue v rfl
      exact (htext.between (by decide) (by decide)).and (isLine_quoteList hscopes) (by decide)
  · refine (hword.between (by decide) (by decide)).append (isLine_hint hwords ?_)
    exact (isLine_quoteList hwords).between (by decide) (by decide)

/-- What a clause is read as, and what is wrong with it. -/
lemma readsLines_readOption (hs : IsLine s.text) : ReadsLines (readOption s) := by
  unfold readOption
  split
  · exact readsLines_issue (.lit (by decide))
  split
  · exact readsLines_option trivial
  split
  · exact readsLines_option trivial
  split
  · exact readsLines_readRelation hs
  have hassignment := either_readAssignment hs
  split
  · rename_i body hbody
    exact readsLines_option (hassignment.of_ok hbody)
  · rename_i message hmessage
    exact readsLines_issue (hassignment.of_error hmessage)

lemma isLine_readOptions (seen : List String) {ss : List Segment} (hss : ∀ s ∈ ss, IsLine s.text) :
    (∀ o ∈ (readOptions seen ss).1, o.body.HasLines) ∧ ∀ i ∈ (readOptions seen ss).2, IsLine i.message := by
  induction ss generalizing seen with
  | nil => simp [readOptions]
  | cons s ss ih =>
    obtain ⟨hs, hss⟩ := List.forall_mem_cons.mp hss
    obtain ⟨hbodies, hmessages⟩ := readsLines_readOption hs
    rw [readOptions]
    dsimp only
    split
    · obtain ⟨hoptions, hissues⟩ := ih seen hss
      exact ⟨hoptions, List.forall_mem_append.mpr ⟨hmessages, hissues⟩⟩
    rename_i body hbody
    split
    · obtain ⟨hoptions, hissues⟩ := ih seen hss
      have hrepeated : IsLine ("The \"" ++ body.word ++ "\" annotation is declared more than once.") :=
        (isLine_optionWord body).between (by decide) (by decide)
      exact ⟨hoptions, List.forall_mem_append.mpr ⟨hmessages, List.forall_mem_cons.mpr ⟨hrepeated, hissues⟩⟩⟩
    · obtain ⟨hoptions, hissues⟩ := ih (body.word :: seen) hss
      exact ⟨List.forall_mem_cons.mpr ⟨hbodies body hbody, hoptions⟩,
        List.forall_mem_append.mpr ⟨hmessages, hissues⟩⟩

/-- The type in front of the options, or what is wrong with it. -/
lemma either_readType (hs : IsLine s.text) :
    Either TypeExpr.HasLines (fun i : ExprIssue => IsLine i.message) (readType s) := by
  unfold readType
  split
  · exact IsLine.lit (by decide)
  split
  · rename_i t hread
    exact (TypeExpr.derives_of_read hread).hasLines.shift _
  · rename_i e hread
    exact TypeExpr.isLine_of_read hs hread

end Reading

/-- Of a line only lines are read. -/
theorem hasLines_read {text : String} (h : IsLine text) : (read text).HasLines := by
  have hsegments := Segment.isLine_of_mem_split h 0
  unfold read
  split
  · exact ⟨fun t ht => (nomatch ht), List.forall_mem_nil _, List.forall_mem_nil _⟩
  rename_i typeSegment rest hsplit
  rw [hsplit] at hsegments
  obtain ⟨hfirst, hrest⟩ := List.forall_mem_cons.mp hsegments
  obtain ⟨hoptions, hissues⟩ := isLine_readOptions [] hrest
  have htype := either_readType hfirst
  dsimp only
  split
  · rename_i t ht
    refine ⟨fun t' ht' => ?_, hoptions, hissues⟩
    rw [← Option.some.inj ht']
    exact htype.of_ok ht
  · rename_i i hi
    exact ⟨fun t ht => (nomatch ht), hoptions, List.forall_mem_cons.mpr ⟨htype.of_error hi, hissues⟩⟩

end FieldExpr

end EntitySchema
