import Mathlib.Data.List.Basic
import Mathlib.Tactic.Common
import EntitySchema.Proofs.Compilation
import EntitySchema.Proofs.Lines.Relations
import EntitySchema.Report

/-!
# The lines of a report

The report for people has a line for every diagnostic and one for the summary if every message is a line.  No message
is rewritten on its way, so a key or a text with a line feed that a message names breaks the line; nothing else does.
So the report is these lines just if no message has a line feed, and if every document hands over lines it is
(`Report.human_lines`).  What carries the proof is that the passes keep entities of lines ones, each by its own module;
here only the compilation as a whole is left.
-/

namespace EntitySchema

/-! ### Texts of several lines -/

/-- The text is the lines, each of them ended by a line feed. -/
structure ConsistsOf (lines : List String) (text : String) : Prop where
  isLine : ∀ l ∈ lines, IsLine l
  text_eq : text = String.join (lines.map (· ++ "\n"))

/-- The text is a number of lines, each ended by a line feed, and has no other line feed. -/
def IsLines (n : Nat) (text : String) : Prop :=
  ∃ lines : List String, lines.length = n ∧ ConsistsOf lines text

/-- The number of line feeds in a text. -/
def lineFeeds (s : String) : Nat :=
  s.toList.count '\n'

lemma isLine_iff_lineFeeds {s : String} : IsLine s ↔ lineFeeds s = 0 :=
  List.count_eq_zero.symm

lemma lineFeeds_append (s t : String) : lineFeeds (s ++ t) = lineFeeds s + lineFeeds t := by
  rw [lineFeeds, String.toList_append, List.count_append]
  rfl

/-- Texts that are ended by line feeds have at least as many line feeds. -/
lemma length_le_lineFeeds (lines : List String) :
    lines.length ≤ lineFeeds (String.join (lines.map (· ++ "\n"))) := by
  induction lines with
  | nil => exact Nat.zero_le _
  | cons l lines ih =>
    have hfeed : lineFeeds "\n" = 1 := rfl
    rw [List.map_cons, String.join_cons, lineFeeds_append, lineFeeds_append, hfeed, List.length_cons]
    omega

/-- A line feed inside of one of the texts is one too many. -/
lemma lineFeeds_join {lines : List String} :
    lineFeeds (String.join (lines.map (· ++ "\n"))) = lines.length ↔ ∀ l ∈ lines, IsLine l := by
  induction lines with
  | nil => simp [lineFeeds]
  | cons l lines ih =>
    have hfeed : lineFeeds "\n" = 1 := rfl
    have hle := length_le_lineFeeds lines
    rw [List.forall_mem_cons, ← ih, isLine_iff_lineFeeds, List.map_cons, String.join_cons, lineFeeds_append,
      lineFeeds_append, hfeed, List.length_cons]
    omega

/-- Texts that are ended by line feeds are that many lines just if each of them is a line. -/
lemma isLines_join {lines : List String} :
    IsLines lines.length (String.join (lines.map (· ++ "\n"))) ↔ ∀ l ∈ lines, IsLine l := by
  constructor
  · rintro ⟨others, hlength, hothers, heq⟩
    rw [← lineFeeds_join, heq, ← hlength]
    exact lineFeeds_join.mpr hothers
  · exact fun h => ⟨lines, rfl, h, rfl⟩

/-! ### Lines of diagnostics and of the summary -/

namespace Diagnostic

variable {d : Diagnostic} (hsource : Each IsLine d.source)

include hsource

lemma isLine_location : Each IsLine d.location := by
  unfold location
  split
  · exact each_none
  rename_i source hsome
  have hsource : IsLine source := hsource source hsome
  split
  · exact each_none
  split
  · rename_i span _
    exact each_some (((hsource.append (.lit (by decide))).append (isLine_intText _)).append (.lit (by decide)) |>.append
      (isLine_intText _))
  · exact each_some hsource

/-- What stands in front of the message is written out or known to be a line. -/
lemma isLine_line_iff : IsLine d.line ↔ IsLine d.message := by
  have hlocation := isLine_location hsource
  have hlabel : IsLine d.level.label := by
    cases d.level <;> exact .lit (by decide)
  unfold line
  dsimp only
  rw [isLine_append]
  refine and_iff_right (.append (.append ?_ hlabel) (.lit (by decide)))
  split
  · rename_i place hplace
    exact (hlocation place hplace).append (.lit (by decide))
  · exact .lit (by decide)

end Diagnostic

namespace Report

lemma isLine_counted (n : Nat) {noun : String} (h : IsLine noun) : IsLine (counted n noun) := by
  have hplural : IsLine (if n = 1 then "" else "s") := by
    split <;> exact .lit (by decide)
  exact (((isLine_natText n).append (.lit (by decide))).append h).append hplural

lemma Summary.isLine_line (s : Summary) : IsLine s.line := by
  have hmodels := isLine_counted s.models (.lit (by decide) : IsLine "model")
  have hmodules := isLine_counted s.modules (.lit (by decide) : IsLine "module")
  have herrors := isLine_counted s.errorCount (.lit (by decide) : IsLine "error")
  have hwarnings := isLine_counted s.warningCount (.lit (by decide) : IsLine "warning")
  exact (((hmodels.between (by decide) (by decide)).and hmodules (by decide)).and herrors (by decide)).and hwarnings
    (by decide)

end Report

/-! ### Compiling -/

/-- The names of the module and of its documents are lines. -/
structure ModuleSource.NamedInLines (m : ModuleSource) : Prop where
  knownAs : IsLine m.knownAs
  sourceFileName : ∀ d ∈ m.documents, IsLine d.sourceFileName

/-- Every document of the module hands over lines. -/
def ModuleSource.HandsOverLines (m : ModuleSource) : Prop :=
  ∀ d ∈ m.documents, d.HandsOverLines

/-- Diagnostics in documents whose names are lines. -/
def Diagnostic.AllNamed (ds : List Diagnostic) : Prop :=
  ∀ d ∈ ds, Each IsLine d.source

lemma Diagnostic.AllAbout.allNamed {es : List Entity} {ds : List Diagnostic} (h : AllAbout es ds)
    (hes : ∀ e ∈ es, IsLine e.header.sourceFileName) : AllNamed ds := by
  intro d hd
  obtain ⟨e, he, hsource⟩ := h d hd
  rw [hsource]
  exact each_some (hes e he)

namespace Compilation

section Reading

variable {P : Entity → Prop} {Q : Diagnostic → Prop}

/-- What holds of every document holds of all of them. -/
lemma forall_readDocuments {a : String} {ds : List DocumentInput}
    (h : ∀ d ∈ ds, Each P (Entity.ofDocument { d with moduleAlias := some a }).1 ∧
      ∀ x ∈ (Entity.ofDocument { d with moduleAlias := some a }).2, Q x) :
    (∀ e ∈ (readDocuments a ds).1, P e) ∧ ∀ x ∈ (readDocuments a ds).2, Q x := by
  induction ds with
  | nil => exact ⟨List.forall_mem_nil _, List.forall_mem_nil _⟩
  | cons d ds ih =>
    obtain ⟨⟨hentity, hdiagnostics⟩, hds⟩ := List.forall_mem_cons.mp h
    obtain ⟨hentities, hmore⟩ := ih hds
    exact ⟨List.forall_mem_append.mpr ⟨fun e he => hentity e (Option.mem_toList.mp he), hentities⟩,
      List.forall_mem_append.mpr ⟨hdiagnostics, hmore⟩⟩

/-- What holds of every document, and of an alias that is taken, holds of all modules. -/
lemma forall_readModules (taken : List String) {ms : List ModuleSource} (htaken : ∀ m ∈ ms, Q (takenAlias m.knownAs))
    (h : ∀ m ∈ ms, ∀ d ∈ m.documents, Each P (Entity.ofDocument { d with moduleAlias := some m.knownAs }).1 ∧
      ∀ x ∈ (Entity.ofDocument { d with moduleAlias := some m.knownAs }).2, Q x) :
    (∀ e ∈ (readModules taken ms).entities, P e) ∧ ∀ x ∈ (readModules taken ms).diagnostics, Q x := by
  induction ms generalizing taken with
  | nil => exact ⟨List.forall_mem_nil _, List.forall_mem_nil _⟩
  | cons m ms ih =>
    obtain ⟨hmtaken, htaken⟩ := List.forall_mem_cons.mp htaken
    obtain ⟨hm, hms⟩ := List.forall_mem_cons.mp h
    rw [readModules]
    dsimp only
    split
    · obtain ⟨hentities, hdiagnostics⟩ := ih taken htaken hms
      exact ⟨hentities, List.forall_mem_cons.mpr ⟨hmtaken, hdiagnostics⟩⟩
    · obtain ⟨hfirst, hissues⟩ := forall_readDocuments fun d hd => hm d (mem_orderedDocuments.mp hd)
      obtain ⟨hentities, hdiagnostics⟩ := ih (taken ++ [m.knownAs]) htaken hms
      exact ⟨List.forall_mem_append.mpr ⟨hfirst, hentities⟩, List.forall_mem_append.mpr ⟨hissues, hdiagnostics⟩⟩

end Reading

section Compile

variable {project : ModuleSource} {dependencies : List ModuleSource}

/-- What holds of the diagnostics of all stages holds of those of the compilation. -/
lemma forall_compile {Q : Diagnostic → Prop} (hreading : ∀ x ∈ (declarations project dependencies).diagnostics, Q x)
    (hunique : ∀ x ∈ Uniqueness.check (declarations project dependencies).entities, Q x)
    (htypes : ∀ x ∈ (TypeResolution.resolve (declarations project dependencies).index).2, Q x)
    (hrelations : ∀ x ∈ (RelationResolution.resolve (declarations project dependencies).typed).2, Q x)
    (hindexes : ∀ x ∈ (IndexCheck.resolve
      (RelationResolution.resolve (declarations project dependencies).typed).1).2, Q x) :
    ∀ x ∈ (compile project dependencies).diagnostics, Q x := by
  intro x hx
  replace hx : x ∈ [] ++ (declarations project dependencies).diagnostics ++
      Uniqueness.check (declarations project dependencies).entities ++
      (TypeResolution.resolve (declarations project dependencies).index).2 ++
      (RelationResolution.resolve (declarations project dependencies).typed).2 ++
      (IndexCheck.resolve (RelationResolution.resolve (declarations project dependencies).typed).1).2 := hx
  simp only [List.nil_append, List.mem_append] at hx
  rcases hx with (((hx | hx) | hx) | hx) | hx
  · exact hreading x hx
  · exact hunique x hx
  · exact htypes x hx
  · exact hrelations x hx
  · exact hindexes x hx

variable (hnames : ∀ m ∈ project :: dependencies, m.NamedInLines)

include hnames

/-- Every diagnostic is in a document whose name is a line, or in none. -/
lemma allNamed_compile : Diagnostic.AllNamed (compile project dependencies).diagnostics := by
  obtain ⟨hentities, hreading⟩ : (∀ e ∈ (declarations project dependencies).entities,
      IsLine e.header.sourceFileName) ∧ Diagnostic.AllNamed (declarations project dependencies).diagnostics := by
    refine forall_readModules [] (fun _ _ => each_none) fun m hm d hd => ?_
    have hname := (hnames m hm).sourceFileName d hd
    refine ⟨fun e he => ?_, fun x hx => ?_⟩
    · dsimp only
      rw [Entity.sourceFileName_ofDocument he]
      exact hname
    · obtain ⟨i, -, rfl⟩ := List.mem_map.mp hx
      exact each_some hname
  have htyped : ∀ e ∈ (declarations project dependencies).typed.entities, IsLine e.header.sourceFileName := by
    intro e' he'
    obtain ⟨r, hr, rfl⟩ := List.mem_map.mp he'
    obtain ⟨e, he, rfl⟩ := List.mem_map.mp hr
    rw [← TypeResolution.typedEntity, TypeResolution.header_typedEntity]
    exact hentities e he
  have hrelated : ∀ e ∈ (RelationResolution.resolve (declarations project dependencies).typed).1,
      IsLine e.header.sourceFileName := by
    intro e' he'
    obtain ⟨i, e, he, rfl⟩ := RelationResolution.exists_withFields he'
    rw [Entity.header_withFields]
    exact htyped e he
  exact forall_compile hreading ((Uniqueness.allAbout_checkFrom _ fun _ he => he).allNamed hentities)
    ((TypeResolution.allAbout_resolve _).allNamed hentities) ((RelationResolution.allAbout_resolve _).allNamed htyped)
    ((IndexCheck.allAbout_resolve _).allNamed hrelated)

/-- If the documents hand over lines, all messages are lines. -/
theorem allLines_compile (hhanded : ∀ m ∈ project :: dependencies, m.HandsOverLines) :
    Diagnostic.AllLines (compile project dependencies).diagnostics := by
  obtain ⟨hentities, hreading⟩ : (∀ e ∈ (declarations project dependencies).entities, e.HasLines) ∧
      Diagnostic.AllLines (declarations project dependencies).diagnostics := by
    refine forall_readModules [] (fun m hm => (hnames m hm).knownAs.between (by decide) (by decide)) fun m hm d hd => ?_
    refine Entity.withLines_ofDocument ?_ ((hnames m hm).sourceFileName d hd) fun a ha => ?_
    · rw [DocumentInput.HandsOverLines, DocumentInput.handedOver_withAlias]
      exact hhanded m hm d hd
    · obtain rfl := Option.some.inj ha
      exact (hnames m hm).knownAs
  have htyped : ∀ e ∈ (declarations project dependencies).typed.entities, e.HasLines :=
    TypeResolution.hasLines_resolve hentities
  exact forall_compile hreading (Uniqueness.allLines_check hentities) (TypeResolution.allLines_resolve hentities)
    (RelationResolution.allLines_resolve htyped)
    (IndexCheck.allLines_resolve (RelationResolution.hasLines_resolve htyped))

end Compile

end Compilation

namespace Report

variable {project : ModuleSource} {dependencies : List ModuleSource}

/-- The report of modules and documents that are named in lines is as many lines as there are diagnostics, and one more,
just if no message has a line feed.  If no document hands one over, these are the lines of the diagnostics and that of
the summary.  The summary counts the diagnostics of a level. -/
theorem human_lines (hnames : ∀ m ∈ project :: dependencies, m.NamedInLines) :
    let c := compile project dependencies
    (IsLines (c.diagnostics.length + 1) (human c) ↔ ∀ d ∈ c.diagnostics, IsLine d.message) ∧
    ((∀ m ∈ project :: dependencies, m.HandsOverLines) →
      ConsistsOf (c.diagnostics.map Diagnostic.line ++ [(summaryOf c).line]) (human c)) ∧
    (summaryOf c).errorCount = c.diagnostics.countP (·.level = .error) ∧
    (summaryOf c).warningCount = c.diagnostics.countP (·.level = .warn) := by
  intro c
  have hlines : (∀ l ∈ c.diagnostics.map Diagnostic.line ++ [(summaryOf c).line], IsLine l) ↔
      ∀ d ∈ c.diagnostics, IsLine d.message := by
    rw [List.forall_mem_append, List.forall_mem_map, List.forall_mem_singleton]
    refine (and_iff_left (summaryOf c).isLine_line).trans (forall₂_congr fun d hd => ?_)
    exact Diagnostic.isLine_line_iff (Compilation.allNamed_compile hnames d hd)
  refine ⟨?_, fun hhanded => ⟨hlines.mpr (Compilation.allLines_compile hnames hhanded), rfl⟩, ?_, ?_⟩
  · rw [← hlines, ← isLines_join, List.length_append, List.length_map]
    rfl
  · rw [List.countP_eq_length_filter]
    rfl
  · rw [List.countP_eq_length_filter]
    rfl

/-- A note with one field whose name is not valid. -/
def note (field : String) : ModuleSource :=
  Compilation.sampleModule "note" ["class: Note", "fields:", "  " ++ field ++ ": int"]

/-- The report on one diagnostic is two lines, but not if the field that the diagnostic names has a line feed. -/
theorem human_lines_note :
    (compile (note "Title") []).diagnostics.length = 1 ∧ IsLines 2 (human (compile (note "Title") [])) ∧
    (compile (note "\"a\\nb\"") []).diagnostics.length = 1 ∧ ¬ IsLines 2 (human (compile (note "\"a\\nb\"") [])) := by
  have hnames : ∀ field, ∀ m ∈ [note field], m.NamedInLines := by
    intro field
    rw [List.forall_mem_singleton]
    exact ⟨.lit (by decide), List.forall_mem_singleton.mpr (.append (.lit (by decide)) (.lit (by decide)))⟩
  obtain ⟨hone, hhanded⟩ : (compile (note "Title") []).diagnostics.length = 1 ∧
      ∀ d ∈ (note "Title").documents, d.HandsOverLines := by
    decide +kernel
  obtain ⟨hother, hmessage⟩ : (compile (note "\"a\\nb\"") []).diagnostics.length = 1 ∧
      ¬ ∀ d ∈ (compile (note "\"a\\nb\"") []).diagnostics, IsLine d.message := by
    decide +kernel
  obtain ⟨-, hwhole, -⟩ := human_lines (hnames "Title")
  obtain ⟨hbroken, -⟩ := human_lines (hnames "\"a\\nb\"")
  rw [hother] at hbroken
  refine ⟨hone, ⟨_, ?_, hwhole (List.forall_mem_singleton.mpr hhanded)⟩, hother, fun h => hmessage (hbroken.mp h)⟩
  rw [List.length_append, List.length_map, hone]
  rfl

example : human (compile (note "\"a\\nb\"") []) =
    "note.spy.yaml:3:3 error The field name \"a\nb\" must be a valid lowerCamelCase name.\n" ++
      "Analyzed 1 model in 1 module: 1 error, 0 warnings.\n" := by
  decide +kernel

end Report

end EntitySchema
