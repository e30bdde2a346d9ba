import Mathlib.Data.List.Basic
import Mathlib.Tactic.Common
import EntitySchema.Entity.Field
import EntitySchema.Proofs.ColumnDefaults
import EntitySchema.Proofs.FieldExpr.Pieces

/-!
# Quoted defaults

A default between quotes is read, checked and written into a table by functions that each have their own idea of a
quote.  The expression is cut at its first comma only, because no comma between the quotes is seen
(`Segment.pieces_quoted`); it is cut at its first equals sign, and trimming stops at the quotes; so what is left of the
option is the text with its quotes (`readOption_defaultSegment`).  In the table its single quotes are doubled, and
reading the literal takes this back (`readLiteral?_sqlLiteral`).  The passes leave such a field alone
(`exists_runPasses`), so the default of the column stands for the very text that was put between the quotes
(`defaultsTo_withQuotedDefault`).
-/

namespace EntitySchema

/-! ### Literals of the database -/

/-- What stands between the quotes of a literal, and the text behind it: two quotes stand for one, and a lone quote
ends the literal. -/
def literalBody : List Char → Option (List Char × List Char)
  | [] => none
  | '\'' :: '\'' :: cs => (literalBody cs).map fun (body, rest) => ('\'' :: body, rest)
  | '\'' :: cs => some ([], cs)
  | c :: cs => (literalBody cs).map fun (body, rest) => (c :: body, rest)

/-- What the literal at the start of a text stands for, and the text behind it. -/
def readLiteral? : List Char → Option (List Char × List Char)
  | '\'' :: cs => literalBody cs
  | _ => none

/-- Doubled quotes are read back, up to the quote that ends the literal. -/
lemma literalBody_doubleQuotes (cs : List Char) {rest : List Char} (h : rest.head? ≠ some '\'') :
    literalBody (doubleQuotes cs ++ '\'' :: rest) = some (cs, rest) := by
  induction cs with
  | nil =>
    cases rest with
    | nil => rfl
    | cons c rest =>
      have hc : c ≠ '\'' := fun hc => h (by rw [hc]; rfl)
      rw [doubleQuotes, List.nil_append, literalBody]
      rintro _ ⟨⟩
      exact hc rfl
  | cons c cs ih =>
    by_cases hc : c = '\''
    · subst hc
      rw [doubleQuotes, if_pos (beq_self_eq_true _), List.cons_append, List.cons_append, literalBody, ih]
      rfl
    · rw [doubleQuotes, if_neg (by simpa using hc), List.cons_append, literalBody, ih]
      · rfl
      · exact fun _ heq => absurd heq hc
      · exact hc

/-- A literal stands for its text, with the cast behind it. -/
lemma readLiteral?_sqlLiteral (value cast : String) :
    readLiteral? (sqlLiteral value cast).toList = some (value.toList, "::".toList ++ cast.toList) := by
  have hrest : ("::".toList ++ cast.toList).head? ≠ some '\'' := by simp
  have htext : (sqlLiteral value cast).toList =
      '\'' :: (doubleQuotes value.toList ++ '\'' :: ("::".toList ++ cast.toList)) := by
    simp [sqlLiteral]
  rw [htext]
  exact literalBody_doubleQuotes _ hrest

/-! ### Segments -/

/-- A text that neither starts nor ends with white space stays as it is when it is trimmed. -/
lemma Text.trim_eq_self {c d : Char} {cs ds : List Char} (hc : isBlank c = false) (hd : isBlank d = false)
    (h : c :: cs = ds ++ [d]) : trim (c :: cs) = c :: cs := by
  rw [trim, trimStart, List.dropWhile_cons_of_neg (by simp [hc]), h, trimEnd, List.reverse_append,
    List.reverse_singleton, List.singleton_append, List.dropWhile_cons_of_neg (by simp [hd])]
  simp

namespace Segment

variable {isSeparator : Char → Bool}

/-- What stands between quotes, with the closing one, is not cut. -/
lemma pieces_quoted {q : Char} {depth : Nat} {cs : List Char} (h : q ∉ cs) :
    pieces isSeparator ⟨some q, depth⟩ (cs ++ [q]) = [cs ++ [q]] := by
  induction cs with
  | nil => rw [List.nil_append, pieces]; simp [Level.splits, pieces]
  | cons c cs ih =>
    obtain ⟨hc, hcs⟩ := not_or.mp (mt List.mem_cons.mpr h)
    -- Any other character, a bracket or the other quote among them, leaves the reader between the quotes.
    have hafter : (⟨some q, depth⟩ : Level).after c = ⟨some q, depth⟩ := by
      simp [Level.after, Ne.symm hc]
    rw [List.cons_append, pieces, hafter, ih hcs]
    simp [Level.splits]

/-- A character that neither opens, closes nor separates anything. -/
def isPlain (isSeparator : Char → Bool) (c : Char) : Bool :=
  !isQuote c && !isOpening c && !isClosing c && !isSeparator c

/-- Plain characters go in front of the first piece. -/
lemma pieces_plain (word : List Char) {cs piece : List Char} {rest : List (List Char)}
    (hword : word.all (isPlain isSeparator) = true) (h : pieces isSeparator {} cs = piece :: rest) :
    pieces isSeparator {} (word ++ cs) = (word ++ piece) :: rest := by
  induction word with
  | nil => exact h
  | cons c word ih =>
    obtain ⟨hc, hword⟩ := Bool.and_eq_true_iff.mp hword
    simp only [isPlain, Bool.and_eq_true, Bool.not_eq_true'] at hc
    obtain ⟨⟨⟨hquote, hopening⟩, hclosing⟩, hseparator⟩ := hc
    have hafter : ({} : Level).after c = {} := by
      simp [Level.after, hquote, hopening, hclosing]
    have hsplits : ({} : Level).splits isSeparator c = false := by
      simp [Level.splits, hseparator]
    rw [List.cons_append, pieces, hafter, ih hword, hsplits]
    rfl

end Segment

namespace FieldExpr

/-- A text between quotes. -/
def inQuotes (q : Char) (s : String) : String :=
  String.singleton q ++ s ++ String.singleton q

/-- The expression of a text with a default between quotes. -/
def withQuotedDefault (q : Char) (s : String) : String :=
  "String, default=" ++ inQuotes q s

@[simp] lemma toList_inQuotes (q : Char) (s : String) : (inQuotes q s).toList = q :: (s.toList ++ [q]) := by
  simp [inQuotes]

/-- The segment of the default. -/
def defaultSegment (q : Char) (s : String) : Segment :=
  ⟨"default=" ++ inQuotes q s, 8, 8 + Text.units ("default=" ++ inQuotes q s).toList⟩

section Quotes

variable {q : Char} {s : String} (hq : q = '\'' ∨ q = '"')
include hq

lemma isBlank_quote : Text.isBlank q = false := by
  rcases hq with rfl | rfl <;> rfl

/-- The expression is cut at its first comma only, whatever stands between the quotes. -/
lemma pieces_withQuotedDefault (hs : q ∉ s.toList) :
    Segment.pieces (· == ',') {} (withQuotedDefault q s).toList =
      ["String".toList, " default=".toList ++ q :: (s.toList ++ [q])] := by
  have hquote : Segment.isQuote q = true := by
    rcases hq with rfl | rfl <;> rfl
  have hquoted : Segment.pieces (· == ',') {} (q :: (s.toList ++ [q])) = [q :: (s.toList ++ [q])] := by
    have hafter : ({} : Segment.Level).after q = ⟨some q, 0⟩ := by simp [Segment.Level.after, hquote]
    rw [Segment.pieces, hafter, Segment.pieces_quoted hs]
    simp [Segment.Level.splits, hquote]
  have hdefault := Segment.pieces_plain " default=".toList (by decide) hquoted
  have hcomma : Segment.pieces (· == ',') {} (',' :: (" default=".toList ++ q :: (s.toList ++ [q]))) =
      [[], " default=".toList ++ q :: (s.toList ++ [q])] := by
    rw [Segment.pieces, hdefault]
    rfl
  have htext : (withQuotedDefault q s).toList =
      "String".toList ++ ',' :: (" default=".toList ++ q :: (s.toList ++ [q])) := by
    simp [withQuotedDefault]
  rw [htext]
  exact Segment.pieces_plain "String".toList (by decide) hcomma

/-- Trimming the piece of the default stops at its quotes. -/
lemma ofPiece_quotedDefault :
    Segment.ofPiece 7 (" default=".toList ++ q :: (s.toList ++ [q])) = defaultSegment q s := by
  have hblanks : (" default=".toList ++ q :: (s.toList ++ [q])).takeWhile Text.isBlank = [' '] := rfl
  have htrim : Text.trim (" default=".toList ++ q :: (s.toList ++ [q])) = ("default=" ++ inQuotes q s).toList := by
    have hends : 'd' :: ("efault=".toList ++ q :: (s.toList ++ [q])) =
        ("default=".toList ++ q :: s.toList) ++ [q] := by
      simp
    rw [String.toList_append, toList_inQuotes]
    exact Text.trim_eq_self (by decide) (isBlank_quote hq) hends
  rw [Segment.ofPiece, hblanks, htrim, String.ofList_toList]
  rfl

lemma split_withQuotedDefault (hs : q ∉ s.toList) :
    Segment.split (withQuotedDefault q s).toList = [⟨"String", 0, 6⟩, defaultSegment q s] := by
  have htype : Segment.ofPiece 0 "String".toList = ⟨"String", 0, 6⟩ := rfl
  rw [Segment.split_eq_ofPieces, pieces_withQuotedDefault hq hs]
  exact congrArg₂ (fun a b => [a, b]) htype (ofPiece_quotedDefault hq)

/-- The first equals sign stands in front of the quotes. -/
lemma assignment_defaultSegment : (defaultSegment q s).assignment = ("default", some (inQuotes q s)) := by
  have htext : (defaultSegment q s).text.toList = "default".toList ++ '=' :: q :: (s.toList ++ [q]) := by
    simp [defaultSegment]
  have hkey : (defaultSegment q s).text.toList.takeWhile (· != '=') = "default".toList := by
    rw [htext]
    rfl
  have htrim : Text.trim (q :: (s.toList ++ [q])) = (inQuotes q s).toList := by
    have hends : q :: (s.toList ++ [q]) = (q :: s.toList) ++ [q] := rfl
    rw [toList_inQuotes]
    exact Text.trim_eq_self (isBlank_quote hq) (isBlank_quote hq) hends
  unfold Segment.assignment
  dsimp only
  rw [hkey, htext, List.drop_left]
  dsimp only
  rw [htrim, String.ofList_toList]
  rfl

/-- The option says that the text with its quotes is the default. -/
lemma readOption_defaultSegment :
    readOption (defaultSegment q s) = (some (.default .both (inQuotes q s)), []) := by
  have htext : (defaultSegment q s).text.toList = 'd' :: ("efault=".toList ++ q :: (s.toList ++ [q])) := by
    simp [defaultSegment]
  have hne : ∀ t : String, t.toList.head? ≠ some 'd' → (defaultSegment q s).text ≠ t := by
    intro t ht heq
    rw [← heq, htext] at ht
    exact ht rfl
  have hempty : (defaultSegment q s).text.isEmpty = false :=
    String.isEmpty_eq_false_iff.mpr (hne "" (by decide))
  have hrelation : relationOpening.isPrefixOf (defaultSegment q s).text.toList = false := by
    rw [htext]
    rfl
  have hvalue : (inQuotes q s).isEmpty = false := by
    rw [String.isEmpty_eq_false_iff]
    intro heq
    have hlist := toList_inQuotes q s
    rw [heq] at hlist
    cases hlist
  have hread : readAssignment (defaultSegment q s) = .ok (.default .both (inQuotes q s)) := by
    unfold readAssignment
    rw [assignment_defaultSegment hq]
    simp [hvalue]
  unfold readOption
  rw [hempty, beq_eq_false_iff_ne.mpr (hne "persist" (by decide)),
    beq_eq_false_iff_ne.mpr (hne "!persist" (by decide)), beq_eq_false_iff_ne.mpr (hne "relation" (by decide)),
    hrelation, hread]
  rfl

/-- The expression is read without an issue. -/
lemma read_withQuotedDefault (hs : q ∉ s.toList) :
    read (withQuotedDefault q s) =
      ⟨some ⟨"String", none, false, none, [], 0, 6⟩, ⟨"String", 0, 6⟩,
        [⟨.default .both (inQuotes q s), defaultSegment q s⟩], []⟩ := by
  have htype : readType ⟨"String", 0, 6⟩ = .ok ⟨"String", none, false, none, [], 0, 6⟩ := by
    unfold readType TypeExpr.read
    unfold TypeExpr.takeType
    rfl
  rw [read, split_withQuotedDefault hq hs]
  simp only [readOptions, readOption_defaultSegment hq, htype]
  rfl

end Quotes

end FieldExpr

/-! ### Defaults and columns -/

/-- The type of a text that is never null. -/
def TypeDef.text : TypeDef :=
  .scalar "String" false

/-- The default of the column is a literal that stands for the text, with the cast to text behind it. -/
def Column.DefaultsTo (c : Column) (s : String) : Prop :=
  ∃ text, c.columnDefault = some text ∧ readLiteral? text.toList = some (s.toList, "::text".toList)

open FieldExpr (inQuotes withQuotedDefault)

section Quotes

variable {q : Char} {s : String} (hq : q = '\'' ∨ q = '"')
include hq

/-- The text between the quotes of a default is the text that was put there. -/
lemma DefaultValue.unquote?_inQuotes : unquote? (inQuotes q s) = some s := by
  have hquote : (q == '\'' || q == '"') = true := by
    rcases hq with rfl | rfl <;> rfl
  unfold unquote?
  rw [FieldExpr.toList_inQuotes]
  simp [hquote]

/-- A text between quotes is a default of a text. -/
lemma DefaultValue.check_inQuotes (key : String) :
    check .text (inQuotes q s) key = .valid := by
  have hmet : Expectation.isMet (inQuotes q s) .string = true := by
    rw [Expectation.isMet, unquote?_inQuotes hq]
    rfl
  have hexpected : expectation? TypeDef.text.name = some .string := rfl
  unfold check
  rw [hexpected]
  dsimp only
  rw [if_pos hmet]
  rfl

end Quotes

/-- A stored field is a text with the text between the quotes as its default for rows. -/
structure FieldDraft.HasQuotedDefault (f : FieldDraft) (q : Char) (s : String) : Prop where
  type : f.type = .text
  stored : f.shouldPersist = true
  persist : f.defaults.persist.map (·.value) = some (inQuotes q s)

namespace FieldDraft.HasQuotedDefault

variable {f : FieldDraft} {q : Char} {s : String}

/-- The default of the column of the field stands for the text. -/
lemma defaultsTo_columnOf (h : f.HasQuotedDefault q s) (hq : q = '\'' ∨ q = '"') (enums : List EnumValues)
    (table : String) : (columnOf enums table f.toDefinition).DefaultsTo s := by
  have hdefault : f.toDefinition.persistDefault? = some (inQuotes q s) := by
    rw [FieldDraft.persistDefault?_toDefinition, h.persist]
  have htype : f.toDefinition.type = .text := h.type
  have hunquoted : unquoted (inQuotes q s) = s := by
    rw [unquoted, DefaultValue.unquote?_inQuotes hq, Option.getD_some]
  refine ⟨sqlLiteral s "text", ?_, readLiteral?_sqlLiteral s "text"⟩
  rw [columnOf, columnDefault_eq hdefault, htype]
  change some (sqlLiteral (unquoted (inQuotes q s)) "text") = _
  rw [hunquoted]

/-- A text is not looked up, so resolving types leaves the field. -/
lemma typedField_eq (h : f.HasQuotedDefault q s) (index : EntityIndex) (e : Entity) :
    TypeResolution.typedField index e f = f := by
  have hresolve : TypeResolution.Site.resolve ⟨index, e, f⟩ f.type = (f.type, []) := by
    rw [h.type, TypeDef.text, TypeDef.scalar, TypeResolution.Site.resolve]
  have hcategory : f.type.category ≠ .entity := by
    rw [h.type]
    decide
  simp [TypeResolution.typedField, TypeResolution.Site.resolveField, TypeResolution.Site.checkDefaults, hresolve,
    hcategory]

/-- A text holds no rows, so linking relations leaves the field stored. -/
lemma of_kept {index : EntityIndex} {g : FieldDraft} (h : f.HasQuotedDefault q s)
    (hkept : RelationResolution.KeptField index f g) : g.HasQuotedDefault q s := by
  have htype : g.type = .text := by rw [hkept.same, ← h.type]
  refine ⟨htype, ?_, by rw [hkept.same, ← h.persist]⟩
  rcases hkept.stored with hsame | ⟨-, r, hr, hholder⟩
  · exact hsame.trans h.stored
  · refine absurd ?_ (hkept.holds r hr hholder).category_ne
    rw [htype]
    rfl

/-- The field is one of those of the definition of its entity, whatever errors there are. -/
lemma exists_runPasses (h : f.HasQuotedDefault q s) (aliases : List String) {entities : List Entity}
    (hread : ∀ e ∈ entities, ∃ input, (Entity.ofDocument input).1 = some e) {i : Nat} {e : Entity}
    (he : entities[i]? = some e) (hf : f ∈ e.fields) :
    ∃ m, ((Compilation.runPasses aliases entities).indexes.1.map Entity.toDefinition)[i]? = some m ∧
      ∃ g : FieldDraft, g.toDefinition ∈ m.fields ∧ g.name = f.name ∧ g.HasQuotedDefault q s := by
  have hdeclared : ∀ e ∈ entities, e.Declared := by
    intro e he
    obtain ⟨input, hinput⟩ := hread e he
    exact Entity.declared_ofDocument hinput
  have hmem : f ∈ e.fields.map (TypeResolution.typedField ⟨entities, aliases⟩ e) :=
    List.mem_map.mpr ⟨f, hf, h.typedField_eq _ _⟩
  obtain ⟨g, hg, hkept⟩ := Interleaved.exists_kept (Compilation.framed_finished hdeclared he) hmem
  refine ⟨_, by rw [Compilation.entities_runPasses, List.getElem?_map, List.getElem?_mapIdx, he, Option.map_some,
    Option.map_some], g, ?_, hkept.name, h.of_kept hkept⟩
  rw [Entity.fields_toDefinition]
  exact List.mem_map_of_mem hg

end FieldDraft.HasQuotedDefault

section Quotes

variable {q : Char} {s : String} (hq : q = '\'' ∨ q = '"')
include hq

/-- The field of a table with a quoted default has this default for rows, and no issue. -/
lemma exists_ofExpr_withQuotedDefault (hs : q ∉ s.toList) {site : FieldDraft.Site} {entry : MappingEntry}
    (howner : site.owner = .tableClass) (hkey : entry.key ≠ "id") :
    ∃ f, FieldDraft.ofExpr site entry (FieldExpr.read (withQuotedDefault q s)) = (some f, []) ∧
      f.HasQuotedDefault q s := by
  have hread := FieldExpr.read_withQuotedDefault hq hs
  have htype : FieldDraft.typeOf site entry.key (FieldExpr.read (withQuotedDefault q s)) = (some .text, []) := by
    have hbuild : TypeExpr.build ⟨"String", none, false, none, [], 0, 6⟩ = (some .text, []) := rfl
    have hid : (site.owner == .tableClass && entry.key == "id" && !FieldDraft.isIdType .text) = false := by
      rw [beq_eq_false_iff_ne.mpr hkey, Bool.and_false, Bool.false_and]
    rw [hread]
    unfold FieldDraft.typeOf
    dsimp only
    rw [hbuild]
    dsimp only
    rw [hid]
    rfl
  have hdefault : ∀ segment, FieldDraft.checkedDefault site .text .both ⟨inQuotes q s, segment⟩ =
      (some ⟨inQuotes q s, site.segmentSpan segment⟩, []) := by
    intro segment
    have hcheck : DefaultValue.check .text (inQuotes q s) DefaultKey.both.word = .valid :=
      DefaultValue.check_inQuotes hq _
    rw [FieldDraft.checkedDefault, hcheck]
  have hoptions : FieldDraft.addOptions site {} (FieldExpr.read (withQuotedDefault q s)).options =
      ({ bothDefault := some ⟨inQuotes q s, FieldExpr.defaultSegment q s⟩ }, []) := by
    rw [hread]
    rfl
  unfold FieldDraft.ofExpr
  rw [htype]
  dsimp only
  rw [hoptions, howner]
  simp only [FieldDraft.defaultsOf, hdefault]
  exact ⟨_, rfl, rfl, rfl, rfl⟩

/-- A default between quotes survives, whatever stands between them: the expression is read without an issue, its
default is one of a text, and the field of a table has a column whose default stands for the same text, when it has
been read and in the definition that the passes make of its entity. -/
theorem defaultsTo_withQuotedDefault (hs : q ∉ s.toList) :
    (FieldExpr.read (withQuotedDefault q s)).issues = [] ∧
      DefaultValue.check .text (inQuotes q s) "default" = .valid ∧
      ∀ (site : FieldDraft.Site) (entry : MappingEntry), site.owner = .tableClass → entry.key ≠ "id" →
        ∃ f, FieldDraft.ofExpr site entry (FieldExpr.read (withQuotedDefault q s)) = (some f, []) ∧
          f.HasQuotedDefault q s ∧ (∀ enums table, (columnOf enums table f.toDefinition).DefaultsTo s) ∧
          ∀ aliases entities, (∀ e ∈ entities, ∃ input, (Entity.ofDocument input).1 = some e) →
            ∀ (i : Nat) e, entities[i]? = some e → f ∈ e.fields →
              ∃ m, ((Compilation.runPasses aliases entities).indexes.1.map Entity.toDefinition)[i]? = some m ∧
                ∃ g ∈ m.fields, g.name = f.name ∧ g.shouldPersist = true ∧
                  ∀ enums table, (columnOf enums table g).DefaultsTo s := by
  have hread := FieldExpr.read_withQuotedDefault hq hs
  refine ⟨by rw [hread], DefaultValue.check_inQuotes hq "default", fun site entry howner hkey => ?_⟩
  obtain ⟨f, hf, hdefault⟩ := exists_ofExpr_withQuotedDefault hq hs howner hkey
  refine ⟨f, hf, hdefault, hdefault.defaultsTo_columnOf hq, fun aliases entities hentities i e he hmem => ?_⟩
  obtain ⟨m, hm, g, hg, hname, hkept⟩ := hdefault.exists_runPasses aliases hentities he hmem
  exact ⟨m, hm, g.toDefinition, hg, hname, hkept.stored, hkept.defaultsTo_columnOf hq⟩

end Quotes

/-- A field of a table whose default has the other quote, a comma, open brackets and white space at both ends. -/
def remark : Option FieldDraft × List Issue :=
  let expression := "String, default=\" it's 5, (a <b= \""
  FieldDraft.ofExpr ⟨.tableClass, ⟨[0], none, default⟩, "/fields/remark"⟩
    ⟨"remark", default, default, .scalar (.text expression) none default default, []⟩ (FieldExpr.read expression)

/-- The remark survives, with its single quote doubled. -/
theorem defaultsTo_withQuotedDefault_remark :
    ∃ f, remark = (some f, []) ∧
      (columnOf [] "note" f.toDefinition).columnDefault = some "' it''s 5, (a <b= '::text" ∧
      (columnOf [] "note" f.toDefinition).DefaultsTo " it's 5, (a <b= " := by
  have hexpression : withQuotedDefault '"' " it's 5, (a <b= " = "String, default=\" it's 5, (a <b= \"" := by decide
  obtain ⟨-, -, hfield⟩ := defaultsTo_withQuotedDefault (q := '"') (s := " it's 5, (a <b= ") (.inr rfl) (by decide)
  rw [hexpression] at hfield
  obtain ⟨f, hf, -, hcolumn, -⟩ := hfield ⟨.tableClass, ⟨[0], none, default⟩, "/fields/remark"⟩
    ⟨"remark", default, default, .scalar (.text "String, default=\" it's 5, (a <b= \"") none default default, []⟩
    rfl (by decide)
  have hdefault : remark.1.map (fun f => (columnOf [] "note" f.toDefinition).columnDefault) =
      some (some "' it''s 5, (a <b= '::text") := by
    decide +kernel
  have hremark : remark = (some f, []) := hf
  rw [hremark] at hdefault
  exact ⟨f, hremark, Option.some.inj hdefault, hcolumn [] "note"⟩

end EntitySchema
