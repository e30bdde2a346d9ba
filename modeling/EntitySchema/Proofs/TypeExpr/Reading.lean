import Mathlib.Data.List.TakeWhile
import Mathlib.Tactic.Common
import EntitySchema.Proofs.TypeExpr.Derivations

/-!
# The reader accepts the grammar

The reader takes every part of an expression as far as it goes, so a derived text is read only because nothing
that may stand behind a part can be mistaken for more of it.  What may stand behind a part is a few characters
(`GoesOnWith`): no part starts with one that may follow the part in front of it.  With this each step gives back
the part that the derivation has there (`Gives`), and a text that derives an expression is read as this expression
(`read_of_derives`).  Together with the other direction the reader decides the grammar (`read_iff_derives`).
-/

namespace EntitySchema

open Text (units IsBlanks)

namespace TypeExpr

/-! ### What may stand behind a part -/

/-- The first character behind the white space at the start of a text is one of the given ones, if there is one. -/
def GoesOnWith (chars : List Char) (cs : List Char) : Prop :=
  ∀ c ∈ (cs.dropWhile Text.isBlank).head?, c ∈ chars

/-- What may stand behind an expression within a text: a comma, a closing bracket, or nothing. -/
def closers : List Char :=
  [',', '>']

section GoesOnWith

variable {chars cs : List Char}

lemma goesOnWith_append_iff {blanks : List Char} (h : IsBlanks blanks) :
    GoesOnWith chars (blanks ++ cs) ↔ GoesOnWith chars cs := by
  rw [GoesOnWith, List.dropWhile_append_of_pos h, GoesOnWith]

lemma goesOnWith_cons {c : Char} (hblank : Text.isBlank c = false) (hc : c ∈ chars) : GoesOnWith chars (c :: cs) := by
  intro d hd
  rw [List.dropWhile_cons_of_neg (by simp [hblank])] at hd
  rwa [← Option.some.inj hd]

lemma GoesOnWith.mono {chars' : List Char} (h : GoesOnWith chars cs) (hchars : chars ⊆ chars') :
    GoesOnWith chars' cs :=
  fun c hc => hchars (h c hc)

lemma GoesOnWith.head (h : GoesOnWith chars cs) : ∀ c ∈ cs.head?, Text.isBlank c = true ∨ c ∈ chars := by
  intro c hc
  cases cs with
  | nil => cases hc
  | cons d cs =>
    obtain rfl : d = c := Option.some.inj hc
    by_cases hblank : Text.isBlank d = true
    · exact .inl hblank
    · refine .inr (h d ?_)
      rw [List.dropWhile_cons_of_neg hblank]
      rfl

end GoesOnWith

lemma isNamePart_bounds {c : Char} (h : isNamePart c = true) : 0x30 ≤ c.toNat ∧ c.toNat ≤ 0x7A := by
  have hle : ∀ a b : Char, a ≤ b ↔ a.toNat ≤ b.toNat := fun a b => Iff.rfl
  simp only [isNamePart, isNameStart, Number.isDigit, Bool.or_eq_true, Bool.and_eq_true, decide_eq_true_eq, beq_iff_eq,
    hle] at h
  rcases h with ((h | h) | rfl) | h
  · exact ⟨Nat.le_trans (by decide) h.1, Nat.le_trans h.2 (by decide)⟩
  · exact ⟨Nat.le_trans (by decide) h.1, Nat.le_trans h.2 (by decide)⟩
  · decide
  · exact ⟨h.1, Nat.le_trans h.2 (by decide)⟩

lemma isBlank_of_isNamePart {c : Char} (h : isNamePart c = true) : Text.isBlank c = false := by
  obtain ⟨hlow, hhigh⟩ := isNamePart_bounds h
  simp only [Text.isBlank, Bool.or_eq_false_iff, Bool.and_eq_false_iff, decide_eq_false_iff_not, beq_eq_false_iff_ne]
  omega

lemma isNamePart_of_isDigit {c : Char} (h : Number.isDigit c = true) : isNamePart c = true := by
  rw [isNamePart, h, Bool.or_true]

lemma IsName.isNamePart {cs : List Char} (h : IsName cs) : ∀ c ∈ cs, TypeExpr.isNamePart c = true := by
  obtain ⟨c, rest, rfl, hstart, hpart⟩ := h
  refine List.forall_mem_cons.mpr ⟨?_, hpart⟩
  rw [TypeExpr.isNamePart, hstart, Bool.true_or]

/-- What ends with the last character of a kind is taken as a whole. -/
lemma takeWhile_append {p : Char → Bool} {cs rest : List Char} (hcs : ∀ c ∈ cs, p c = true)
    (hrest : ∀ c ∈ rest.head?, p c = false) : (cs ++ rest).takeWhile p = cs := by
  rw [List.takeWhile_append_of_pos hcs]
  cases rest with
  | nil => simp
  | cons c rest => simp [hrest c rfl]

/-- The name at the start of a text ends where no name can go on. -/
lemma nameAt_append {name rest : List Char} (hname : IsName name) (hrest : ∀ c ∈ rest.head?, isNamePart c = false) :
    nameAt (name ++ rest) = name := by
  obtain ⟨c, cs, rfl, hstart, hpart⟩ := hname
  rw [List.cons_append, nameAt, if_pos hstart, takeWhile_append hpart hrest]

/-- A name with no colon behind it is not the word in front of the alias of a module. -/
lemma not_modulePrefix {name rest : List Char} (hname : IsName name)
    (hrest : ∀ c ∈ rest.head?, isNamePart c = false ∧ c ≠ ':') : ¬ modulePrefixWord <+: name ++ rest := by
  rintro ⟨behind, hbehind⟩
  have hword : modulePrefixWord ++ behind = "module".toList ++ ':' :: behind := rfl
  have hmodule : IsName "module".toList := by decide
  have htake := takeWhile_append hname.isNamePart fun c hc => (hrest c hc).1
  rw [← hbehind, hword, takeWhile_append hmodule.isNamePart fun c hc => by rw [← Option.some.inj hc]; decide] at htake
  rw [← htake, hword] at hbehind
  have hcolon := List.append_cancel_left hbehind
  exact (hrest ':' (by rw [← hcolon]; rfl)).2 rfl

/-- A module and a name start with a character of a name. -/
lemma exists_first_of_name {as name ds : List Char} {moduleAlias : Option String} (halias : AliasPart as moduleAlias)
    (hname : IsName name) : ∃ c cs, as ++ name ++ ds = c :: cs ∧ isNamePart c = true := by
  cases halias with
  | absent =>
    obtain ⟨c, rest, rfl, -⟩ := id hname
    exact ⟨c, rest ++ ds, rfl, hname.isNamePart c List.mem_cons_self⟩
  | present => exact ⟨'m', _, rfl, by decide⟩

/-- A text that goes on with a question mark or what may stand behind it. -/
lemma MarkPart.goesOnWith {qs rest : List Char} {nullable : Bool} (h : MarkPart qs nullable)
    (hrest : GoesOnWith closers rest) : GoesOnWith ('?' :: closers) (qs ++ rest) := by
  cases h with
  | absent => exact hrest.mono (List.subset_cons_self _ _)
  | present hbefore =>
    rw [List.append_assoc, goesOnWith_append_iff hbefore]
    exact goesOnWith_cons (by decide) List.mem_cons_self

/-- A text that goes on with arguments or what may stand behind them. -/
lemma DerivesArguments.goesOnWith {offset : Nat} {gs rest : List Char} {generics : List TypeExpr}
    (h : DerivesArguments offset gs generics) (hrest : GoesOnWith ('?' :: closers) rest) :
    GoesOnWith ('<' :: '?' :: closers) (gs ++ rest) := by
  cases h with
  | absent => exact hrest.mono (List.subset_cons_self _ _)
  | present hbefore _ =>
    rw [List.append_assoc, List.append_assoc, goesOnWith_append_iff hbefore]
    exact goesOnWith_cons (by decide) List.mem_cons_self

/-- A text that goes on with a dimension or what may stand behind it. -/
lemma DimensionPart.goesOnWith {ds rest : List Char} {dimension : Option Number} (h : DimensionPart ds dimension)
    (hrest : GoesOnWith ('<' :: '?' :: closers) rest) : GoesOnWith ('(' :: '<' :: '?' :: closers) (ds ++ rest) := by
  cases h with
  | absent => exact hrest.mono (List.subset_cons_self _ _)
  | present hbefore _ =>
    rw [List.append_assoc, goesOnWith_append_iff hbefore]
    exact goesOnWith_cons (by decide) List.mem_cons_self

/-- Nothing that may stand behind a name is part of it, or a colon. -/
lemma GoesOnWith.ends_name {cs : List Char} (h : GoesOnWith ('(' :: '<' :: '?' :: closers) cs) :
    ∀ c ∈ cs.head?, isNamePart c = false ∧ c ≠ ':' := by
  have hchars : ('(' :: '<' :: '?' :: closers).all (fun c => !isNamePart c && c != ':') = true := by decide
  intro c hc
  rcases h.head c hc with hblank | hmem
  · refine ⟨?_, ?_⟩
    · by_contra hpart
      rw [Bool.not_eq_false] at hpart
      rw [isBlank_of_isNamePart hpart] at hblank
      cases hblank
    · rintro rfl
      exact absurd hblank (by decide)
  · simpa using List.all_eq_true.mp hchars c hmem

/-! ### Moving through a known text -/

namespace Cursor

variable {c c' c'' : Cursor} {cs ds : List Char}

/-- There is a cursor between two texts. -/
lemma Passes.exists_between (h : c.Passes (cs ++ ds) c'') : ∃ c', c.Passes cs c' ∧ c'.Passes ds c'' := by
  refine ⟨⟨c.offset + units cs, ds ++ c''.rest⟩, ⟨?_, rfl⟩, ⟨rfl, ?_⟩⟩
  · rw [h.rest, List.append_assoc]
  · rw [h.offset, Text.units_append, Nat.add_assoc]

lemma Passes.exists_behind {ch : Char} (h : c.Passes (ch :: cs) c'') : ∃ c', c.Passes [ch] c' ∧ c'.Passes cs c'' := by
  have hsplit : c.Passes ([ch] ++ cs) c'' := h
  exact hsplit.exists_between

/-- The text between two cursors determines the second one. -/
lemma Passes.eq (h : c.Passes cs c') (h' : c.Passes cs c'') : c' = c'' := by
  have hrest : c'.rest = c''.rest := List.append_cancel_left (h.rest.symm.trans h'.rest)
  have hoffset : c'.offset = c''.offset := h.offset.trans h'.offset.symm
  cases c'
  cases c''
  exact congrArg₂ Cursor.mk hoffset hrest

lemma Passes.advance_eq (h : c.Passes cs c') : c.advance cs.length = c' :=
  (passes_advance ⟨c'.rest, h.rest.symm⟩).eq h

lemma Passes.sees {ch : Char} (h : c.Passes (ch :: cs) c') : c.sees ch = true := by
  rw [Cursor.sees, h.rest]
  simp

/-- The character at the first of two cursors. -/
lemma Passes.isBlank_head {ch : Char} (h : c.Passes (ch :: cs) c') (hblank : Text.isBlank ch = false) :
    ∀ d ∈ c.rest.head?, Text.isBlank d = false := by
  intro d hd
  rw [h.rest] at hd
  rwa [← Option.some.inj hd]

/-- White space that is passed by hand need not be skipped. -/
lemma Passes.skipBlanks_eq (h : c.Passes cs c') (hblanks : IsBlanks cs) : c.skipBlanks = c'.skipBlanks := by
  obtain ⟨blanks, -, hskip⟩ := c'.exists_passes_skipBlanks
  have hlength : c.rest.takeWhile Text.isBlank = cs ++ c'.rest.takeWhile Text.isBlank := by
    rw [h.rest, List.takeWhile_append_of_pos hblanks]
  have hwhole := h.trans (passes_advance (List.takeWhile_prefix Text.isBlank (l := c'.rest)))
  rw [skipBlanks, hlength, hwhole.advance_eq, skipBlanks]

lemma skipBlanks_eq_self (h : ∀ ch ∈ c.rest.head?, Text.isBlank ch = false) : c.skipBlanks = c := by
  have hnone : c.rest.takeWhile Text.isBlank = [] := by
    rw [← List.nil_append c.rest]
    exact takeWhile_append (by simp) h
  rw [skipBlanks, hnone]
  exact (Passes.refl c).advance_eq

/-- White space is skipped up to a character that is none. -/
lemma Passes.skipBlanks_of_head (h : c.Passes cs c') (hblanks : IsBlanks cs)
    (hhead : ∀ ch ∈ c'.rest.head?, Text.isBlank ch = false) : c.skipBlanks = c' := by
  rw [h.skipBlanks_eq hblanks, skipBlanks_eq_self hhead]

lemma skipBlanks_skipBlanks (c : Cursor) : c.skipBlanks.skipBlanks = c.skipBlanks := by
  obtain ⟨blanks, hblanks, hskip⟩ := c.exists_passes_skipBlanks
  exact (hskip.skipBlanks_eq hblanks).symm

lemma rest_skipBlanks (c : Cursor) : c.skipBlanks.rest = c.rest.dropWhile Text.isBlank := by
  have hsplit := (passes_advance (List.takeWhile_prefix Text.isBlank (l := c.rest))).rest
  exact List.append_cancel_left (hsplit.symm.trans List.takeWhile_append_dropWhile.symm)

/-- A character that the text does not go on with is not seen. -/
lemma sees_skipBlanks_eq_false {chars : List Char} {ch : Char} (h : GoesOnWith chars c.rest) (hch : ch ∉ chars) :
    c.skipBlanks.sees ch = false := by
  rw [Cursor.sees, rest_skipBlanks, beq_eq_false_iff_ne]
  exact fun hhead => hch (h ch hhead)

end Cursor

/-- A step gives a result and the cursor behind what it has read. -/
def Gives {α : Type} {p : α × Cursor → Prop} (result : Except TypeExprError { r : α × Cursor // p r }) (a : α)
    (c : Cursor) : Prop :=
  ∃ hp, result = .ok ⟨(a, c), hp⟩

section Gives

variable {α : Type} {p : α × Cursor → Prop} {result : Except TypeExprError { r : α × Cursor // p r }} {a : α}
  {c : Cursor}

lemma Gives.ne_error (h : Gives result a c) {e : TypeExprError} : result ≠ .error e := by
  obtain ⟨hp, rfl⟩ := h
  exact fun h => by cases h

lemma Gives.eq_of_ok (h : Gives result a c) {b : α} {c' : Cursor} {hp : p (b, c')}
    (hresult : result = .ok ⟨(b, c'), hp⟩) : b = a ∧ c' = c := by
  obtain ⟨hp', rfl⟩ := h
  cases hresult
  exact ⟨rfl, rfl⟩

lemma gives_ok {r : { r : α × Cursor // p r }} (h : r.1 = (a, c)) :
    Gives (.ok r : Except TypeExprError { r : α × Cursor // p r }) a c := by
  obtain ⟨_, hp⟩ := r
  obtain rfl : _ = (a, c) := h
  exact ⟨hp, rfl⟩

end Gives

section Steps

variable {c c' : Cursor}

lemma gives_takeWord {word : List Char} (h : c.Passes word c') (hne : word ≠ []) (fault : TypeExprFault) :
    Gives (takeWord c word fault) (String.ofList word) c' := by
  have hword := List.length_pos_of_ne_nil hne
  have hrest : 0 < c.rest.length := by
    rw [h.rest, List.length_append]
    omega
  unfold takeWord
  rw [dif_pos ⟨hword, hrest⟩]
  obtain rfl := h.advance_eq
  exact ⟨_, rfl⟩

lemma gives_takeChar {ch : Char} (h : c.Passes [ch] c') (fault : TypeExprFault) :
    Gives (takeChar c ch fault) () c' := by
  unfold takeChar
  rw [dif_pos h.sees]
  obtain rfl := h.advance_eq
  exact ⟨_, rfl⟩

lemma gives_name {name : List Char} (h : c.Passes name c') (hname : IsName name)
    (hrest : ∀ ch ∈ c'.rest.head?, isNamePart ch = false) (fault : TypeExprFault) :
    Gives (takeWord c (nameAt c.rest) fault) (String.ofList name) c' := by
  have hne : name ≠ [] := by
    obtain ⟨ch, cs, rfl, -⟩ := hname
    exact List.cons_ne_nil _ _
  have hnameAt : nameAt c.rest = name := by rw [h.rest, nameAt_append hname hrest]
  rw [hnameAt]
  exact gives_takeWord h hne fault

/-- The alias of a module is taken in front of a name with no colon behind it. -/
lemma gives_takeAlias {as name rest : List Char} {moduleAlias : Option String} (h : c.Passes as c')
    (halias : AliasPart as moduleAlias) (hrest : c'.rest = name ++ rest) (hname : IsName name)
    (hbehind : ∀ ch ∈ rest.head?, isNamePart ch = false ∧ ch ≠ ':') : Gives (takeAlias c) moduleAlias c' := by
  cases halias with
  | absent =>
    obtain rfl := h.eq (.refl c)
    have hword : ¬ modulePrefixWord.isPrefixOf c'.rest = true := by
      rw [List.isPrefixOf_iff_prefix, hrest]
      exact not_modulePrefix hname hbehind
    unfold takeAlias
    rw [if_neg hword]
    exact ⟨_, rfl⟩
  | @present word hword =>
    obtain ⟨c₂, h₂, hcolon⟩ := h.exists_between
    obtain ⟨c₁, hmodule, hpasses⟩ := h₂.exists_between
    have hstarts : modulePrefixWord.isPrefixOf c.rest = true :=
      List.isPrefixOf_iff_prefix.mpr ⟨_, hmodule.rest.symm⟩
    have hcolonHead : ∀ ch ∈ c₂.rest.head?, TypeExpr.isNamePart ch = false := by
      intro ch hch
      rw [hcolon.rest] at hch
      rw [← Option.some.inj hch]
      decide
    unfold takeAlias
    rw [if_pos hstarts]
    dsimp only
    obtain rfl := hmodule.advance_eq
    split
    · rename_i e hresult
      exact absurd hresult (gives_name hpasses hword hcolonHead _).ne_error
    · rename_i w c₃ h₃ hresult
      obtain ⟨rfl, rfl⟩ := (gives_name hpasses hword hcolonHead _).eq_of_ok hresult
      split
      · rename_i e hresult
        exact absurd hresult (gives_takeChar hcolon _).ne_error
      · rename_i c₄ h₄ hresult
        obtain ⟨-, rfl⟩ := (gives_takeChar hcolon _).eq_of_ok hresult
        exact ⟨_, rfl⟩

/-- A dimension is taken up to its closing bracket. -/
lemma gives_takeDimension {inside : List Char} {d : Number} (h : c.Passes inside c')
    (hinside : DimensionInside inside d) (name : String) : Gives (takeDimension name c) d c' := by
  cases hinside with
  | @intro before digits after hbefore hdigits hafter =>
  obtain ⟨c₃, h₃, hclose⟩ := h.exists_between
  obtain ⟨c₂, h₂, hskip'⟩ := h₃.exists_between
  obtain ⟨c₁, hskip, hpasses⟩ := h₂.exists_between
  have hfirst : ∀ ch ∈ c₁.rest.head?, Text.isBlank ch = false := by
    obtain ⟨hne, hall⟩ := hdigits
    intro ch hch
    cases digits with
    | nil => exact absurd rfl hne
    | cons digit digits =>
      rw [hpasses.rest] at hch
      obtain rfl : digit = ch := Option.some.inj hch
      exact isBlank_of_isNamePart (isNamePart_of_isDigit (hall _ List.mem_cons_self))
  have hbehind : ∀ ch ∈ c₂.rest.head?, Number.isDigit ch = false := by
    intro ch hch
    have hgoesOn : GoesOnWith [')'] c₂.rest := by
      rw [hskip'.rest, goesOnWith_append_iff hafter, hclose.rest]
      exact goesOnWith_cons (by decide) (by decide)
    rcases hgoesOn.head ch hch with hblank | hch
    · by_contra hdigit
      rw [Bool.not_eq_false] at hdigit
      rw [isBlank_of_isNamePart (isNamePart_of_isDigit hdigit)] at hblank
      cases hblank
    · rw [List.mem_singleton.mp hch]
      decide
  obtain rfl := hskip.skipBlanks_of_head hbefore hfirst
  obtain rfl := hskip'.skipBlanks_of_head hafter (hclose.isBlank_head (by decide))
  have htake : c.skipBlanks.rest.takeWhile Number.isDigit = digits := by
    rw [hpasses.rest, takeWhile_append hdigits.2 hbehind]
  have hword : Gives (takeWord c.skipBlanks (c.skipBlanks.rest.takeWhile Number.isDigit) (.missingDimension name))
      (String.ofList digits) c₂ := by
    rw [htake]
    exact gives_takeWord hpasses hdigits.1 _
  unfold takeDimension
  dsimp only
  split
  · rename_i e hresult
    exact absurd hresult hword.ne_error
  · rename_i w c₄ h₄ hresult
    obtain ⟨-, rfl⟩ := hword.eq_of_ok hresult
    split
    · rename_i e hresult
      exact absurd hresult (gives_takeChar hclose _).ne_error
    · rename_i c₅ h₅ hresult
      obtain ⟨-, rfl⟩ := (gives_takeChar hclose _).eq_of_ok hresult
      rw [htake, ofDecimal_zero]
      exact ⟨_, rfl⟩

/-- The parts in front of the arguments are taken, and the white space behind them is skipped. -/
lemma gives_takeHead {c₁ c₂ : Cursor} {before as name ds : List Char} {moduleAlias : Option String}
    {dimension : Option Number} (hskip : c.Passes before c₁) (hbefore : IsBlanks before)
    (halias : AliasPart as moduleAlias) (hname : IsName name) (hdimension : DimensionPart ds dimension)
    (h : c₁.Passes (as ++ name ++ ds) c₂) (hgoesOn : GoesOnWith ('<' :: '?' :: closers) c₂.rest) :
    Gives (takeHead c) ⟨moduleAlias, String.ofList name, dimension, c₁.offset, c₂.offset⟩ c₂.skipBlanks := by
  obtain ⟨c₄, h₄, hpassesDimension⟩ := h.exists_between
  obtain ⟨c₃, hpassesAlias, hpassesName⟩ := h₄.exists_between
  have hfirst : ∀ ch ∈ c₁.rest.head?, Text.isBlank ch = false := by
    obtain ⟨first, cs, hcs, hpart⟩ := exists_first_of_name halias hname
    intro ch hch
    rw [h.rest, hcs] at hch
    obtain rfl : first = ch := Option.some.inj hch
    exact isBlank_of_isNamePart hpart
  have hbehind : ∀ ch ∈ c₄.rest.head?, isNamePart ch = false ∧ ch ≠ ':' := by
    rw [hpassesDimension.rest]
    exact (hdimension.goesOnWith hgoesOn).ends_name
  obtain rfl := hskip.skipBlanks_of_head hbefore hfirst
  have hgivesAlias := gives_takeAlias hpassesAlias halias hpassesName.rest hname hbehind
  have hgivesName := gives_name hpassesName hname (fun ch hch => (hbehind ch hch).1) .missingName
  unfold takeHead
  dsimp only
  split
  · rename_i e hresult
    exact absurd hresult hgivesAlias.ne_error
  rename_i a c₅ h₅ hresult
  obtain ⟨rfl, rfl⟩ := hgivesAlias.eq_of_ok hresult
  split
  · rename_i e hresult
    exact absurd hresult hgivesName.ne_error
  rename_i w c₆ h₆ hresult
  obtain ⟨rfl, rfl⟩ := hgivesName.eq_of_ok hresult
  cases hdimension with
  | absent =>
    obtain rfl := hpassesDimension.eq (.refl _)
    have hopen : Cursor.sees _ '(' = false := Cursor.sees_skipBlanks_eq_false hgoesOn (by decide)
    rw [dif_neg (by rw [hopen]; decide)]
    exact ⟨_, rfl⟩
  | @present blanks inside d hblanks hinside =>
    obtain ⟨c₇, hskip', hrest⟩ := hpassesDimension.exists_between
    obtain ⟨c₈, hopen, hpassesInside⟩ := hrest.exists_behind
    obtain rfl := hskip'.skipBlanks_of_head hblanks (hopen.isBlank_head (by decide))
    obtain rfl := hopen.advance_eq
    have hgives := gives_takeDimension hpassesInside hinside (String.ofList name)
    rw [dif_pos hopen.sees]
    split
    · rename_i e hresult
      exact absurd hresult hgives.ne_error
    · rename_i d' c₉ h₉ hresult
      obtain ⟨rfl, rfl⟩ := hgives.eq_of_ok hresult
      exact ⟨_, rfl⟩

/-- The question mark is taken if there is one, and else the white space in front of it is left behind. -/
lemma exists_finish {c₁ c₂ : Cursor} {qs : List Char} {nullable : Bool} (h : c₁.Passes qs c₂)
    (hmark : MarkPart qs nullable) (hgoesOn : GoesOnWith closers c₂.rest) (head : Head) (generics : List TypeExpr) :
    ∃ c', (finish head generics c₁.offset c₁.skipBlanks).1 =
        (⟨head.name, head.moduleAlias, nullable, head.dimension, generics, head.start, c₂.offset⟩, c') ∧
      c'.skipBlanks = c₂.skipBlanks := by
  cases hmark with
  | absent =>
    obtain rfl := h.eq (.refl _)
    have hmark : Cursor.sees _ '?' = false := Cursor.sees_skipBlanks_eq_false hgoesOn (by decide)
    refine ⟨_, ?_, Cursor.skipBlanks_skipBlanks _⟩
    rw [finish, if_neg (by rw [hmark]; decide)]
  | present hbefore =>
    obtain ⟨c₃, hskip, hlast⟩ := h.exists_between
    obtain rfl := hskip.skipBlanks_of_head hbefore (hlast.isBlank_head (by decide))
    obtain rfl := hlast.advance_eq
    refine ⟨_, ?_, rfl⟩
    rw [finish, if_pos hlast.sees, hlast.offset]
    rfl

/-- Without arguments an expression ends behind the question mark. -/
lemma exists_gives_takeType_plain {c₁ c₂ : Cursor} {qs : List Char} {nullable : Bool} {head : Head}
    (hhead : Gives (takeHead c) head c₁.skipBlanks) (hstop : head.stop = c₁.offset) (hmark : MarkPart qs nullable)
    (h : c₁.Passes qs c₂) (hgoesOn : GoesOnWith closers c₂.rest) :
    ∃ c', Gives (takeType c)
        ⟨head.name, head.moduleAlias, nullable, head.dimension, [], head.start, c₂.offset⟩ c' ∧
      c'.skipBlanks = c₂.skipBlanks := by
  have hrest : GoesOnWith ('?' :: closers) c₁.rest := by
    rw [h.rest]
    exact hmark.goesOnWith hgoesOn
  have hopen : c₁.skipBlanks.sees '<' = false := Cursor.sees_skipBlanks_eq_false hrest (by decide)
  obtain ⟨c', hfinish, hskip⟩ := exists_finish h hmark hgoesOn head []
  refine ⟨c', ?_, hskip⟩
  unfold takeType
  split
  · rename_i e hresult
    exact absurd hresult hhead.ne_error
  rename_i head' c₃ h₃ hresult
  obtain ⟨rfl, rfl⟩ := hhead.eq_of_ok hresult
  rw [dif_neg (by rw [hopen]; decide)]
  rw [← hstop] at hfinish
  exact gives_ok hfinish

/-- With arguments too. -/
lemma exists_gives_takeType_applied {c₁ c₂ c₃ c₄ c₅ : Cursor} {qs : List Char} {nullable : Bool} {head : Head}
    {generics : List TypeExpr} (hhead : Gives (takeHead c) head c₁) (hopen : c₁.Passes ['<'] c₂)
    (hgenerics : Gives (takeTypes c₂) generics c₃) (hclose : c₃.Passes ['>'] c₄) (hmark : MarkPart qs nullable)
    (h : c₄.Passes qs c₅) (hgoesOn : GoesOnWith closers c₅.rest) :
    ∃ c', Gives (takeType c)
        ⟨head.name, head.moduleAlias, nullable, head.dimension, generics, head.start, c₅.offset⟩ c' ∧
      c'.skipBlanks = c₅.skipBlanks := by
  obtain ⟨c', hfinish, hskip⟩ := exists_finish h hmark hgoesOn head generics
  refine ⟨c', ?_, hskip⟩
  obtain rfl := hopen.advance_eq
  unfold takeType
  split
  · rename_i e hresult
    exact absurd hresult hhead.ne_error
  rename_i head' c₆ h₆ hresult
  obtain ⟨rfl, rfl⟩ := hhead.eq_of_ok hresult
  rw [dif_pos hopen.sees]
  dsimp only
  split
  · rename_i e hresult
    exact absurd hresult hgenerics.ne_error
  rename_i es c₇ h₇ hresult
  obtain ⟨rfl, rfl⟩ := hgenerics.eq_of_ok hresult
  split
  · rename_i e hresult
    exact absurd hresult (gives_takeChar hclose _).ne_error
  rename_i c₈ h₈ hresult
  obtain ⟨-, rfl⟩ := (gives_takeChar hclose _).eq_of_ok hresult
  exact gives_ok hfinish

/-- One expression is taken as a list of one if no comma follows. -/
lemma gives_takeTypes_one {c₁ c₂ : Cursor} {e : TypeExpr} (h : Gives (takeType c) e c₁)
    (hskip : c₁.skipBlanks = c₂.skipBlanks) (hgoesOn : GoesOnWith ['>'] c₂.rest) :
    Gives (takeTypes c) [e] c₂.skipBlanks := by
  have hcomma : c₂.skipBlanks.sees ',' = false := Cursor.sees_skipBlanks_eq_false hgoesOn (by decide)
  unfold takeTypes
  split
  · rename_i e hresult
    exact absurd hresult h.ne_error
  rename_i e' c₃ h₃ hresult
  obtain ⟨rfl, rfl⟩ := h.eq_of_ok hresult
  dsimp only
  rw [dif_neg (by rw [hskip, hcomma]; decide), ← hskip]
  exact ⟨_, rfl⟩

/-- Behind a comma more expressions are taken. -/
lemma gives_takeTypes_more {c₁ c₂ c₃ c₄ : Cursor} {e : TypeExpr} {es : List TypeExpr} (h : Gives (takeType c) e c₁)
    (hskip : c₁.skipBlanks = c₂) (hcomma : c₂.Passes [','] c₃) (hrest : Gives (takeTypes c₃) es c₄) :
    Gives (takeTypes c) (e :: es) c₄ := by
  obtain rfl := hskip
  obtain rfl := hcomma.advance_eq
  unfold takeTypes
  split
  · rename_i e hresult
    exact absurd hresult h.ne_error
  rename_i e' c₅ h₅ hresult
  obtain ⟨rfl, rfl⟩ := h.eq_of_ok hresult
  dsimp only
  rw [dif_pos hcomma.sees]
  split
  · rename_i e hresult
    exact absurd hresult hrest.ne_error
  · rename_i es' c₆ h₆ hresult
    obtain ⟨rfl, rfl⟩ := hrest.eq_of_ok hresult
    exact ⟨_, rfl⟩

mutual

/-- An expression is taken from its text. -/
theorem Derives.gives {c c₁ c₂ : Cursor} {offset : Nat} {before body : List Char} {e : TypeExpr}
    (hoffset : offset = c₁.offset) (hskip : c.Passes before c₁) (hbefore : IsBlanks before) (hbody : c₁.Passes body c₂)
    (hgoesOn : GoesOnWith closers c₂.rest) :
    Derives offset body e → ∃ c', Gives (takeType c) e c' ∧ c'.skipBlanks = c₂.skipBlanks
  | @Derives.intro _ as name ds _ _ _ _ _ _ halias hname hdimension hgenerics hmark => by
    obtain ⟨c₄, h₄, hpassesMark⟩ := hbody.exists_between
    obtain ⟨c₃, hhead, hpassesArguments⟩ := h₄.exists_between
    have hmarked : GoesOnWith ('?' :: closers) c₄.rest := by
      rw [hpassesMark.rest]
      exact hmark.goesOnWith hgoesOn
    have happlied : GoesOnWith ('<' :: '?' :: closers) c₃.rest := by
      rw [hpassesArguments.rest]
      exact hgenerics.goesOnWith hmarked
    have hgives := gives_takeHead hskip hbefore halias hname hdimension hhead happlied
    have hinside : offset + units (as ++ name ++ ds) = c₃.offset := by rw [hhead.offset, hoffset]
    have harguments := DerivesArguments.gives hinside hgives rfl hpassesArguments hmark hpassesMark hgoesOn hgenerics
    rw [hbody.offset, ← hoffset] at harguments
    exact harguments
termination_by structural h => h

theorem DerivesArguments.gives {c c₁ c₂ c₃ : Cursor} {offset : Nat} {gs qs : List Char} {generics : List TypeExpr}
    {nullable : Bool} {head : Head} (hoffset : offset = c₁.offset) (hhead : Gives (takeHead c) head c₁.skipBlanks)
    (hstop : head.stop = c₁.offset) (harguments : c₁.Passes gs c₂) (hmark : MarkPart qs nullable)
    (h : c₂.Passes qs c₃) (hgoesOn : GoesOnWith closers c₃.rest) :
    DerivesArguments offset gs generics → ∃ c', Gives (takeType c)
        ⟨head.name, head.moduleAlias, nullable, head.dimension, generics, head.start, c₃.offset⟩ c' ∧
      c'.skipBlanks = c₃.skipBlanks
  | .absent => by
    obtain rfl := harguments.eq (.refl _)
    exact exists_gives_takeType_plain hhead hstop hmark h hgoesOn
  | .present hblanks hinside => by
    obtain ⟨c₇, h₇, hclose⟩ := harguments.exists_between
    obtain ⟨c₅, hskip, h₆⟩ := h₇.exists_between
    obtain ⟨c₆, hopen, hpassesInside⟩ := h₆.exists_behind
    obtain rfl := hskip.skipBlanks_of_head hblanks (hopen.isBlank_head (by decide))
    have hbehind : GoesOnWith ['>'] c₇.rest := by
      rw [hclose.rest]
      exact goesOnWith_cons (by decide) List.mem_cons_self
    have hgenerics := DerivesAll.gives (by rw [hopen.offset, hskip.offset, hoffset]; rfl) hpassesInside hbehind hinside
    rw [Cursor.skipBlanks_eq_self (hclose.isBlank_head (by decide))] at hgenerics
    exact exists_gives_takeType_applied hhead hopen hgenerics hclose hmark h hgoesOn
termination_by structural h => h

theorem DerivesAll.gives {c c' : Cursor} {offset : Nat} {cs : List Char} {es : List TypeExpr}
    (hoffset : offset = c.offset) (hpasses : c.Passes cs c') (hgoesOn : GoesOnWith ['>'] c'.rest) :
    DerivesAll offset cs es → Gives (takeTypes c) es c'.skipBlanks
  | .one h => by
    obtain ⟨c₁, hgives, hskip⟩ := DerivesSpaced.gives hoffset hpasses (hgoesOn.mono (by decide)) h
    exact gives_takeTypes_one hgives hskip hgoesOn
  | .more h hrest => by
    obtain ⟨c₂, hfirst, h₃⟩ := hpasses.exists_between
    obtain ⟨c₃, hcomma, hpassesRest⟩ := h₃.exists_behind
    have hbehind : GoesOnWith closers c₂.rest := by
      rw [hcomma.rest]
      exact goesOnWith_cons (by decide) List.mem_cons_self
    obtain ⟨c₁, hgives, hskip⟩ := DerivesSpaced.gives hoffset hfirst hbehind h
    rw [Cursor.skipBlanks_eq_self (hcomma.isBlank_head (by decide))] at hskip
    have hmore := DerivesAll.gives (by rw [hcomma.offset, hfirst.offset, hoffset]; rfl) hpassesRest hgoesOn hrest
    exact gives_takeTypes_more hgives hskip hcomma hmore
termination_by structural h => h

theorem DerivesSpaced.gives {c c' : Cursor} {offset : Nat} {cs : List Char} {e : TypeExpr}
    (hoffset : offset = c.offset) (hpasses : c.Passes cs c') (hgoesOn : GoesOnWith closers c'.rest) :
    DerivesSpaced offset cs e → ∃ c'', Gives (takeType c) e c'' ∧ c''.skipBlanks = c'.skipBlanks
  | .intro hbefore h hafter => by
    obtain ⟨c₂, h₂, hskip'⟩ := hpasses.exists_between
    obtain ⟨c₁, hskip, hbody⟩ := h₂.exists_between
    have hbehind : GoesOnWith closers c₂.rest := by
      rw [hskip'.rest, goesOnWith_append_iff hafter]
      exact hgoesOn
    rw [← hskip'.skipBlanks_eq hafter]
    exact Derives.gives (by rw [hskip.offset, hoffset]) hskip hbefore hbody hbehind h
termination_by structural h => h

end

end Steps

/-- A text that derives an expression is read as this expression. -/
lemma read_of_derives {text : String} {e : TypeExpr} (h : DerivesSpaced 0 text.toList e) : read text = .ok e := by
  have hpasses : Cursor.Passes ⟨0, text.toList⟩ text.toList ⟨units text.toList, []⟩ :=
    ⟨(List.append_nil _).symm, (Nat.zero_add _).symm⟩
  obtain ⟨c, hgives, hskip⟩ := h.gives rfl hpasses (fun c hc => by cases hc)
  have hend : c.skipBlanks.rest = [] := by
    rw [hskip, Cursor.rest_skipBlanks]
    rfl
  unfold read
  dsimp only
  split
  · rename_i e hresult
    exact absurd hresult hgives.ne_error
  · rename_i e' c' h' hresult
    obtain ⟨rfl, rfl⟩ := hgives.eq_of_ok hresult
    rw [hend]
    rfl

lemma read_ofList {cs : List Char} {e : TypeExpr} (h : DerivesSpaced 0 cs e) : read (String.ofList cs) = .ok e := by
  rw [← String.toList_ofList (l := cs)] at h
  exact read_of_derives h

/-- Reading succeeds for the texts of the grammar and gives their only derivation; any other text has an error at a
place inside of it. -/
theorem read_iff_derives (text : String) :
    (∀ e, read text = .ok e ↔ DerivesSpaced 0 text.toList e) ∧
      (∀ e e', DerivesSpaced 0 text.toList e → DerivesSpaced 0 text.toList e' → e = e') ∧
      ((¬ ∃ e, DerivesSpaced 0 text.toList e) →
        ∃ error, read text = .error error ∧ error.start ≤ error.stop ∧ error.stop ≤ units text.toList) := by
  refine ⟨fun e => ⟨derives_of_read, read_of_derives⟩, fun e e' h h' => ?_, fun hnone => ?_⟩
  · have heq : Except.ok e = (Except.ok e' : Except TypeExprError TypeExpr) :=
      (read_of_derives h).symm.trans (read_of_derives h')
    exact Except.ok.inj heq
  · cases hread : read text with
    | ok e => exact (hnone ⟨e, derives_of_read hread⟩).elim
    | error error => exact ⟨error, rfl, located_of_read hread⟩

end TypeExpr

end EntitySchema
