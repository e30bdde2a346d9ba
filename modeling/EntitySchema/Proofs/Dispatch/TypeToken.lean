import Mathlib.Data.List.Basic
import Mathlib.Data.List.TakeWhile
import Mathlib.Tactic.Common
import EntitySchema.Dispatch.TypeToken
import EntitySchema.Entity.Naming

/-!
# The text of a type token

The text of a token is its name, the texts of its arguments in brackets with commas between them, and its
question mark (`toList_text_plain`, `toList_text_applied`).  What is taken from a text is a token whose names
all are names (`Named`), and its text stands where it was taken (`taken_of_length_le`).  Where no more of a
token can follow, a token is taken from its text (`takeToken_text`).  So, apart from white space, the text of
a token is the only one that is read as that token (`read?_text`, `named_of_read?`).
-/

namespace EntitySchema

namespace TypeToken

/-- What holds of a token if it holds of its arguments, holds of every token. -/
@[elab_as_elim, induction_eliminator]
theorem induction {P : TypeToken → Prop}
    (mk : ∀ name nullable generics, (∀ g ∈ generics, P g) → P ⟨name, nullable, generics⟩)
    (t : TypeToken) : P t :=
  @TypeToken.rec P (fun ts => ∀ g ∈ ts, P g) mk (fun _ hg => (List.not_mem_nil hg).elim)
    (fun _ _ ht hts => List.forall_mem_cons.mpr ⟨ht, hts⟩) t

/-! ### Names -/

/-- A name of a token: a letter or an underscore, and behind it letters, digits, underscores, points and
colons. -/
def IsName (s : String) : Prop :=
  Naming.consistsOf isNameStart isNamePart s = true

instance (s : String) : Decidable (IsName s) :=
  inferInstanceAs (Decidable (_ = true))

lemma isName_iff {s : String} :
    IsName s ↔ ∃ c cs, s.toList = c :: cs ∧ isNameStart c = true ∧ ∀ d ∈ cs, isNamePart d = true := by
  unfold IsName Naming.consistsOf
  cases s.toList with
  | nil => simp
  | cons c cs => simp

/-- A token all of whose names are names. -/
inductive Named : TypeToken → Prop
  | mk {name : String} {nullable : Bool} {generics : List TypeToken} (hname : IsName name)
      (hgenerics : ∀ g ∈ generics, Named g) : Named ⟨name, nullable, generics⟩

lemma Named.name {t : TypeToken} (h : t.Named) : IsName t.name := by
  cases h with
  | mk hname _ => exact hname

lemma Named.generics {t : TypeToken} (h : t.Named) : ∀ g ∈ t.generics, g.Named := by
  cases h with
  | mk _ hgenerics => exact hgenerics

/-- A name is a token without arguments. -/
lemma IsName.named {name : String} (h : IsName name) (nullable : Bool) : Named ⟨name, nullable, []⟩ :=
  .mk h fun _ hg => (List.not_mem_nil hg).elim

/-! ### The parts of a text -/

/-- The question mark of a token, if it has one. -/
def mark (nullable : Bool) : List Char :=
  if nullable then ['?'] else []

/-- The texts of tokens with commas between them. -/
def joined : List TypeToken → List Char
  | [] => []
  | [t] => t.text.toList
  | t :: u :: ts => t.text.toList ++ ',' :: joined (u :: ts)

lemma texts_eq (ts : List TypeToken) : texts ts = ts.map text := by
  induction ts with
  | nil => rfl
  | cons t ts ih => rw [texts, ih, List.map_cons]

lemma toList_intercalate_texts (t : TypeToken) (ts : List TypeToken) :
    (String.intercalate "," (text t :: texts ts)).toList = joined (t :: ts) := by
  rw [String.toList_intercalate, texts_eq]
  induction ts generalizing t with
  | nil => simp [joined]
  | cons u ts ih =>
    have hu := ih u
    rw [List.map_cons] at hu ⊢
    rw [List.map_cons, List.map_cons, List.intercalate_cons_cons, hu, joined]
    simp

/-- The text of a token without arguments. -/
lemma toList_text_plain (name : String) (nullable : Bool) :
    (text ⟨name, nullable, []⟩).toList = name.toList ++ mark nullable := by
  rw [text]
  cases nullable <;> simp [mark]

/-- The text of a token with arguments. -/
lemma toList_text_applied (name : String) (nullable : Bool) (g : TypeToken) (gs : List TypeToken) :
    (text ⟨name, nullable, g :: gs⟩).toList =
      name.toList ++ '<' :: (joined (g :: gs) ++ '>' :: mark nullable) := by
  have hjoined := toList_intercalate_texts g gs
  rw [text]
  cases nullable <;> simp [mark, hjoined]

/-! ### What is taken -/

lemma takeChar_eq_some {c : Char} {cs rest : List Char} {h : rest.length < cs.length}
    (htake : takeChar c cs = some ⟨rest, h⟩) : cs = c :: rest := by
  unfold takeChar at htake
  split at htake
  · rename_i d tail
    by_cases hd : (d == c) = true
    · simp only [hd, if_true, Option.some.injEq, Subtype.mk.injEq] at htake
      rw [eq_of_beq hd, htake]
    · rw [if_neg hd] at htake
      cases htake
  · cases htake

lemma takeMark_eq {cs rest : List Char} {nullable : Bool} {h : (nullable, rest).2.length ≤ cs.length}
    (htake : takeMark cs = ⟨(nullable, rest), h⟩) : cs = mark nullable ++ rest := by
  unfold takeMark at htake
  split at htake
  · rename_i more hmore hchar
    simp only [Subtype.mk.injEq, Prod.mk.injEq] at htake
    rw [takeChar_eq_some hchar, ← htake.1, htake.2]
    rfl
  · simp only [Subtype.mk.injEq, Prod.mk.injEq] at htake
    rw [← htake.1, htake.2]
    rfl

lemma takeName_eq_some {cs rest : List Char} {name : String} {h : (name, rest).2.length < cs.length}
    (htake : takeName cs = some ⟨(name, rest), h⟩) : IsName name ∧ cs = name.toList ++ rest := by
  unfold takeName at htake
  split at htake
  · rename_i c tail
    by_cases hc : isNameStart c = true
    · simp only [hc, if_true, Option.some.injEq, Subtype.mk.injEq, Prod.mk.injEq] at htake
      obtain ⟨rfl, rfl⟩ := htake
      refine ⟨isName_iff.mpr ⟨c, tail.takeWhile isNamePart, String.toList_ofList, hc, ?_⟩, ?_⟩
      · exact fun d hd => List.mem_takeWhile_imp hd
      · rw [String.toList_ofList, List.cons_append, List.takeWhile_append_dropWhile]
    · rw [if_neg hc] at htake
      cases htake
  · cases htake

/-- A token that is taken is a name with its mark, or a name with arguments in brackets and its mark. -/
lemma takeToken_eq_some {cs rest : List Char} {t : TypeToken} {h : (t, rest).2.length < cs.length}
    (htake : takeToken cs = some ⟨(t, rest), h⟩) :
    ∃ name, IsName name ∧
      ((∃ nullable, t = ⟨name, nullable, []⟩ ∧ cs = name.toList ++ (mark nullable ++ rest)) ∨
        ∃ nullable generics inner hinner, t = ⟨name, nullable, generics⟩ ∧
          cs = name.toList ++ '<' :: inner ∧
          takeTokens inner = some ⟨(generics, '>' :: (mark nullable ++ rest)), hinner⟩) := by
  rw [takeToken] at htake
  split at htake
  · cases htake
  rename_i name after hafter hname
  obtain ⟨hnamed, rfl⟩ := takeName_eq_some hname
  refine ⟨name, hnamed, ?_⟩
  split at htake
  · left
    split at htake
    rename_i nullable more hle hmark
    simp only [Option.some.injEq, Subtype.mk.injEq, Prod.mk.injEq] at htake
    obtain ⟨rfl, rfl⟩ := htake
    exact ⟨nullable, rfl, by rw [takeMark_eq hmark]⟩
  · right
    rename_i inner hinner hopen
    obtain rfl := takeChar_eq_some hopen
    split at htake
    · cases htake
    rename_i generics beyond hbeyond hgenerics
    split at htake
    · cases htake
    rename_i closed hclosed hclose
    obtain rfl := takeChar_eq_some hclose
    split at htake
    rename_i nullable more hle hmark
    simp only [Option.some.injEq, Subtype.mk.injEq, Prod.mk.injEq] at htake
    obtain ⟨rfl, rfl⟩ := htake
    obtain rfl := takeMark_eq hmark
    exact ⟨nullable, generics, inner, hbeyond, rfl, rfl, hgenerics⟩

/-- Tokens that are taken are one token, or one in front of a comma and more of them. -/
lemma takeTokens_eq_some {cs rest : List Char} {ts : List TypeToken} {h : (ts, rest).2.length < cs.length}
    (htake : takeTokens cs = some ⟨(ts, rest), h⟩) :
    ∃ t after hafter, takeToken cs = some ⟨(t, after), hafter⟩ ∧
      ((ts = [t] ∧ after = rest) ∨
        ∃ us more hmore, ts = t :: us ∧ after = ',' :: more ∧
          takeTokens more = some ⟨(us, rest), hmore⟩) := by
  rw [takeTokens] at htake
  split at htake
  · cases htake
  rename_i t after hafter hhead
  refine ⟨t, after, hafter, hhead, ?_⟩
  split at htake
  · left
    simp only [Option.some.injEq, Subtype.mk.injEq, Prod.mk.injEq] at htake
    exact ⟨htake.1.symm, htake.2⟩
  · right
    rename_i more hmore hcomma
    obtain rfl := takeChar_eq_some hcomma
    split at htake
    · cases htake
    rename_i us beyond hbeyond htail
    simp only [Option.some.injEq, Subtype.mk.injEq, Prod.mk.injEq] at htake
    obtain ⟨rfl, rfl⟩ := htake
    exact ⟨us, more, hbeyond, rfl, rfl, htail⟩

/-- What is taken from a text: a token whose names all are names, and whose text stands in front of the rest. -/
def TakenFrom (cs : List Char) (t : TypeToken) (rest : List Char) : Prop :=
  t.Named ∧ cs = t.text.toList ++ rest

/-- The same for tokens with commas between them, of which there is at least one. -/
def AllTakenFrom (cs : List Char) (ts : List TypeToken) (rest : List Char) : Prop :=
  (∀ t ∈ ts, t.Named) ∧ ts ≠ [] ∧ cs = joined ts ++ rest

/-- A token with arguments is taken from its text if the arguments are taken from theirs. -/
lemma AllTakenFrom.applied {inner rest : List Char} {generics : List TypeToken} {name : String}
    {nullable : Bool} (h : AllTakenFrom inner generics ('>' :: (mark nullable ++ rest))) (hname : IsName name) :
    TakenFrom (name.toList ++ '<' :: inner) ⟨name, nullable, generics⟩ rest := by
  obtain ⟨hnamed, hne, htext⟩ := h
  refine ⟨.mk hname hnamed, ?_⟩
  cases generics with
  | nil => exact absurd rfl hne
  | cons g gs =>
    rw [toList_text_applied, htext]
    simp

/-- More tokens are taken behind a comma. -/
lemma AllTakenFrom.cons {cs more rest : List Char} {t : TypeToken} {us : List TypeToken}
    (h : AllTakenFrom more us rest) (ht : TakenFrom cs t (',' :: more)) : AllTakenFrom cs (t :: us) rest := by
  obtain ⟨hrest, hne, htexts⟩ := h
  obtain ⟨hnamed, htext⟩ := ht
  refine ⟨List.forall_mem_cons.mpr ⟨hnamed, hrest⟩, List.cons_ne_nil _ _, ?_⟩
  cases us with
  | nil => exact absurd rfl hne
  | cons u us =>
    rw [joined, htext, htexts]
    simp

/-- The induction is on a bound for the length of the text: arguments and further tokens stand behind a
bracket or a comma. -/
theorem taken_of_length_le (n : Nat) :
    (∀ cs t rest h, cs.length ≤ n → takeToken cs = some ⟨(t, rest), h⟩ → TakenFrom cs t rest) ∧
      ∀ cs ts rest h, cs.length ≤ n → takeTokens cs = some ⟨(ts, rest), h⟩ → AllTakenFrom cs ts rest := by
  induction n with
  | zero =>
    refine ⟨fun cs t rest h hlength => ?_, fun cs ts rest h hlength => ?_⟩
    · exact absurd h (by omega)
    · exact absurd h (by omega)
  | succ n ih =>
    have htoken : ∀ cs t rest h, cs.length ≤ n + 1 → takeToken cs = some ⟨(t, rest), h⟩ →
        TakenFrom cs t rest := by
      intro cs t rest h hlength htake
      obtain ⟨name, hname, hplain | happlied⟩ := takeToken_eq_some htake
      · obtain ⟨nullable, rfl, rfl⟩ := hplain
        refine ⟨hname.named nullable, ?_⟩
        rw [toList_text_plain, List.append_assoc]
      · obtain ⟨nullable, generics, inner, hinner, rfl, rfl, hgenerics⟩ := happlied
        have hshort : inner.length ≤ n := by
          rw [List.length_append, List.length_cons] at hlength
          omega
        exact (ih.2 _ _ _ _ hshort hgenerics).applied hname
    refine ⟨htoken, fun cs ts rest h hlength htake => ?_⟩
    obtain ⟨t, after, hafter, hhead, hone | hmore⟩ := takeTokens_eq_some htake
    · obtain ⟨rfl, rfl⟩ := hone
      obtain ⟨hnamed, htext⟩ := htoken _ _ _ _ hlength hhead
      exact ⟨List.forall_mem_singleton.mpr hnamed, List.cons_ne_nil _ _, htext⟩
    · obtain ⟨us, more, hmore, rfl, rfl, htail⟩ := hmore
      have hshort : more.length ≤ n := by
        rw [List.length_cons] at hafter
        omega
      exact (ih.2 _ _ _ _ hshort htail).cons (htoken _ _ _ _ hlength hhead)

/-- White space apart, what is read as a token is the text of the token, whose names all are names. -/
theorem named_of_read? {s : String} {t : TypeToken} (h : read? s = some t) :
    t.Named ∧ t.text.toList = withoutBlanks s.toList := by
  unfold read? at h
  split at h
  · rename_i t' hlt htake
    obtain rfl := Option.some.inj h
    obtain ⟨hnamed, htext⟩ := (taken_of_length_le _).1 _ _ _ _ (Nat.le_refl _) htake
    rw [List.append_nil] at htext
    exact ⟨hnamed, htext.symm⟩
  · cases h

/-! ### Reading a text -/

/-- What may stand behind a token within a text: nothing, or the end of an argument. -/
def Closes (rest : List Char) : Prop :=
  ∀ c ∈ rest.head?, c = ',' ∨ c = '>'

lemma Closes.isNamePart {rest : List Char} (h : Closes rest) : ∀ c ∈ rest.head?, isNamePart c = false := by
  intro c hc
  rcases h c hc with rfl | rfl <;> decide

lemma Closes.ne {rest : List Char} (h : Closes rest) {d : Char} (hcomma : d ≠ ',') (hclose : d ≠ '>') :
    ∀ c ∈ rest.head?, c ≠ d := by
  intro c hc
  rcases h c hc with rfl | rfl
  · exact hcomma.symm
  · exact hclose.symm

lemma takeChar_cons (c : Char) (rest : List Char) : ∃ h, takeChar c (c :: rest) = some ⟨rest, h⟩ :=
  ⟨by simp, by simp [takeChar]⟩

lemma takeChar_eq_none {c : Char} {cs : List Char} (h : ∀ d ∈ cs.head?, d ≠ c) : takeChar c cs = none := by
  cases cs with
  | nil => rfl
  | cons d cs =>
    have hd : d ≠ c := h d rfl
    simp [takeChar, hd]

lemma takeMark_mark (nullable : Bool) {rest : List Char} (h : ∀ c ∈ rest.head?, c ≠ '?') :
    ∃ hle, takeMark (mark nullable ++ rest) = ⟨(nullable, rest), hle⟩ := by
  cases nullable with
  | true =>
    obtain ⟨hlt, htake⟩ := takeChar_cons '?' rest
    exact ⟨Nat.le_succ _, by simp [takeMark, mark, htake]⟩
  | false =>
    have htake := takeChar_eq_none h
    exact ⟨Nat.le_refl _, by simp [takeMark, mark, htake]⟩

lemma takeName_name {name : String} (hname : IsName name) {rest : List Char}
    (hrest : ∀ c ∈ rest.head?, isNamePart c = false) :
    ∃ h, takeName (name.toList ++ rest) = some ⟨(name, rest), h⟩ := by
  obtain ⟨c, cs, hchars, hc, hcs⟩ := isName_iff.mp hname
  have hstop : rest.takeWhile isNamePart = [] ∧ rest.dropWhile isNamePart = rest := by
    cases rest with
    | nil => exact ⟨rfl, rfl⟩
    | cons d rest =>
      have hd : isNamePart d = false := hrest d rfl
      simp [hd]
  have htake : (cs ++ rest).takeWhile isNamePart = cs := by
    rw [List.takeWhile_append_of_pos hcs, hstop.1, List.append_nil]
  have hdrop : (cs ++ rest).dropWhile isNamePart = rest := by
    rw [List.dropWhile_append_of_pos hcs, hstop.2]
  have hname' : String.ofList (c :: cs) = name := by
    rw [← hchars, String.ofList_toList]
  have hlength : rest.length < (c :: (cs ++ rest)).length := by
    rw [List.length_cons, List.length_append]
    omega
  rw [hchars, List.cons_append]
  refine ⟨hlength, ?_⟩
  simp only [takeName, hc, if_true, htake, hdrop, hname']

/-- A name with its mark is taken as a token without arguments. -/
lemma takeToken_plain {name : String} (hname : IsName name) (nullable : Bool) {rest : List Char}
    (hrest : Closes rest) :
    ∃ h, takeToken (name.toList ++ (mark nullable ++ rest)) = some ⟨(⟨name, nullable, []⟩, rest), h⟩ := by
  have hstop : ∀ c ∈ (mark nullable ++ rest).head?, isNamePart c = false ∧ c ≠ '<' := by
    intro c hc
    cases nullable with
    | true =>
      obtain rfl : '?' = c := Option.some.inj hc
      decide
    | false => exact ⟨hrest.isNamePart c hc, hrest.ne (by decide) (by decide) c hc⟩
  obtain ⟨hlt, htake⟩ := takeName_name hname fun c hc => (hstop c hc).1
  have hopen : takeChar '<' (mark nullable ++ rest) = none := takeChar_eq_none fun c hc => (hstop c hc).2
  obtain ⟨hle, hmark⟩ := takeMark_mark nullable (hrest.ne (by decide) (by decide))
  refine ⟨?_, ?_⟩
  · simp only at hlt hle ⊢
    omega
  · rw [takeToken, htake]
    dsimp only
    rw [hopen]
    dsimp only
    rw [hmark]

/-- A name, arguments in brackets and a mark are taken as a token with these arguments. -/
lemma takeToken_applied {name : String} (hname : IsName name) (nullable : Bool) {rest inner : List Char}
    (hrest : Closes rest) {generics : List TypeToken}
    (hgenerics : ∃ h, takeTokens inner = some ⟨(generics, '>' :: (mark nullable ++ rest)), h⟩) :
    ∃ h, takeToken (name.toList ++ '<' :: inner) = some ⟨(⟨name, nullable, generics⟩, rest), h⟩ := by
  have hstop : ∀ c ∈ ('<' :: inner).head?, isNamePart c = false := by
    intro c hc
    obtain rfl : '<' = c := Option.some.inj hc
    decide
  obtain ⟨hlt, htake⟩ := takeName_name hname hstop
  obtain ⟨hopened, hopen⟩ := takeChar_cons '<' inner
  obtain ⟨hargs, htokens⟩ := hgenerics
  obtain ⟨hclosed, hclose⟩ := takeChar_cons '>' (mark nullable ++ rest)
  obtain ⟨hle, hmark⟩ := takeMark_mark nullable (hrest.ne (by decide) (by decide))
  refine ⟨?_, ?_⟩
  · simp only [List.length_cons] at hlt hargs hle ⊢
    omega
  · rw [takeToken, htake]
    dsimp only
    rw [hopen]
    dsimp only
    rw [htokens]
    dsimp only
    rw [hclose]
    dsimp only
    rw [hmark]

/-- Whatever may stand behind a token, the token is taken from its text. -/
def TakenFromText (t : TypeToken) : Prop :=
  ∀ rest, Closes rest → ∃ h, takeToken (t.text.toList ++ rest) = some ⟨(t, rest), h⟩

/-- Tokens are taken from their texts up to the closing bracket. -/
lemma takeTokens_joined (t : TypeToken) (ts : List TypeToken) (h : ∀ u ∈ t :: ts, u.TakenFromText)
    (rest : List Char) :
    ∃ hlt, takeTokens (joined (t :: ts) ++ '>' :: rest) = some ⟨(t :: ts, '>' :: rest), hlt⟩ := by
  induction ts generalizing t with
  | nil =>
    obtain ⟨hlt, htake⟩ :=
      h t List.mem_cons_self ('>' :: rest) fun c hc => Or.inr (Option.some.inj hc).symm
    have hcomma : takeChar ',' ('>' :: rest) = none :=
      takeChar_eq_none fun c hc => by
        rw [← Option.some.inj hc]
        decide
    have htext : joined [t] = t.text.toList := rfl
    rw [htext]
    refine ⟨hlt, ?_⟩
    rw [takeTokens, htake]
    dsimp only
    rw [hcomma]
  | cons u us ih =>
    obtain ⟨ht, hts⟩ := List.forall_mem_cons.mp h
    obtain ⟨hlt, htake⟩ := ht (',' :: (joined (u :: us) ++ '>' :: rest))
      fun c hc => Or.inl (Option.some.inj hc).symm
    obtain ⟨hcommaLt, hcomma⟩ := takeChar_cons ',' (joined (u :: us) ++ '>' :: rest)
    obtain ⟨hmore, htail⟩ := ih u hts
    have htext : joined (t :: u :: us) ++ '>' :: rest =
        t.text.toList ++ ',' :: (joined (u :: us) ++ '>' :: rest) := by
      rw [joined]
      simp
    rw [htext]
    refine ⟨?_, ?_⟩
    · simp only [List.length_cons] at hlt hcommaLt hmore ⊢
      omega
    · rw [takeTokens, htake]
      dsimp only
      rw [hcomma]
      dsimp only
      rw [htail]

/-- A token is taken from its text if nothing stands behind it that could be a part of it. -/
theorem takeToken_text (t : TypeToken) (h : t.Named) : t.TakenFromText := by
  induction t with
  | mk name nullable generics ih =>
    intro rest hrest
    cases generics with
    | nil =>
      rw [toList_text_plain, List.append_assoc]
      exact takeToken_plain h.name nullable hrest
    | cons g gs =>
      have harguments : ∀ u ∈ g :: gs, u.TakenFromText := fun u hu => ih u hu (h.generics u hu)
      have hinner := takeTokens_joined g gs harguments (mark nullable ++ rest)
      have htext : (text ⟨name, nullable, g :: gs⟩).toList ++ rest =
          name.toList ++ '<' :: (joined (g :: gs) ++ '>' :: (mark nullable ++ rest)) := by
        rw [toList_text_applied]
        simp
      rw [htext]
      exact takeToken_applied h.name nullable hrest hinner

/-! ### Texts without white space -/

/-- The characters of a token's text. -/
def isTokenPart (c : Char) : Bool :=
  isNamePart c || c == '<' || c == '>' || c == ',' || c == '?'

lemma isNamePart_of_isNameStart {c : Char} (h : isNameStart c = true) : isNamePart c = true := by
  rw [isNamePart, h]
  rfl

lemma IsName.isNamePart {s : String} (h : IsName s) {c : Char} (hc : c ∈ s.toList) : isNamePart c = true := by
  obtain ⟨d, ds, hchars, hd, hds⟩ := isName_iff.mp h
  rw [hchars] at hc
  rcases List.mem_cons.mp hc with rfl | hc
  · exact isNamePart_of_isNameStart hd
  · exact hds c hc

/-- The characters of a name are ASCII and stand behind the space. -/
lemma isNamePart_bounds {c : Char} (h : isNamePart c = true) : 0x2E ≤ c.toNat ∧ c.toNat ≤ 0x7A := by
  have hle : ∀ a b : Char, a ≤ b ↔ a.toNat ≤ b.toNat := fun a b => Iff.rfl
  simp only [TypeToken.isNamePart, isNameStart, Number.isDigit, Bool.or_eq_true, Bool.and_eq_true,
    decide_eq_true_eq, beq_iff_eq, hle] at h
  rcases h with ((((h | h) | rfl) | h) | rfl) | rfl
  · exact ⟨Nat.le_trans (by decide) h.1, Nat.le_trans h.2 (by decide)⟩
  · exact ⟨Nat.le_trans (by decide) h.1, Nat.le_trans h.2 (by decide)⟩
  · decide
  · exact ⟨Nat.le_trans (by decide) h.1, Nat.le_trans h.2 (by decide)⟩
  · decide
  · decide

lemma isBlank_of_isTokenPart {c : Char} (h : isTokenPart c = true) : Text.isBlank c = false := by
  simp only [isTokenPart, Bool.or_eq_true, beq_iff_eq] at h
  rcases h with (((h | rfl) | rfl) | rfl) | rfl
  · obtain ⟨hlow, hhigh⟩ := isNamePart_bounds h
    simp only [Text.isBlank, Bool.or_eq_false_iff, Bool.and_eq_false_iff, decide_eq_false_iff_not,
      beq_eq_false_iff_ne]
    omega
  all_goals decide

/-- A character between the texts of tokens is a comma or stands in one of the texts. -/
lemma mem_joined {ts : List TypeToken} {c : Char} (hc : c ∈ joined ts) :
    c = ',' ∨ ∃ t ∈ ts, c ∈ t.text.toList := by
  induction ts with
  | nil => cases hc
  | cons t ts ih =>
    cases ts with
    | nil => exact Or.inr ⟨t, List.mem_cons_self, hc⟩
    | cons u us =>
      rw [joined] at hc
      rcases List.mem_append.mp hc with hc | hc
      · exact Or.inr ⟨t, List.mem_cons_self, hc⟩
      rcases List.mem_cons.mp hc with rfl | hc
      · exact Or.inl rfl
      · exact (ih hc).imp_right fun ⟨v, hv, hc⟩ => ⟨v, List.mem_cons_of_mem t hv, hc⟩

/-- The text of a token has no other characters. -/
lemma isTokenPart_of_mem_text (t : TypeToken) (h : t.Named) : ∀ c ∈ t.text.toList, isTokenPart c = true := by
  have hmark : ∀ nullable, ∀ c ∈ mark nullable, isTokenPart c = true := by
    intro nullable c hc
    cases nullable with
    | false => cases hc
    | true =>
      obtain rfl := List.mem_singleton.mp hc
      rfl
  induction t with
  | mk name nullable generics ih =>
    have hname : ∀ c ∈ name.toList, isTokenPart c = true := by
      intro c hc
      rw [isTokenPart, h.name.isNamePart hc]
      rfl
    intro c hc
    cases generics with
    | nil =>
      rw [toList_text_plain] at hc
      rcases List.mem_append.mp hc with hc | hc
      · exact hname c hc
      · exact hmark nullable c hc
    | cons g gs =>
      rw [toList_text_applied] at hc
      rcases List.mem_append.mp hc with hc | hc
      · exact hname c hc
      rcases List.mem_cons.mp hc with rfl | hc
      · decide
      rcases List.mem_append.mp hc with hc | hc
      · rcases mem_joined hc with rfl | ⟨u, hu, hc⟩
        · decide
        · exact ih u hu (h.generics u hu) c hc
      rcases List.mem_cons.mp hc with rfl | hc
      · decide
      · exact hmark nullable c hc

/-- A token that is taken from a text without white space as a whole is read. -/
lemma read?_eq_some {s : String} {t : TypeToken}
    (htake : ∃ h, takeToken (withoutBlanks s.toList) = some ⟨(t, []), h⟩) : read? s = some t := by
  obtain ⟨h, htake⟩ := htake
  unfold read?
  rw [htake]

/-- A token is read from its text. -/
theorem read?_text {t : TypeToken} (h : t.Named) : read? t.text = some t := by
  have hblanks : withoutBlanks t.text.toList = t.text.toList := by
    refine List.filter_eq_self.mpr fun c hc => ?_
    rw [isBlank_of_isTokenPart (isTokenPart_of_mem_text t h c hc)]
    rfl
  refine read?_eq_some ?_
  rw [hblanks, ← List.append_nil t.text.toList]
  exact takeToken_text t h [] fun c hc => by cases hc

/-- A text with any other character is not read as a token. -/
theorem read?_eq_none_of_mem {s : String} {c : Char} (hc : c ∈ s.toList) (hblank : Text.isBlank c = false)
    (hpart : isTokenPart c = false) : read? s = none := by
  rw [← Option.not_isSome_iff_eq_none, Option.isSome_iff_exists]
  rintro ⟨t, ht⟩
  obtain ⟨hnamed, htext⟩ := named_of_read? ht
  have hmem : c ∈ t.text.toList := by
    rw [htext]
    exact List.mem_filter.mpr ⟨hc, by rw [hblank]; rfl⟩
  rw [isTokenPart_of_mem_text t hnamed c hmem] at hpart
  cases hpart

/-- The text of a token without arguments and question mark is its name. -/
lemma text_name (s : String) : text ⟨s, false, []⟩ = s := by
  refine String.toList_injective ?_
  rw [toList_text_plain]
  exact List.append_nil _

/-- The text of a name is read as that name. -/
theorem read?_name {s : String} (h : IsName s) : read? s = some ⟨s, false, []⟩ := by
  rw [← read?_text (h.named false), text_name]

end TypeToken

end EntitySchema
