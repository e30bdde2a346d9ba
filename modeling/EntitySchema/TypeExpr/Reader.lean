import EntitySchema.Number.Read
import EntitySchema.Text.Blank
import EntitySchema.Text.Units
import EntitySchema.TypeExpr.Basic

/-!
# Reading type expressions

The grammar is

    type := ['module:' alias ':'] name ['(' digits ')'] ['<' type (',' type)* '>'] ['?']

White space may stand between all tokens but those in front of the name.  Every step gives back the
rest of the text with the proof that it is shorter, so the nesting of type arguments needs no bound.
-/

namespace EntitySchema

namespace TypeExpr

/-- The rest of a text and its offset. -/
structure Cursor where
  offset : Nat
  rest : List Char

namespace Cursor

/-- Moves behind the first `n` characters. -/
def advance (c : Cursor) (n : Nat) : Cursor :=
  ⟨c.offset + Text.units (c.rest.take n), c.rest.drop n⟩

/-- Moving does not make the rest longer. -/
theorem length_advance (c : Cursor) (n : Nat) : (c.advance n).rest.length = c.rest.length - n := by
  simp [advance]

/-- Moves behind the white space. -/
def skipBlanks (c : Cursor) : Cursor :=
  c.advance (c.rest.takeWhile Text.isBlank).length

/-- Skipping white space does not make the rest longer. -/
theorem length_skipBlanks_le (c : Cursor) : c.skipBlanks.rest.length ≤ c.rest.length := by
  rw [skipBlanks, length_advance]; exact Nat.sub_le _ _

/-- The problem at the cursor: on one unit, or at the end of the text. -/
def fail (c : Cursor) (fault : TypeExprFault) : TypeExprError :=
  ⟨fault, c.offset, if c.rest.isEmpty then c.offset else c.offset + 1⟩

/-- Whether the character is at the cursor. -/
def sees (c : Cursor) (ch : Char) : Bool :=
  c.rest.head? == some ch

/-- Behind a character that is seen the rest is shorter. -/
theorem length_advance_lt (c : Cursor) {ch : Char} (h : c.sees ch = true) :
    (c.advance 1).rest.length < c.rest.length := by
  rw [length_advance]
  cases hr : c.rest with
  | nil => simp [sees, hr] at h
  | cons a as => simp

end Cursor

/-- The characters that start a name. -/
def isNameStart (c : Char) : Bool :=
  ('A' ≤ c && c ≤ 'Z') || ('a' ≤ c && c ≤ 'z') || c == '_'

/-- The characters of a name. -/
def isNamePart (c : Char) : Bool :=
  isNameStart c || Number.isDigit c

/-- The name at the start of a text. -/
def nameAt (cs : List Char) : List Char :=
  match cs with
  | c :: rest => if isNameStart c then c :: rest.takeWhile isNamePart else []
  | [] => []

/-- What has been read at a cursor, and a cursor with a shorter rest. -/
abbrev Taken (α : Type) (c : Cursor) :=
  { r : α × Cursor // r.2.rest.length < c.rest.length }

/-- Takes the characters `word` at the cursor, which are at least one. -/
def takeWord (c : Cursor) (word : List Char) (fault : TypeExprFault) :
    Except TypeExprError (Taken String c) :=
  if h : 0 < word.length ∧ 0 < c.rest.length then
    .ok ⟨(String.ofList word, c.advance word.length), by
      rw [Cursor.length_advance]; omega⟩
  else .error (c.fail fault)

/-- Takes a character. -/
def takeChar (c : Cursor) (ch : Char) (fault : TypeExprFault) : Except TypeExprError (Taken Unit c) :=
  if h : c.sees ch = true then .ok ⟨((), c.advance 1), c.length_advance_lt h⟩
  else .error (c.fail fault)

/-- The word in front of the alias of a module. -/
def modulePrefixWord : List Char := "module:".toList

/-- Takes the module in front of a name, if there is one. -/
def takeAlias (c : Cursor) :
    Except TypeExprError { r : Option String × Cursor // r.2.rest.length ≤ c.rest.length } :=
  if modulePrefixWord.isPrefixOf c.rest then
    let c₁ := c.advance modulePrefixWord.length
    have h₁ : c₁.rest.length ≤ c.rest.length := by
      rw [Cursor.length_advance]; exact Nat.sub_le _ _
    match takeWord c₁ (nameAt c₁.rest) .missingAlias with
    | .error e => .error e
    | .ok ⟨(moduleAlias, c₂), h₂⟩ =>
      match takeChar c₂ ':' (.unclosedAlias moduleAlias) with
      | .error e => .error e
      | .ok ⟨(_, c₃), h₃⟩ => .ok ⟨(some moduleAlias, c₃), by simp only at *; omega⟩
  else .ok ⟨(none, c), Nat.le_refl _⟩

/-- Takes the digits of a dimension and the closing bracket, behind the opening one. -/
def takeDimension (name : String) (c : Cursor) : Except TypeExprError (Taken Number c) :=
  let c₁ := c.skipBlanks
  have h₁ : c₁.rest.length ≤ c.rest.length := c.length_skipBlanks_le
  let digits := c₁.rest.takeWhile Number.isDigit
  match takeWord c₁ digits (.missingDimension name) with
  | .error e => .error e
  | .ok ⟨(_, c₂), h₂⟩ =>
    let c₃ := c₂.skipBlanks
    have h₃ : c₃.rest.length ≤ c₂.rest.length := c₂.length_skipBlanks_le
    match takeChar c₃ ')' (.unclosedDimension name) with
    | .error e => .error e
    | .ok ⟨(_, c₄), h₄⟩ =>
      .ok ⟨(Number.ofDecimal false (Number.digitsValue 10 digits) 0, c₄), by
        simp only at *; omega⟩

/-- What stands in front of the type arguments, and the offset behind it. -/
structure Head where
  moduleAlias : Option String
  name : String
  dimension : Option Number
  start : Nat
  stop : Nat

/-- Takes what stands in front of the type arguments, with the white space around. -/
def takeHead (c : Cursor) : Except TypeExprError (Taken Head c) :=
  let c₁ := c.skipBlanks
  have h₁ : c₁.rest.length ≤ c.rest.length := c.length_skipBlanks_le
  match takeAlias c₁ with
  | .error e => .error e
  | .ok ⟨(moduleAlias, c₂), h₂⟩ =>
    match takeWord c₂ (nameAt c₂.rest) .missingName with
    | .error e => .error e
    | .ok ⟨(name, c₃), h₃⟩ =>
      let c₄ := c₃.skipBlanks
      have h₄ : c₄.rest.length ≤ c₃.rest.length := c₃.length_skipBlanks_le
      if h : c₄.sees '(' = true then
        have h₅ := c₄.length_advance_lt h
        match takeDimension name (c₄.advance 1) with
        | .error e => .error e
        | .ok ⟨(dimension, c₆), h₆⟩ =>
          .ok ⟨(⟨moduleAlias, name, some dimension, c₁.offset, c₆.offset⟩, c₆.skipBlanks), by
            have h₇ := c₆.length_skipBlanks_le
            simp only at *; omega⟩
      else .ok ⟨(⟨moduleAlias, name, none, c₁.offset, c₃.offset⟩, c₄), by simp only at *; omega⟩

/-- Takes the question mark, if there is one, and puts the expression together. -/
def finish (head : Head) (generics : List TypeExpr) (stop : Nat) (c : Cursor) :
    { r : TypeExpr × Cursor // r.2.rest.length ≤ c.rest.length } :=
  if c.sees '?' then
    ⟨(⟨head.name, head.moduleAlias, true, head.dimension, generics, head.start, c.offset + 1⟩,
      c.advance 1), by
        rw [Cursor.length_advance]; exact Nat.sub_le _ _⟩
  else
    ⟨(⟨head.name, head.moduleAlias, false, head.dimension, generics, head.start, stop⟩, c),
      Nat.le_refl _⟩

mutual

/-- Takes a type expression. -/
def takeType (c : Cursor) : Except TypeExprError (Taken TypeExpr c) :=
  match takeHead c with
  | .error e => .error e
  | .ok ⟨(head, c₁), h₁⟩ =>
    if h : c₁.sees '<' = true then
      have h₂ := c₁.length_advance_lt h
      match takeTypes (c₁.advance 1) with
      | .error e => .error e
      | .ok ⟨(generics, c₃), h₃⟩ =>
        match takeChar c₃ '>' (.unclosedGenerics head.name) with
        | .error e => .error e
        | .ok ⟨(_, c₄), h₄⟩ =>
          let ⟨r, h₆⟩ := finish head generics c₄.offset c₄.skipBlanks
          .ok ⟨r, by
            have h₅ := c₄.length_skipBlanks_le
            simp only at *; omega⟩
    else
      let ⟨r, h₂⟩ := finish head [] head.stop c₁
      .ok ⟨r, by simp only at *; omega⟩
termination_by 2 * c.rest.length
decreasing_by
  simp only at *
  omega

/-- Takes type expressions that are separated by commas, and the white space behind them. -/
def takeTypes (c : Cursor) : Except TypeExprError (Taken (List TypeExpr) c) :=
  match takeType c with
  | .error e => .error e
  | .ok ⟨(t, c₁), h₁⟩ =>
    have h₂ := c₁.length_skipBlanks_le
    if h : c₁.skipBlanks.sees ',' = true then
      have h₃ := c₁.skipBlanks.length_advance_lt h
      match takeTypes (c₁.skipBlanks.advance 1) with
      | .error e => .error e
      | .ok ⟨(ts, c₂), h₄⟩ => .ok ⟨(t :: ts, c₂), by simp only at *; omega⟩
    else .ok ⟨([t], c₁.skipBlanks), by simp only at *; omega⟩
termination_by 2 * c.rest.length + 1
decreasing_by
  · omega
  · simp only at *
    omega

end

/-- Reads a text that is a type expression and nothing else. -/
def read (text : String) : Except TypeExprError TypeExpr :=
  let cs := text.toList
  match takeType ⟨0, cs⟩ with
  | .error e => .error e
  | .ok ⟨(t, c), _⟩ =>
    let c := c.skipBlanks
    if c.rest.isEmpty then .ok t
    else
      .error
        ⟨.trailing (String.ofList c.rest) (String.ofList (Text.slice cs t.start t.stop)), c.offset,
          Text.units cs⟩

end TypeExpr

end EntitySchema
