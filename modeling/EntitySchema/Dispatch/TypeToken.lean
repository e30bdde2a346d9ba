import EntitySchema.Number.Read
import EntitySchema.Text.Blank

/-!
# Type tokens

A type token is a name with optional type arguments and an optional question mark,

    token := name ['<' token (',' token)* '>'] ['?']

White space is ignored wherever it stands.  Every step of the reader gives back the rest of the text
with the proof that it is shorter.
-/

namespace EntitySchema

/-- A type token. -/
structure TypeToken where
  name : String
  nullable : Bool := false
  generics : List TypeToken := []
  deriving Repr, Inhabited

namespace TypeToken

/-! ### Writing -/

mutual

/-- The text of a token. -/
def text (t : TypeToken) : String :=
  match t with
  | ⟨name, nullable, generics⟩ =>
    let arguments :=
      match generics with
      | [] => ""
      | g :: gs => "<" ++ String.intercalate "," (text g :: texts gs) ++ ">"
    name ++ arguments ++ (if nullable then "?" else "")

/-- The texts of tokens. -/
def texts : List TypeToken → List String
  | [] => []
  | t :: ts => text t :: texts ts

end

/-! ### Reading -/

/-- The characters that start a name. -/
def isNameStart (c : Char) : Bool :=
  ('A' ≤ c && c ≤ 'Z') || ('a' ≤ c && c ≤ 'z') || c == '_'

/-- The characters of a name; points and colons separate the parts of a name. -/
def isNamePart (c : Char) : Bool :=
  isNameStart c || Number.isDigit c || c == '.' || c == ':'

/-- What has been read at the start of a text, and the rest, which is shorter. -/
abbrev Taken (α : Type) (cs : List Char) :=
  { r : α × List Char // r.2.length < cs.length }

theorem length_dropWhile_lt (test : Char → Bool) (c : Char) (rest : List Char) :
    (rest.dropWhile test).length < (c :: rest).length :=
  Nat.lt_succ_of_le (List.dropWhile_sublist test).length_le

/-- Takes a name. -/
def takeName (cs : List Char) : Option (Taken String cs) :=
  match cs with
  | c :: rest =>
    if isNameStart c then
      some ⟨(String.ofList (c :: rest.takeWhile isNamePart), rest.dropWhile isNamePart),
        length_dropWhile_lt isNamePart c rest⟩
    else none
  | [] => none

/-- Takes a character. -/
def takeChar (c : Char) (cs : List Char) : Option { rest : List Char // rest.length < cs.length } :=
  match cs with
  | d :: rest => if d == c then some ⟨rest, by simp⟩ else none
  | [] => none

/-- Takes the question mark, if there is one. -/
def takeMark (cs : List Char) : { r : Bool × List Char // r.2.length ≤ cs.length } :=
  match takeChar '?' cs with
  | some ⟨rest, h⟩ => ⟨(true, rest), Nat.le_of_lt h⟩
  | none => ⟨(false, cs), Nat.le_refl _⟩

mutual

/-- Takes a token. -/
def takeToken (cs : List Char) : Option (Taken TypeToken cs) :=
  match takeName cs with
  | none => none
  | some ⟨(name, rest), h⟩ =>
    match takeChar '<' rest with
    | none =>
      let ⟨(nullable, rest), h'⟩ := takeMark rest
      some ⟨(⟨name, nullable, []⟩, rest), by simp only at *; omega⟩
    | some ⟨inner, h₁⟩ =>
      match takeTokens inner with
      | none => none
      | some ⟨(generics, rest), h₂⟩ =>
        match takeChar '>' rest with
        | none => none
        | some ⟨rest, h₃⟩ =>
          let ⟨(nullable, rest), h₄⟩ := takeMark rest
          some ⟨(⟨name, nullable, generics⟩, rest), by simp only at *; omega⟩
termination_by (cs.length, 0)
decreasing_by
  simp only at *
  exact Prod.Lex.left _ _ (by omega)

/-- Takes tokens that are separated by commas. -/
def takeTokens (cs : List Char) : Option (Taken (List TypeToken) cs) :=
  match takeToken cs with
  | none => none
  | some ⟨(t, rest), h⟩ =>
    match takeChar ',' rest with
    | none => some ⟨([t], rest), h⟩
    | some ⟨rest, h₁⟩ =>
      match takeTokens rest with
      | none => none
      | some ⟨(ts, rest), h₂⟩ => some ⟨(t :: ts, rest), by simp only at *; omega⟩
termination_by (cs.length, 1)
decreasing_by
  · exact Prod.Lex.right _ (by omega)
  · simp only at *
    exact Prod.Lex.left _ _ (by omega)

end

/-- The characters of a text that are no white space. -/
def withoutBlanks (cs : List Char) : List Char :=
  cs.filter fun c => !Text.isBlank c

/-- The token of a text. -/
def read? (s : String) : Option TypeToken :=
  match takeToken (withoutBlanks s.toList) with
  | some ⟨(t, []), _⟩ => some t
  | _ => none

end TypeToken

/-- What is asked for: the type of a text, or the instances of a class. -/
inductive RequestedType where
  | text (s : String)
  | class (id : String)
  deriving DecidableEq, Repr, Inhabited

/-- The name of what is asked for. -/
def RequestedType.describe : RequestedType → String
  | .text s => s
  | .class id => id

/-- The token of what is asked for, if it is the text of one. -/
def RequestedType.token? : RequestedType → Option TypeToken
  | .text s => TypeToken.read? s
  | .class _ => none

end EntitySchema
