import EntitySchema.Number.Read
import EntitySchema.Text.Blank

/-!
# The number that a text is

A text is a number as a whole, apart from white space around it: a decimal numeral with an optional sign,
a numeral in base two, eight or sixteen behind its mark, or an infinity.  A blank text is zero, and every
other text is not a number.
-/

namespace EntitySchema

namespace Number

/-- The value of a numeral without sign in one of the bases with a mark. -/
def ofMarked (base : Nat) (cs : List Char) : Number :=
  if !cs.isEmpty && cs.all fun c => isHexDigit c && digitValue c < base then
    ofRatio false (digitsValue base cs) 1
  else .nan

/-- The value of a decimal numeral. -/
def ofWhole (cs : List Char) : Number :=
  let (negative, body) := splitSign cs
  let (whole, fraction, _, rest) := readParts body
  if String.ofList body == "Infinity" then .infinite negative
  else if rest.isEmpty && !(whole ++ fraction).isEmpty then ofNumeral cs
  else .nan

/-- The number that a text is. -/
def ofText (s : String) : Number :=
  match Text.trim s.toList with
  | [] => zero
  | '0' :: 'x' :: cs | '0' :: 'X' :: cs => ofMarked 16 cs
  | '0' :: 'o' :: cs | '0' :: 'O' :: cs => ofMarked 8 cs
  | '0' :: 'b' :: cs | '0' :: 'B' :: cs => ofMarked 2 cs
  | cs => ofWhole cs

end Number

end EntitySchema
