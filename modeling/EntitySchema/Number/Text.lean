import EntitySchema.Number.Shortest

/-!
# Writing numbers

Numbers are written with the fewest digits that read back, positionally up to 21 places before the
point and six zeros behind it, and with an exponent beyond.  Fixed places are rounded from the exact
binary value, a half away from zero.
-/

namespace EntitySchema

namespace Number

/-- Where positional notation ends and how the other texts of numbers are spelled. -/
structure Style where
  /-- The largest decimal exponent written positionally. -/
  positionalUpTo : Int
  /-- The smallest decimal exponent written positionally. -/
  positionalFrom : Int
  nan : String
  infinity : String

/-- Integers of at most 21 digits and fractions with at most five zeros behind the point are written
positionally. -/
def plainStyle : Style := ⟨21, -5, "NaN", "Infinity"⟩

/-- The digits laid out in the given style. -/
def Digits.layOut (style : Style) (d : Digits) : List Char :=
  let n : Int := d.digits.length
  let k := d.exponent
  if n ≤ k && k ≤ style.positionalUpTo then
    d.digits ++ List.replicate (k - n).toNat '0'
  else if 0 < k && k ≤ style.positionalUpTo then
    d.digits.take k.toNat ++ '.' :: d.digits.drop k.toNat
  else if style.positionalFrom ≤ k && k ≤ 0 then
    '0' :: '.' :: List.replicate (-k).toNat '0' ++ d.digits
  else
    let power := decimal (k - 1).natAbs
    let sign := if k - 1 < 0 then '-' else '+'
    match d.digits with
    | [] => []
    | [a] => a :: 'e' :: sign :: power
    | a :: rest => a :: '.' :: rest ++ 'e' :: sign :: power

/-- The text of a number; both zeros are `0`. -/
def text : Number → String
  | .nan => plainStyle.nan
  | .infinite negative => if negative then "-" ++ plainStyle.infinity else plainStyle.infinity
  | .finite negative m e =>
    if m = 0 then "0"
    else
      let body := String.ofList ((shortest m e).layOut plainStyle)
      if negative then "-" ++ body else body

/-- The number with one decimal place; from `10 ^ 21` on it is the plain text. -/
def oneDecimal : Number → String
  | .finite negative m e =>
    let (num, den) := magnitude m e
    if Nat.pow 10 21 * den ≤ num then text (.finite negative m e)
    else
      let tenths := (num * 10 * 2 + den) / (2 * den)
      let body := String.ofList (decimal (tenths / 10) ++ '.' :: decimal (tenths % 10))
      if negative && m != 0 then "-" ++ body else body
  | x => text x

end Number

end EntitySchema
