import EntitySchema.Number.Basic

/-!
# Sums and products of numbers

A sum or product is the number nearest to the exact result.
-/

namespace EntitySchema

namespace Number

/-- The number nearest to `± mantissa * 2 ^ exponent`. -/
def ofScaled (negative : Bool) (mantissa : Nat) (exponent : Int) : Number :=
  let (n, d) := magnitude mantissa exponent
  ofRatio negative n d

/-- The number nearest to the product. -/
def mul : Number → Number → Number
  | .nan, _ | _, .nan => .nan
  | .infinite a, .infinite b => .infinite (a != b)
  | .infinite a, .finite b n _ => if n = 0 then .nan else .infinite (a != b)
  | .finite a m _, .infinite b => if m = 0 then .nan else .infinite (a != b)
  | .finite a m e, .finite b n f => ofScaled (a != b) (m * n) (e + f)

/-- The whole number `± mantissa * 2 ^ shift`. -/
def scaled (negative : Bool) (mantissa shift : Nat) : Int :=
  let n : Int := (mantissa * Nat.pow 2 shift : Nat)
  if negative then -n else n

/-- The number nearest to the sum; two zeros of different signs add up to the positive one. -/
def add : Number → Number → Number
  | .nan, _ | _, .nan => .nan
  | .infinite a, .infinite b => if a == b then .infinite a else .nan
  | .infinite a, .finite .. => .infinite a
  | .finite .., .infinite b => .infinite b
  | .finite a m e, .finite b n f =>
    let least := min e f
    let sum := scaled a m (e - least).toNat + scaled b n (f - least).toNat
    if sum = 0 then .finite (a && b) 0 minExponent else ofScaled (sum < 0) sum.natAbs least

end Number

end EntitySchema
