/-!
# Double precision numbers

A number is an IEEE double, written out: not a number, an infinity, or a sign, a whole mantissa below
`2 ^ 53` and a binary exponent.  All of reading, comparing and printing is exact arithmetic on natural
numbers; the only place where anything is rounded is `Number.ofRatio`, which takes the representable
number nearest to a quotient, and of two nearest ones the one with the even mantissa.
-/

namespace EntitySchema

/-- An IEEE double.  A finite number is `± mantissa * 2 ^ exponent`. -/
inductive Number where
  | nan
  | infinite (negative : Bool)
  | finite (negative : Bool) (mantissa : Nat) (exponent : Int)
  deriving DecidableEq, Repr, Inhabited

namespace Number

/-- The quotient rounded to the nearest whole number, a half to the even neighbour. -/
def roundHalfEven (num den : Nat) : Nat :=
  let q := num / den
  let r := num % den
  if 2 * r < den then q else if den < 2 * r then q + 1 else q + q % 2

/-- The smallest exponent of a finite number. -/
def minExponent : Int := -1074

/-- The largest exponent of a finite number. -/
def maxExponent : Int := 971

/-- `num / den` divided by `2 ^ e`, as a quotient of natural numbers. -/
def scaleRatio (num den : Nat) (e : Int) : Nat × Nat :=
  if 0 ≤ e then (num, den * Nat.pow 2 e.toNat) else (num * Nat.pow 2 (-e).toNat, den)

/-- The exponent that leaves `num / den` a mantissa of 53 binary digits, or the smallest one. -/
def exponentOf (num den : Nat) : Int :=
  let guess : Int := (num.log2 : Int) - (den.log2 : Int) - 52
  let (n, d) := scaleRatio num den guess
  max (if n < d * Nat.pow 2 52 then guess - 1 else guess) minExponent

/-- The number nearest to `± num / den`; beyond the largest finite number it is an infinity. -/
def ofRatio (negative : Bool) (num den : Nat) : Number :=
  if num = 0 then .finite negative 0 minExponent
  else
    let e := exponentOf num den
    let (n, d) := scaleRatio num den e
    let m := roundHalfEven n d
    let (m, e) := if m = Nat.pow 2 53 then (Nat.pow 2 52, e + 1) else (m, e)
    if maxExponent < e then .infinite negative else .finite negative m e

/-- The number nearest to a natural number. -/
def ofNat (n : Nat) : Number :=
  ofRatio false n 1

/-- The number nearest to an integer. -/
def ofInt (n : Int) : Number :=
  ofRatio (n < 0) n.natAbs 1

/-- Positive zero. -/
def zero : Number := .finite false 0 minExponent

/-- Whether the number is finite. -/
def isFinite : Number → Bool
  | .finite .. => true
  | _ => false

/-- The exact magnitude of a finite number, as a quotient of natural numbers. -/
def magnitude (mantissa : Nat) (exponent : Int) : Nat × Nat :=
  if 0 ≤ exponent then (mantissa * Nat.pow 2 exponent.toNat, 1) else (mantissa, Nat.pow 2 (-exponent).toNat)

/-- The value of a number that is a whole number. -/
def toInt? : Number → Option Int
  | .finite negative m e =>
    let (n, d) := magnitude m e
    if n % d = 0 then some (if negative then -((n / d : Nat) : Int) else ((n / d : Nat) : Int)) else none
  | _ => none

/-- Equality of numbers: not a number differs from itself, and the two zeros are equal. -/
def same : Number → Number → Bool
  | .nan, _ => false
  | _, .nan => false
  | .infinite a, .infinite b => a == b
  | .finite a m e, .finite b n f => (m == 0 && n == 0) || (a == b && m == n && e == f)
  | _, _ => false

end Number

end EntitySchema
