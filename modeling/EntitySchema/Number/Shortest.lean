import EntitySchema.Number.Basic

/-!
# The fewest digits that read back

A finite number stands for the interval of reals that round to it; its ends belong to it when the
mantissa is even.  The decimal text of the number has the fewest digits that denote a point of this
interval, and of the points with that many digits the one nearest to the number.  For `n` digits the
two neighbours of the number on the grid of decimals with `n` digits are tested; `n = 17` always
succeeds.
-/

namespace EntitySchema

namespace Number

/-- The decimal digits of a natural number. -/
def decimal (n : Nat) : List Char :=
  Nat.toDigits 10 n

/-- The exponent `k` with `10 ^ (k - 1) ≤ num / den < 10 ^ k`. -/
def decimalExponent (num den : Nat) : Int :=
  if den ≤ num then (decimal (num / den)).length
  else 1 - ((decimal ((den + num - 1) / num - 1)).length : Int)

/-- Decimal digits and the place of the point: the value is `0.digits * 10 ^ exponent`. -/
structure Digits where
  digits : List Char
  exponent : Int
  deriving Repr, DecidableEq

/-- `d * 10 ^ p` as a quotient of natural numbers. -/
def decimalRatio (d : Nat) (p : Int) : Nat × Nat :=
  if 0 ≤ p then (d * Nat.pow 10 p.toNat, 1) else (d, Nat.pow 10 (-p).toNat)

/-- Whether one quotient is below another. -/
def ratioLt (a b : Nat × Nat) : Bool :=
  a.1 * b.2 < b.1 * a.2

/-- The interval of reals that round to `mantissa * 2 ^ exponent`. -/
structure Interval where
  low : Nat × Nat
  high : Nat × Nat
  closed : Bool

/-- The rounding interval of a positive number.  Below a power of two the grid is twice as fine. -/
def interval (m : Nat) (e : Int) : Interval :=
  let below := if m = Nat.pow 2 52 && e != minExponent then 4 * m - 1 else 4 * m - 2
  ⟨magnitude below (e - 2), magnitude (4 * m + 2) (e - 2), m % 2 = 0⟩

/-- Whether a quotient lies in the interval. -/
def Interval.contains (i : Interval) (r : Nat × Nat) : Bool :=
  if i.closed then !ratioLt r i.low && !ratioLt i.high r else ratioLt i.low r && ratioLt r i.high

/-- The point with `n` digits nearest to `value` that lies in the interval, as its digits. -/
def pointWith (i : Interval) (value : Nat × Nat) (k : Int) (n : Nat) : Option Nat :=
  let p := k - n
  let scaled :=
    if 0 ≤ p then (value.1, value.2 * Nat.pow 10 p.toNat)
    else (value.1 * Nat.pow 10 (-p).toNat, value.2)
  let d := scaled.1 / scaled.2
  let lower := i.contains (decimalRatio d p)
  let upper := i.contains (decimalRatio (d + 1) p)
  let r := scaled.1 % scaled.2
  match lower, upper with
  | true, true =>
    if 2 * r < scaled.2 then some d else if scaled.2 < 2 * r then some (d + 1) else some (d + d % 2)
  | true, false => some d
  | false, true => some (d + 1)
  | false, false => none

/-- The first of `n`, `n + 1`, … digits, `fuel` of them, for which a point lies in the interval. -/
def searchDigits (i : Interval) (value : Nat × Nat) (k : Int) : Nat → Nat → Nat × Nat
  | 0, n => (0, n)
  | fuel + 1, n =>
    match pointWith i value k n with
    | some d => (d, n)
    | none => searchDigits i value k fuel (n + 1)

/-- The digits without the zeros at their end. -/
def dropTrailingZeros (cs : List Char) : List Char :=
  (cs.reverse.dropWhile (· == '0')).reverse

/-- The fewest digits that read back as the positive number `m * 2 ^ e`. -/
def shortest (m : Nat) (e : Int) : Digits :=
  let value := magnitude m e
  let k := decimalExponent value.1 value.2
  let (d, n) := searchDigits (interval m e) value k 17 1
  let ds := decimal d
  -- The upper neighbour of 9…9 has one digit more.
  ⟨dropTrailingZeros ds, k + ((ds.length : Int) - n)⟩

end Number

end EntitySchema
