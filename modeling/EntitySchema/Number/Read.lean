import EntitySchema.Number.Basic

/-!
# Reading numbers

A decimal numeral is digits, optionally a point with further digits, and an optional power of ten.
Its value is the number nearest to the exact decimal.
-/

namespace EntitySchema

namespace Number

/-- The value of a digit in a base of at most sixteen. -/
def digitValue (c : Char) : Nat :=
  let n := c.toNat
  if 0x30 ≤ n && n ≤ 0x39 then n - 0x30
  else if 0x61 ≤ n && n ≤ 0x66 then n - 0x61 + 10
  else if 0x41 ≤ n && n ≤ 0x46 then n - 0x41 + 10
  else 0

/-- The digits `0` to `9`. -/
def isDigit (c : Char) : Bool :=
  '0' ≤ c && c ≤ '9'

/-- The hexadecimal digits, in either case. -/
def isHexDigit (c : Char) : Bool :=
  isDigit c || ('a' ≤ c && c ≤ 'f') || ('A' ≤ c && c ≤ 'F')

/-- The natural number that digits denote in a base. -/
def digitsValue (base : Nat) (cs : List Char) : Nat :=
  cs.foldl (fun n c => n * base + digitValue c) 0

/-- The number nearest to `± digits * 10 ^ power`.  Powers that are out of range of every finite number
are recognised by their size alone. -/
def ofDecimal (negative : Bool) (digits : Nat) (power : Int) : Number :=
  if digits = 0 then .finite negative 0 minExponent
  else if 400 < power then .infinite negative
  else if power + ((Nat.toDigits 10 digits).length : Int) < -400 then .finite negative 0 minExponent
  else if 0 ≤ power then ofRatio negative (digits * Nat.pow 10 power.toNat) 1
  else ofRatio negative digits (Nat.pow 10 (-power).toNat)

/-- A sign in front of a numeral. -/
def splitSign : List Char → Bool × List Char
  | '-' :: cs => (true, cs)
  | '+' :: cs => (false, cs)
  | cs => (false, cs)

/-- The parts of a numeral: digits before the point, digits behind it, and the power of ten. -/
def readParts (cs : List Char) : List Char × List Char × Int × List Char :=
  let whole := cs.takeWhile isDigit
  let rest := cs.dropWhile isDigit
  let (fraction, rest) :=
    match rest with
    | '.' :: more => (more.takeWhile isDigit, more.dropWhile isDigit)
    | _ => ([], rest)
  match rest with
  | c :: more =>
    if c == 'e' || c == 'E' then
      let (negative, more) := splitSign more
      let power := more.takeWhile isDigit
      if power.isEmpty then (whole, fraction, 0, rest)
      else
        let n : Int := digitsValue 10 power
        (whole, fraction, if negative then -n else n, more.dropWhile isDigit)
    else (whole, fraction, 0, rest)
  | [] => (whole, fraction, 0, [])

/-- The number that a numeral at the start of the text denotes, and the text behind it. -/
def readLeading (cs : List Char) : Number × List Char :=
  let (negative, body) := splitSign cs
  let (whole, fraction, power, rest) := readParts body
  (ofDecimal negative (digitsValue 10 (whole ++ fraction)) (power - fraction.length), rest)

/-- The number that a numeral denotes. -/
def ofNumeral (cs : List Char) : Number :=
  (readLeading cs).1

end Number

end EntitySchema
