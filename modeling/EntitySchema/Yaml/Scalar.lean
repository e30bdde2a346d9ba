import EntitySchema.Number.Read
import EntitySchema.Number.Text

/-!
# Scalar values

The values that plain scalars denote: null, truth values, whole numbers in three bases, decimal
fractions, infinities and not-a-number.  Every other text denotes itself.
-/

namespace EntitySchema

namespace Yaml

/-- The value of a scalar. -/
inductive Scalar where
  | null
  | bool (b : Bool)
  | number (x : Number)
  | text (s : String)
  deriving DecidableEq, Repr, Inhabited

/-- The kinds of values that have a spelling of their own. -/
inductive ScalarType where
  | null | bool | int | float
  deriving DecidableEq, Repr

namespace Scalar

/-- A spelling that denotes null. -/
def null? (cs : List Char) : Option Scalar :=
  match String.ofList cs with
  | "" | "~" | "null" | "Null" | "NULL" => some .null
  | _ => none

/-- A spelling that denotes a truth value. -/
def bool? (cs : List Char) : Option Scalar :=
  match String.ofList cs with
  | "true" | "True" | "TRUE" => some (.bool true)
  | "false" | "False" | "FALSE" => some (.bool false)
  | _ => none

/-- Whether there is at least one character and all satisfy the test. -/
def allOf (test : Char → Bool) (cs : List Char) : Bool :=
  !cs.isEmpty && cs.all test

/-- A whole number: octal after `0o`, hexadecimal after `0x`, or decimal with an optional sign. -/
def int? (cs : List Char) : Option Scalar :=
  match cs with
  | '0' :: 'o' :: ds =>
    if allOf (fun c => '0' ≤ c && c ≤ '7') ds then
      some (.number (Number.ofRatio false (Number.digitsValue 8 ds) 1))
    else none
  | '0' :: 'x' :: ds =>
    if allOf Number.isHexDigit ds then
      some (.number (Number.ofRatio false (Number.digitsValue 16 ds) 1))
    else none
  | _ =>
    let (negative, ds) := Number.splitSign cs
    if allOf Number.isDigit ds then some (.number (Number.ofDecimal negative (Number.digitsValue 10 ds) 0))
    else none

/-- An infinity or not-a-number. -/
def special? (cs : List Char) : Option Scalar :=
  match String.ofList cs with
  | ".nan" | ".NaN" | ".NAN" => some (.number .nan)
  | ".inf" | ".Inf" | ".INF" | "+.inf" | "+.Inf" | "+.INF" => some (.number (.infinite false))
  | "-.inf" | "-.Inf" | "-.INF" => some (.number (.infinite true))
  | _ => none

/-- Digits with a point among them, or digits alone where an exponent follows. -/
def isFraction (needsPoint : Bool) (cs : List Char) : Bool :=
  let whole := cs.takeWhile Number.isDigit
  match cs.dropWhile Number.isDigit with
  | [] => !needsPoint && !whole.isEmpty
  | c :: more => c == '.' && more.all Number.isDigit && !(whole.isEmpty && more.isEmpty)

/-- A sign or none, followed by digits. -/
def isExponent (cs : List Char) : Bool :=
  allOf Number.isDigit (Number.splitSign cs).2

/-- A decimal fraction, with or without an exponent. -/
def float? (cs : List Char) : Option Scalar :=
  match special? cs with
  | some v => some v
  | none =>
    let body := (Number.splitSign cs).2
    let mantissa := body.takeWhile fun c => c != 'e' && c != 'E'
    let fits :=
      match body.drop mantissa.length with
      | [] => isFraction true body
      | _ :: power => isFraction false mantissa && isExponent power
    if fits then some (.number (Number.ofNumeral cs)) else none

/-- The value of the given type that a text denotes. -/
def ofType? (type : ScalarType) (cs : List Char) : Option Scalar :=
  match type with
  | .null => null? cs
  | .bool => bool? cs
  | .int => int? cs
  | .float => float? cs

/-- The value of a plain scalar. -/
def ofPlain (cs : List Char) : Scalar :=
  ((((null? cs).or (bool? cs)).or (int? cs)).or (float? cs)).getD (.text (String.ofList cs))

/-- Whether two scalars are the same key: they have the same type and the same value. -/
def sameKey : Scalar → Scalar → Bool
  | .null, .null => true
  | .bool a, .bool b => a == b
  | .number x, .number y => x.same y
  | .text s, .text t => s == t
  | _, _ => false

/-- The text of a scalar. -/
def toText : Scalar → String
  | .null => "null"
  | .bool b => if b then "true" else "false"
  | .number x => x.text
  | .text s => s

end Scalar

end Yaml

end EntitySchema
