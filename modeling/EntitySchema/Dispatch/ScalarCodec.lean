import EntitySchema.DefaultValue
import EntitySchema.Dispatch.Failure
import EntitySchema.Dispatch.Value

/-!
# Scalars on the wire

The scalars that need no module: how they are decoded from JSON, how they are recognised among values,
and how they are encoded.
-/

namespace EntitySchema

/-- A scalar type of the wire. -/
inductive WireScalar where
  | string | int | double | bool | bigInt | dateTime
  deriving DecidableEq, Repr, Inhabited

namespace WireScalar

/-- The name of a scalar type. -/
def name : WireScalar → String
  | .string => "String"
  | .int => "int"
  | .double => "double"
  | .bool => "bool"
  | .bigInt => "BigInt"
  | .dateTime => "DateTime"

/-- The scalar types. -/
def all : List WireScalar := [.string, .int, .double, .bool, .bigInt, .dateTime]

/-- The scalar type with a name. -/
def ofName? (s : String) : Option WireScalar :=
  all.find? (·.name == s)

/-- The whole number of decimal digits with an optional minus sign. -/
def bigIntOf? (s : String) : Option Int :=
  let cs := s.toList
  if !DefaultValue.isInteger cs then none
  else
    match cs with
    | '-' :: digits => some (-(Number.digitsValue 10 digits : Int))
    | digits => some (Number.digitsValue 10 digits : Int)

/-- The scalar of a type that JSON data denotes. -/
def decode? : WireScalar → Value → Option Value
  | .string, .string s => some (.string s)
  | .int, .number x => if x.toInt?.isSome then some (.number x) else none
  | .double, .number x => some (.number x)
  | .bool, .bool b => some (.bool b)
  | .bigInt, .string s => (bigIntOf? s).map .bigint
  | .dateTime, .string s => (Calendar.read? s).map fun t => .date (some t)
  | _, _ => none

/-- Decodes a scalar of a type. -/
def decode (t : WireScalar) (data : Value) : Except Failure Value :=
  match t.decode? data with
  | some v => .ok v
  | none => .error (.ofShape ("Cannot decode " ++ data.shown ++ " as \"" ++ t.name ++ "\"."))

/-- The type of a scalar; a number without a fraction is an `int`. -/
def ofValue? : Value → Option WireScalar
  | .string _ => some .string
  | .number x => some (if x.toInt?.isSome then .int else .double)
  | .bool _ => some .bool
  | .bigint _ => some .bigInt
  | .date _ => some .dateTime
  | _ => none

/-- Encodes a scalar; any other value stays as it is. -/
def encode : Value → Except Failure Value
  | .bigint n => .ok (.string (toString n))
  | .date (some t) => .ok (.string (Calendar.text t))
  | .date none => .error ⟨.range, "Invalid time value"⟩
  | v => .ok v

end WireScalar

end EntitySchema
