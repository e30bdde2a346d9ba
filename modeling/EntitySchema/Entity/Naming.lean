import EntitySchema.Number.Read

/-!
# Names

Which texts name a class, a field, a table or an index.
-/

namespace EntitySchema

namespace Naming

/-- The small letters `a` to `z`. -/
def isSmall (c : Char) : Bool := 'a' ≤ c && c ≤ 'z'

/-- The capital letters `A` to `Z`. -/
def isCapital (c : Char) : Bool := 'A' ≤ c && c ≤ 'Z'

/-- Letters and digits. -/
def isAlphanumeric (c : Char) : Bool := isSmall c || isCapital c || Number.isDigit c

/-- Whether a text is a character of the first kind followed by characters of the second one. -/
def consistsOf (first rest : Char → Bool) (s : String) : Bool :=
  match s.toList with
  | c :: cs => first c && cs.all rest
  | [] => false

/-- A class is named in letters and digits, starting with a capital. -/
def isClassName (s : String) : Bool := consistsOf isCapital isAlphanumeric s

/-- A field is named in letters and digits, starting with a small letter. -/
def isFieldName (s : String) : Bool := consistsOf isSmall isAlphanumeric s

/-- A table or an index is named in small letters, digits and underscores. -/
def isTableName (s : String) : Bool :=
  consistsOf (fun c => isSmall c || c == '_') (fun c => isSmall c || Number.isDigit c || c == '_') s

end Naming

end EntitySchema
