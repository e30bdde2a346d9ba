/-!
# Failures

What can go wrong when a value is encoded or decoded: the value has the wrong shape or is out of range, its
type or its class is not known, or the code of a class or of a module raises an error of its own.
-/

namespace EntitySchema

/-- The kind of a failure. -/
inductive FailureKind where
  | shape | range
  /-- No module knows a type. -/
  | unknownType (requested : String)
  /-- No module knows the class of a value. -/
  | unknownValue (kindName : String)
  /-- Any other error, by its name. -/
  | other (name : String)
  deriving DecidableEq, Repr, Inhabited

/-- A failure to encode or decode a value.  Classes and modules may raise failures of every kind. -/
structure Failure where
  kind : FailureKind
  message : String
  deriving DecidableEq, Repr, Inhabited

namespace Failure

/-- The failure of a value of the wrong shape. -/
def ofShape (message : String) : Failure := ⟨.shape, message⟩

/-- The failure of a registry that has no module for a type. -/
def unknownType (requested : String) : Failure :=
  ⟨.unknownType requested, "No deserialization found for type \"" ++ requested ++ "\"."⟩

/-- The failure of a registry that has no module for a value. -/
def unknownValue (kindName : String) : Failure :=
  ⟨.unknownValue kindName, "No serialization found for values of type \"" ++ kindName ++ "\"."⟩

end Failure

end EntitySchema
