import EntitySchema.Number.Basic

/-!
# Type expressions

A type expression is a name with an optional module in front, an optional dimension, optional type
arguments and an optional question mark.  Every expression knows the offsets of its text.
-/

namespace EntitySchema

/-- A type expression. -/
structure TypeExpr where
  name : String
  moduleAlias : Option String
  nullable : Bool
  dimension : Option Number
  generics : List TypeExpr
  start : Nat
  stop : Nat
  deriving Repr, Inhabited

namespace TypeExpr

mutual

/-- The expression at a text that stands `n` units further. -/
def shift (n : Nat) (e : TypeExpr) : TypeExpr :=
  match e with
  | ⟨name, moduleAlias, nullable, dimension, generics, start, stop⟩ =>
    ⟨name, moduleAlias, nullable, dimension, shiftAll n generics, start + n, stop + n⟩

/-- The expressions at a text that stands `n` units further. -/
def shiftAll (n : Nat) : List TypeExpr → List TypeExpr
  | [] => []
  | e :: es => shift n e :: shiftAll n es

end

end TypeExpr

/-- What is wrong with the text of a type expression. -/
inductive TypeExprFault where
  | missingName
  | missingAlias
  | unclosedAlias (moduleAlias : String)
  | missingDimension (name : String)
  | unclosedDimension (name : String)
  | unclosedGenerics (name : String)
  | trailing (rest expression : String)
  deriving DecidableEq, Repr

/-- The wording of what is wrong. -/
def TypeExprFault.message : TypeExprFault → String
  | .missingName => "Expected a type name."
  | .missingAlias => "Expected a module alias after \"module:\"."
  | .unclosedAlias moduleAlias => "Expected \":\" after the module alias \"" ++ moduleAlias ++ "\"."
  | .missingDimension name => "Expected a dimension for \"" ++ name ++ "\"."
  | .unclosedDimension name => "Expected \")\" to close the dimension of \"" ++ name ++ "\"."
  | .unclosedGenerics name => "Expected \">\" to close the generic arguments of \"" ++ name ++ "\"."
  | .trailing rest expression => "Unexpected \"" ++ rest ++ "\" after type \"" ++ expression ++ "\"."

/-- What is wrong with the text of a type expression, and where. -/
structure TypeExprError where
  fault : TypeExprFault
  start : Nat
  stop : Nat
  deriving DecidableEq, Repr

end EntitySchema
