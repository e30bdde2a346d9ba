import EntitySchema.TypeDef
import EntitySchema.TypeExpr.Basic

/-!
# The type of a type expression

An expression has a type if at every node the name, the arguments and the dimension fit together.
Names that are not built in stay unresolved.  All problems are reported, the inner ones first.
-/

namespace EntitySchema

/-- Why an expression has no type. -/
inductive TypeProblemKind where
  | moduleOfBuiltin
  | genericsNotTaken
  | dimensionNotTaken
  | dimensionRequired
  | arity (n : Nat)
  deriving DecidableEq, Repr

/-- A problem at an expression. -/
structure TypeProblem where
  kind : TypeProblemKind
  name : String
  start : Nat
  stop : Nat
  deriving DecidableEq, Repr

/-- The wording of a problem. -/
def TypeProblem.message (p : TypeProblem) : String :=
  match p.kind with
  | .moduleOfBuiltin => "The built-in type \"" ++ p.name ++ "\" cannot be prefixed with a module."
  | .genericsNotTaken => "The type \"" ++ p.name ++ "\" does not take generic arguments."
  | .dimensionNotTaken => "The type \"" ++ p.name ++ "\" does not take a dimension."
  | .dimensionRequired =>
    "The type \"" ++ p.name ++ "\" requires a positive dimension, e.g. \"" ++ p.name ++ "(512)\"."
  | .arity n =>
    "The type \"" ++ p.name ++ "\" requires exactly " ++ toString n ++ " generic " ++
      (if n = 1 then "argument" else "arguments") ++ "."

/-- Whether a dimension is positive. -/
def isPositive : Number → Bool
  | .nan => false
  | .infinite negative => !negative
  | .finite negative m _ => !negative && m != 0

namespace TypeExpr

/-- What is wrong with the outermost node of an expression. -/
def problem? (e : TypeExpr) : Option TypeProblemKind :=
  match builtin? e.name with
  | none =>
    if !e.generics.isEmpty then some .genericsNotTaken
    else if e.dimension.isSome then some .dimensionNotTaken
    else none
  | some builtin =>
    if e.moduleAlias.isSome then some .moduleOfBuiltin
    else
      match builtin with
      | .scalar =>
        if !e.generics.isEmpty then some .genericsNotTaken
        else if e.dimension.isSome then some .dimensionNotTaken
        else none
      | .vector =>
        if !e.generics.isEmpty then some .genericsNotTaken
        else if e.dimension.any isPositive then none
        else some .dimensionRequired
      | .container arity =>
        if e.dimension.isSome then some .dimensionNotTaken
        else if e.generics.length != arity then some (.arity arity)
        else none

/-- The category of the type of an expression. -/
def category (e : TypeExpr) : TypeCategory :=
  ((builtin? e.name).map Builtin.category).getD .unresolved

/-- The type of an expression whose arguments have the given types. -/
def assemble (e : TypeExpr) (generics : List TypeDef) : TypeDef :=
  { name := e.name
    nullable := e.nullable
    generics
    category := e.category
    moduleAlias := e.moduleAlias
    dimension := e.dimension }

mutual

/-- The type of an expression, and the problems of its nodes. -/
def build (e : TypeExpr) : Option TypeDef × List TypeProblem :=
  match e with
  | ⟨name, moduleAlias, nullable, dimension, arguments, start, stop⟩ =>
    let e : TypeExpr := ⟨name, moduleAlias, nullable, dimension, arguments, start, stop⟩
    let (generics, problems) := buildAll arguments
    match e.problem?, generics with
    | some kind, _ => (none, problems ++ [⟨kind, name, start, stop⟩])
    | none, some generics => (some (e.assemble generics), problems)
    | none, none => (none, problems)

/-- The types of expressions if all of them have one. -/
def buildAll : List TypeExpr → Option (List TypeDef) × List TypeProblem
  | [] => (some [], [])
  | e :: es =>
    let (t, problems) := build e
    let (ts, more) := buildAll es
    (t.bind fun t => ts.map (t :: ·), problems ++ more)

end

end TypeExpr

end EntitySchema
