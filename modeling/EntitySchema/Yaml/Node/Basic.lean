import EntitySchema.Yaml.Scalar

/-!
# Nodes of a document

The value of a document: scalars, maps and sequences, each with the offsets of its text.  The entries
of a map have nodes as keys; a key may lack a value.
-/

namespace EntitySchema

namespace Yaml

/-- The extent of a node: where it starts, where its value ends, and where what belongs to it ends. -/
structure Extent where
  start : Nat
  stop : Nat
  last : Nat
  deriving DecidableEq, Repr, Inhabited

/-- A node of a document. -/
inductive Node where
  | scalar (value : Scalar) (quoted : Bool) (extent : Extent)
  | alias (extent : Extent)
  | map (entries : List (Node × Option Node)) (extent : Extent)
  | sequence (items : List Node) (extent : Extent)
  deriving Repr, Inhabited

namespace Node

/-- The extent of a node. -/
def extent : Node → Extent
  | .scalar _ _ e | .alias e | .map _ e | .sequence _ e => e

/-- Whether two nodes are the same key. -/
def sameKey : Node → Node → Bool
  | .scalar a _ _, .scalar b _ _ => a.sameKey b
  | _, _ => false

end Node

end Yaml

end EntitySchema
