import EntitySchema.Yaml.Lexeme.Basic

/-!
# The layout of a document

Placed lexemes are grouped into parts: scalars, block collections by their indentation and flow
collections by their brackets.  A part keeps every lexeme, in the places where the text has them, so
all positions of nodes and problems can be read off it.  An entry of a collection has the lexemes in
front of its key or item, the key, the lexemes between key and value, and the value; which of these
are there depends on the collection.
-/

namespace EntitySchema

namespace Yaml

/-- One entry of a collection whose parts are of type `α`. -/
structure Entry (α : Type) where
  start : List Lexeme := []
  key : Option α := none
  separator : Option (List Lexeme) := none
  value : Option α := none
  hasExplicitKey : Bool := false
  deriving Repr, Inhabited

/-- A part of a document. -/
inductive Part where
  /-- An alias, or a plain or quoted scalar, with the lexemes up to the end of its line. -/
  | flat (kind : Kind) (offset indent : Nat) (text : List Char) (tail : Option (List Lexeme))
  /-- A block scalar: its header and its lines. -/
  | block (offset indent : Nat) (header : List Lexeme) (text : List Char)
  | blockMap (offset indent : Nat) (entries : List (Entry Part))
  | blockSequence (offset indent : Nat) (entries : List (Entry Part))
  /-- A flow collection; the tail starts with the closing bracket. -/
  | flow (offset indent : Nat) (opening : Lexeme) (entries : List (Entry Part)) (tail : List Lexeme)
  /-- A sequence indicator that may not stand where it is. -/
  | misplaced (offset indent : Nat) (text : List Char)
  deriving Repr, Inhabited

namespace Part

/-- The offset at which a part starts. -/
def offset : Part → Nat
  | .flat _ o .. | .block o .. | .blockMap o .. | .blockSequence o .. | .flow o .. | .misplaced o .. => o

/-- Whether a part is a scalar or collection that may be an implicit key. -/
def isFlat : Part → Bool
  | .flat .. => true
  | .flow .. => true
  | _ => false

/-- Whether a part is a block collection. -/
def isBlockCollection : Part → Bool
  | .blockMap .. => true
  | .blockSequence .. => true
  | _ => false

/-- The lexemes that follow a part on its line, for the parts that keep them. -/
def tail? : Part → Option (List Lexeme)
  | .flat _ _ _ _ t => t
  | .flow _ _ _ _ t => some t
  | _ => none

/-- Adds lexemes behind a part. -/
def addTail (p : Part) (ls : List Lexeme) : Part :=
  match p with
  | .flat k o i t tail => .flat k o i t (some (tail.getD [] ++ ls))
  | .flow o i opening es tail => .flow o i opening es (tail ++ ls)
  | p => p

end Part

/-- What stands at the outermost level of a text. -/
inductive TopLevel where
  | directive (l : Lexeme)
  | document (offset : Nat) (start : List Lexeme) (value : Option Part) (tail : Option (List Lexeme))
  | documentEnd (offset : Nat) (text : List Char) (tail : Option (List Lexeme))
  /-- A lexeme that may not stand between documents. -/
  | stray (l : Lexeme)
  /-- A lexeme that may not stand in a document. -/
  | strayInDocument (l : Lexeme)
  /-- A piece that is no lexeme. -/
  | unknown (l : Lexeme)
  deriving Repr, Inhabited

end Yaml

end EntitySchema
