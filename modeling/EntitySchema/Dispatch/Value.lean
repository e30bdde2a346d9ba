import EntitySchema.Calendar
import EntitySchema.Json.Writer

/-!
# Values

The values that are sent and received: those of JSON, and whole numbers of any size, instants, sets,
maps, instances of classes, and classes themselves.  Members of a set and keys of a map are the same if
they are the same scalar.  A value says what is in a collection or an instance but not which one it is, and
each one is taken to be made anew where it occurs: collections and instances are never the same.
-/

namespace EntitySchema

/-- A value. -/
inductive Value where
  /-- No value at all. -/
  | absent
  | null
  | bool (b : Bool)
  | number (x : Number)
  | bigint (n : Int)
  | string (s : String)
  /-- An instant, or a date that is none. -/
  | date (instant : Option Int)
  | list (items : List Value)
  | object (entries : List (String × Value))
  | set (items : List Value)
  | map (entries : List (Value × Value))
  /-- An instance of a class, with fields of its own. -/
  | model (classId : String) (fields : List (String × Value))
  /-- A class. -/
  | class (id : String)
  deriving Repr, Inhabited

namespace Value

/-- Whether a value is null or absent. -/
def isMissing : Value → Bool
  | .absent | .null => true
  | _ => false

/-- Whether two values are the same member of a set. -/
def same : Value → Value → Bool
  | .absent, .absent => true
  | .null, .null => true
  | .bool a, .bool b => a == b
  | .number .nan, .number .nan => true
  | .number x, .number y => x.same y
  | .bigint m, .bigint n => m == n
  | .string s, .string t => s == t
  | .class a, .class b => a == b
  | _, _ => false

/-- A value as a member of a set or a key of a map: there is no negative zero among them. -/
def asKey : Value → Value
  | .number x => if x.same Number.zero then .number Number.zero else .number x
  | v => v

/-- The values with one more, unless it is there. -/
def insertInto (items : List Value) (v : Value) : List Value :=
  if items.any (same v) then items else items ++ [v.asKey]

/-- The set of values, in the order in which they first occur. -/
def setOf (items : List Value) : Value :=
  .set (items.foldl insertInto [])

/-- The entries with one more; a repeated key keeps its place and takes the later value. -/
def putInto (entries : List (Value × Value)) (e : Value × Value) : List (Value × Value) :=
  if entries.any (fun f => same e.1 f.1) then
    entries.map fun f => if same e.1 f.1 then (f.1, e.2) else f
  else entries ++ [(e.1.asKey, e.2)]

/-- The map of entries. -/
def mapOf (entries : List (Value × Value)) : Value :=
  .map (entries.foldl putInto [])

/-- The named entries of a value that is an object of some kind; nothing else has entries.  The entries of an
instance are its own fields. -/
def fields? : Value → Option (List (String × Value))
  | .object entries => some entries
  | .model _ fields => some fields
  | .date _ | .set _ | .map _ => some []
  | _ => none

/-- The entry with a name. -/
def get? (v : Value) (key : String) : Option Value :=
  (v.fields?.bind (·.find? (·.1 == key))).map (·.2)

mutual

/-- The text of a value in a message. -/
def display : Value → String
  | .absent => "undefined"
  | .null => "null"
  | .bool b => if b then "true" else "false"
  | .number x => x.text
  | .bigint n => toString n
  | .string s => s
  | .date (some t) => Calendar.longText t
  | .date none => "Invalid Date"
  | .list items => String.intercalate "," (displayItems items)
  | .object _ | .model .. => "[object Object]"
  | .set _ => "[object Set]"
  | .map _ => "[object Map]"
  | .class id => id

/-- The texts of the items of a list; a missing item is empty. -/
def displayItems : List Value → List String
  | [] => []
  | v :: vs => (if v.isMissing then "" else display v) :: displayItems vs

end

/-- The text of a value in a message, with a string in quotes. -/
def shown : Value → String
  | .string s => Json.quote s
  | v => v.display

/-- The name of what an object has under `constructor`. -/
def constructorName : Value → String
  | .class id => id
  | v =>
    match v.get? "name" with
    | none | some .null | some .absent => "Object"
    | some name => name.display

/-- The name of the kind of a value that no serializer knows. -/
def kindName : Value → String
  | .absent => "undefined"
  | .null => "null"
  | .bool _ => "boolean"
  | .number _ => "number"
  | .bigint _ => "bigint"
  | .string _ => "string"
  | .class _ => "function"
  | .date _ => "Date"
  | .list _ => "Array"
  | .set _ => "Set"
  | .map _ => "Map"
  | v@(.model classId _) => ((v.get? "constructor").map constructorName).getD classId
  | v@(.object _) => ((v.get? "constructor").map constructorName).getD "Object"

end Value

/-! ### Classes -/

/-- A class and the class that it extends, if any. -/
structure ClassDecl where
  id : String
  parent : Option String := none
  deriving DecidableEq, Repr

/-- The classes, the latest first.  A class extends only classes behind it. -/
abbrev ClassHierarchy := List ClassDecl

/-- Whether a class is another one or extends it, directly or not. -/
def ClassHierarchy.extends (h : ClassHierarchy) (id ancestor : String) : Bool :=
  id == ancestor ||
    match h with
    | [] => false
    | c :: cs =>
      if c.id == id then
        match c.parent with
        | some parent => ClassHierarchy.extends cs parent ancestor
        | none => false
      else ClassHierarchy.extends cs id ancestor

/-- Whether a value is an instance of a class. -/
def Value.isInstance (h : ClassHierarchy) (v : Value) (id : String) : Bool :=
  match v with
  | .model classId _ => ClassHierarchy.extends h classId id
  | _ => false

end EntitySchema
