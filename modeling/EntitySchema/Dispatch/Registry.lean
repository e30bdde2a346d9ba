import EntitySchema.Dispatch.ScalarCodec
import EntitySchema.Dispatch.Serializer
import EntitySchema.Dispatch.Traced

/-!
# The registry of serializers

A registry has the serializer of the program itself, the root, and those of the modules it uses.  A
type is decoded by the module that knows it: a class is looked for in the modules and then in the root;
a name with a module in front belongs to that module alone; any other name is looked for in the root
and then in the modules.  What no module knows may be a scalar or a collection, whose elements are
decoded by the registry again.
-/

namespace EntitySchema

/-- The first string that occurs before in a list. -/
def firstRepeated (seen : List String) : List String → Option String
  | [] => none
  | s :: rest => if seen.contains s then some s else firstRepeated (seen ++ [s]) rest

/-- The serializers of a program and of the modules it uses. -/
structure Registry where
  root : Serializer
  modules : List Serializer

namespace Registry

/-- The registry of serializers whose modules have different names; otherwise the repeated name. -/
def build (root : Serializer) (modules : List Serializer) : Except String Registry :=
  match firstRepeated [root.moduleName] (modules.map (·.moduleName)) with
  | some name => .error name
  | none => .ok ⟨root, modules⟩

/-- The wording of a repeated name. -/
def repeatedModule (name : String) : String :=
  "The module \"" ++ name ++ "\" is registered more than once."

/-! ### Where a type is looked for -/

/-- The name of a class behind the name of its module and a point. -/
def localName? (moduleName : String) (className : String) : Option String :=
  let start := moduleName.toList ++ ['.']
  if start.isPrefixOf className.toList then
    some (String.ofList (className.toList.drop start.length))
  else none

/-- The better of two modules in front of a name: the one with the longer name. -/
def longer (best : Option (Serializer × String)) (m : Serializer) (className : String) :
    Option (Serializer × String) :=
  match localName? m.moduleName className with
  | none => best
  | some name =>
    match best with
    | none => some (m, name)
    | some (b, _) => if b.moduleName.length < m.moduleName.length then some (m, name) else best

/-- The module in front of the name of a class, and the rest of the name. -/
def moduleOf? (r : Registry) (className : String) : Option (Serializer × String) :=
  r.modules.foldl (fun best m => longer best m className) none

/-- A serializer and the type to ask it for. -/
structure Candidate where
  serializer : Serializer
  type : RequestedType

/-- The serializers to ask for a type, in order. -/
def candidates (r : Registry) (type : RequestedType) (token : Option TypeToken) : List Candidate :=
  match token with
  | none => (r.modules ++ [r.root]).map fun s => ⟨s, type⟩
  | some t =>
    match r.moduleOf? t.name with
    | some (m, name) => [⟨m, .text { t with name }.text⟩]
    | none => (r.root :: r.modules).map fun s => ⟨s, type⟩

/-- Asks candidates one after the other until one knows the type. -/
def ask (data : Value) : List Candidate → Traced (Option Value)
  | [] => .done none
  | c :: cs =>
    (Traced.asked (.deserialize c.serializer.moduleName c.type)
        (c.serializer.deserialize data c.type)).andThen
      fun answer =>
        match answer with
        | some v => .done (some v)
        | none => ask data cs

/-! ### Built-in types -/

/-- The scalar and nullability of the elements if a token is a set of scalars. -/
def setOfScalars? (t : TypeToken) : Option (WireScalar × Bool) :=
  match t.name, t.generics with
  | "Set", [⟨name, nullable, []⟩] => (WireScalar.ofName? name).map fun s => (s, nullable)
  | _, _ => none

/-- Decodes an element that is a scalar. -/
def decodeScalarElement (scalar : WireScalar) (nullable : Bool) (item : Value) : Except Failure Value :=
  if nullable && item.isMissing then .ok .null else scalar.decode item

/-- Decodes a set of scalars. -/
def decodeSetOfScalars (t : TypeToken) (scalar : WireScalar) (nullable : Bool) (data : Value) :
    Except Failure Value :=
  if t.nullable && data.isMissing then .ok .null
  else
    match data with
    | .list items => (items.mapM (decodeScalarElement scalar nullable)).map Value.setOf
    | _ => .error (.ofShape ("Expected a list for \"" ++ t.text ++ "\"."))

/-- How an element is decoded. -/
abbrev Decoder := Value → Traced Value

/-- Decodes values one after the other. -/
def decodeAll (decode : Decoder) : List Value → Traced (List Value)
  | [] => .done []
  | v :: vs =>
    (decode v).andThen fun w => (decodeAll decode vs).andThen fun ws => .done (w :: ws)

/-- Decodes the entries of an object one after the other. -/
def decodeFields (decode : Decoder) : List (String × Value) → Traced (List (Value × Value))
  | [] => .done []
  | (key, v) :: fields =>
    (decode v).andThen fun w =>
      (decodeFields decode fields).andThen fun es => .done ((.string key, w) :: es)

/-- Decodes a list of keys and values one after the other. -/
def decodePairs (t : TypeToken) (decodeKey decodeValue : Decoder) :
    List Value → Traced (List (Value × Value))
  | [] => .done []
  | item :: items =>
    match item.get? "k", item.get? "v" with
    | some k, some v =>
      (decodeKey k).andThen fun k =>
        (decodeValue v).andThen fun v =>
          (decodePairs t decodeKey decodeValue items).andThen fun es => .done ((k, v) :: es)
    | _, _ => .ofExcept (.error (.ofShape ("Expected a \x7b k, v \x7d entry for \"" ++ t.text ++ "\".")))

/-- Decodes a list or a set. -/
def decodeItems (t : TypeToken) (decode : Decoder) (collect : List Value → Value) : Decoder
  | .list items => (decodeAll decode items).andThen fun vs => .done (collect vs)
  | _ => .ofExcept (.error (.ofShape ("Expected a list for \"" ++ t.text ++ "\".")))

/-- Decodes a map: an object if the keys are strings, a list of keys and values otherwise. -/
def decodeMap (t key : TypeToken) (decodeKey decodeValue : Decoder) (data : Value) : Traced Value :=
  if key.name == "String" && !key.nullable then
    match data.fields? with
    | some fields => (decodeFields decodeValue fields).andThen fun es => .done (Value.mapOf es)
    | none => .ofExcept (.error (.ofShape ("Expected an object for \"" ++ t.text ++ "\".")))
  else
    match data with
    | .list items => (decodePairs t decodeKey decodeValue items).andThen fun es => .done (Value.mapOf es)
    | _ => .ofExcept (.error (.ofShape ("Expected a list of entries for \"" ++ t.text ++ "\".")))

/-- Decodes data whose type no module knows, given the decoders of the type arguments. -/
def decodeBuiltin (t : TypeToken) (decoders : List Decoder) (requested : String) : Decoder := fun data =>
  if t.nullable && data.isMissing then .done .null
  else
    match t.generics, decoders with
    | [], _ =>
      match WireScalar.ofName? t.name with
      | some s => .ofExcept (s.decode data)
      | none => .fail (.unknownType requested)
    | [_], [decode] =>
      if t.name == "List" then decodeItems t decode .list data
      else if t.name == "Set" then decodeItems t decode Value.setOf data
      else .fail (.unknownType requested)
    | [key, _], [decodeKey, decodeValue] =>
      if t.name == "Map" then decodeMap t key decodeKey decodeValue data
      else .fail (.unknownType requested)
    | _, _ => .fail (.unknownType requested)

/-! ### Decoding -/

mutual

/-- Decodes data as the type of a token, whose text is asked for. -/
def decode (r : Registry) (t : TypeToken) (requested : String) (data : Value) : Traced Value :=
  match t with
  | ⟨name, nullable, generics⟩ =>
    let t : TypeToken := ⟨name, nullable, generics⟩
    match setOfScalars? t with
    | some (scalar, nullableElement) => .ofExcept (decodeSetOfScalars t scalar nullableElement data)
    | none =>
      (ask data (r.candidates (.text requested) (some t))).andThen fun answer =>
        match answer with
        | some v => .done v
        | none => decodeBuiltin t (decoders r generics) requested data

/-- The decoders of type arguments. -/
def decoders (r : Registry) : List TypeToken → List Decoder
  | [] => []
  | t :: ts => decode r t t.text :: decoders r ts

end

/-- Decodes data as the type that is asked for. -/
def deserialize (r : Registry) (data : Value) (type : RequestedType) : Traced Value :=
  match type, type.token? with
  | .text s, some t => r.decode t s data
  | type, _ =>
    (ask data (r.candidates type none)).andThen fun answer =>
      match answer with
      | some v => .done v
      | none => .fail (.unknownType type.describe)

/-- Decodes data as an instance of a class. -/
def deserializeModel (r : Registry) (classes : ClassHierarchy) (data : Value) (id : String) : Traced Value :=
  (r.deserialize data (.class id)).andThen fun v =>
    if v.isInstance classes id then .done v
    else
      .ofExcept (.error (.ofShape
        ("The deserializer of \"" ++ id ++ "\" returned a value of another type.")))

/-- The answer of a module that has to know the class of an envelope. -/
def known (className : String) : Option Value → Traced Value
  | some v => .done v
  | none => .fail (.unknownType className)

/-- Decodes data by the name of its class. -/
def deserializeByClassName (r : Registry) (e : Envelope) : Traced Value :=
  let askModule (m : Serializer) (name : String) : Traced (Option Value) :=
    Traced.asked (.deserializeByClassName m.moduleName name) (m.deserializeByClassName ⟨name, e.data⟩)
  match r.moduleOf? e.className with
  | some (m, name) => (askModule m name).andThen (known e.className)
  | none =>
    (askModule r.root e.className).andThen fun answer =>
      match answer, WireScalar.ofName? e.className with
      | some v, _ => .done v
      | none, some s => .ofExcept (s.decode e.data)
      | none, none => .fail (.unknownType e.className)

/-! ### Encoding -/

/-- Asks a serializer for the name of the class of a value. -/
def askClassName (s : Serializer) (v : Value) : Traced (Option String) :=
  Traced.asked (.classNameForObject s.moduleName) (.ok (s.classNameForObject v))

/-- Asks a serializer to encode a value. -/
def askEncode (s : Serializer) (v : Value) : Traced (Option Value) :=
  Traced.asked (.encode s.moduleName) (s.encode v)

/-- The name of a class of a module. -/
def qualified (m : Serializer) (className : String) : String :=
  m.moduleName ++ "." ++ className

/-- The name of the class of a value among modules. -/
def classNameAmong (v : Value) : List Serializer → Traced (Option String)
  | [] => .done none
  | m :: ms =>
    (askClassName m v).andThen fun answer =>
      match answer with
      | some className => .done (some (qualified m className))
      | none => classNameAmong v ms

/-- The name of the class of a value. -/
def classNameForObject (r : Registry) (v : Value) : Traced (Option String) :=
  (askClassName r.root v).andThen fun answer =>
    match answer, WireScalar.ofValue? v with
    | some className, _ => .done (some className)
    | none, some s => .done (some s.name)
    | none, none => classNameAmong v r.modules

/-- The envelope of a value if a serializer knows it. -/
def encodeWith (s : Serializer) (name : String → String) (v : Value) : Traced (Option Envelope) :=
  (askClassName s v).andThen fun answer =>
    match answer with
    | none => .done none
    | some className =>
      (askEncode s v).andThen fun encoded => .done (encoded.map fun data => ⟨name className, data⟩)

/-- The envelope of a value if one of the modules knows it. -/
def encodeAmong (v : Value) : List Serializer → Traced (Option Envelope)
  | [] => .done none
  | m :: ms =>
    (encodeWith m (qualified m) v).andThen fun answer =>
      match answer with
      | some e => .done (some e)
      | none => encodeAmong v ms

/-- Encodes a value with the name of its class. -/
def encodeWithClassName (r : Registry) (v : Value) : Traced Envelope :=
  (encodeWith r.root id v).andThen fun answer =>
    match answer, WireScalar.ofValue? v with
    | some e, _ => .done e
    | none, some s => (Traced.ofExcept (WireScalar.encode v)).andThen fun data => .done ⟨s.name, data⟩
    | none, none =>
      (encodeAmong v r.modules).andThen fun answer =>
        match answer with
        | some e => .done e
        | none => .fail (.unknownValue v.kindName)

/-! ### Tables -/

/-- Asks candidates for the table of a type until one has it. -/
def askTable : List Candidate → Traced (Option Table)
  | [] => .done none
  | c :: cs =>
    (Traced.asked (.tableForType c.serializer.moduleName c.type)
        (.ok (c.serializer.tableForType c.type))).andThen
      fun answer =>
        match answer with
        | some t => .done (some t)
        | none => askTable cs

/-- The table of the type that is asked for. -/
def tableForType (r : Registry) (type : RequestedType) : Traced (Option Table) :=
  askTable (r.candidates type type.token?)

/-- The tables of all modules, those of the root last. -/
def allTables (r : Registry) : List Table :=
  r.modules.flatMap (·.tables) ++ r.root.tables

end Registry

end EntitySchema
