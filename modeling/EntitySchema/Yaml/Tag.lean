import EntitySchema.Yaml.Problem
import EntitySchema.Yaml.Scalar

/-!
# Tags

A tag is written with a handle and a suffix; directives may give handles a meaning.  The core tags
select the type of a scalar or collection, all others are reported and change nothing.
-/

namespace EntitySchema

namespace Yaml

/-- The meaning of tag handles. -/
abbrev TagHandles := List (String × String)

/-- The handles of a document without directives. -/
def defaultHandles : TagHandles := [("!!", "tag:yaml.org,2002:")]

/-- The meaning of a handle. -/
def handleMeaning? (handles : TagHandles) (handle : String) : Option String :=
  (handles.find? (·.1 == handle)).map (·.2)

/-- The bytes of a text with escaped bytes; `none` if an escape is broken. -/
def decodeEscapes : List Char → Option (List UInt8)
  | '%' :: a :: b :: cs =>
    if isHex a && isHex b then
      (decodeEscapes cs).map (UInt8.ofNat (Number.digitsValue 16 [a, b]) :: ·)
    else none
  | '%' :: _ => none
  | c :: cs => (decodeEscapes cs).map ((String.singleton c).toUTF8.toList ++ ·)
  | [] => some []

/-- The text with its escaped bytes decoded. -/
def decodeSuffix? (cs : List Char) : Option String :=
  (decodeEscapes cs).bind fun bytes => String.fromUTF8? ⟨bytes.toArray⟩

/-- The last exclamation mark and what is in front of it, and what is behind. -/
def splitTag (source : List Char) : List Char × List Char :=
  let suffix := (source.reverse.takeWhile (· != '!')).reverse
  (source.take (source.length - suffix.length), suffix)

/-- The full name of a tag, if it has one, and what is wrong with it. -/
def tagName (handles : TagHandles) (source : List Char) : Option String × List Fault :=
  match source with
  | ['!'] => (some "!", [])
  | '!' :: '<' :: rest =>
    let verbatim := rest.dropLast
    if verbatim == ['!'] || verbatim == ['!', '!'] then (none, [.verbatimTag source])
    else
      (some (String.ofList verbatim), if source.getLast? == some '>' then [] else [.unclosedVerbatimTag])
  | '!' :: _ =>
    let (handle, suffix) := splitTag source
    let missing := if suffix.isEmpty then [Fault.tagWithoutSuffix source] else []
    match handleMeaning? handles (String.ofList handle) with
    | some meaning =>
      match decodeSuffix? suffix with
      | some s => (some (meaning ++ s), missing)
      | none => (none, missing ++ [.malformedTag])
    | none =>
      if handle == ['!'] then (some (String.ofList source), missing)
      else (none, missing ++ [.unresolvedHandle source])
  | _ => (none, [.notATag source])

/-- The scalar types that a tag selects. -/
def scalarType? (name : String) : Option ScalarType :=
  match name with
  | "tag:yaml.org,2002:null" => some .null
  | "tag:yaml.org,2002:bool" => some .bool
  | "tag:yaml.org,2002:int" => some .int
  | "tag:yaml.org,2002:float" => some .float
  | _ => none

/-- The value of a scalar with the given text and tag.  A text that is no value of the type of its
tag, and a text with an unknown tag, denotes itself. -/
def taggedScalar (name : String) (cs : List Char) : Scalar × List Fault :=
  let itself := Scalar.text (String.ofList cs)
  if name == "!" || name == "tag:yaml.org,2002:str" then (itself, [])
  else
    match (scalarType? name).bind fun type => Scalar.ofType? type cs with
    | some v => (v, [])
    | none => (itself, [.unresolvedTag name])

/-- Whether a collection may have the tag. -/
def isCollectionTag (name : String) (isMap : Bool) : Bool :=
  name == "!" || name == (if isMap then "tag:yaml.org,2002:map" else "tag:yaml.org,2002:seq")

end Yaml

end EntitySchema
