import EntitySchema.Document.Basic
import EntitySchema.Entity.Basic
import EntitySchema.Entity.Naming
import EntitySchema.FieldExpr.Segment
import EntitySchema.Suggestion

/-!
# The indexes of a class

An entry of the `indexes` mapping becomes an index draft if its shape can be read.  Whether the index
fits the fields of the class is checked later.
-/

namespace EntitySchema

namespace IndexDraft

/-- The properties of an index. -/
def propertyNames : List String :=
  ["fields", "type", "unique", "distanceFunction", "parameters"]

/-- An issue about a part of an index. -/
def issueAt (name : String) (path : List String) (span : Span) (message : String) : Issue :=
  { message, code := .invalidIndex, category := .index
    span := some span, pointer := some (EntitySchema.pointer ("indexes" :: name :: path)) }

/-! ### Properties -/

/-- The message about a property that an index does not have. -/
def unknownProperty (property : String) : String :=
  "The \"" ++ property ++ "\" property is not allowed for an index. " ++
    Suggestion.hint property propertyNames
      ("Valid keys are \x7b" ++ String.intercalate ", " propertyNames ++ "\x7d.")

/-- The issues of the properties that an index does not have. -/
def unknownProperties (name : String) (m : Mapping) : List Issue :=
  (m.entries.filter fun e => !propertyNames.contains e.key).map fun e =>
    issueAt name [e.key] e.keySpan (unknownProperty e.key)

/-- The names in a list of items; all of them have to be names. -/
def namesInItems : List SequenceItem → Option (List (Spanned String))
  | [] => some []
  | i :: is =>
    match i.value.text? with
    | none => none
    | some text =>
      let name := Text.trimString text
      if name.isEmpty then none
      else (namesInItems is).map (⟨name, i.value.span⟩ :: ·)

/-- The names in a text, separated by commas; all of them have to be names. -/
def namesInText (lineStarts : List Nat) (text : String) (contentOffset : Option Nat) (nodeSpan : Span) :
    Option (List (Spanned String)) :=
  let segments := Segment.split text.toList
  if segments.any (·.text.isEmpty) then none
  else
    some (segments.map fun s =>
      ⟨s.text, match contentOffset with
        | some offset => spanAt lineStarts (offset + s.start) (offset + s.stop)
        | none => nodeSpan⟩)

/-- The names of the fields of an index; an index has at least one. -/
def fieldNames (lineStarts : List Nat) (value : DocNode) : Option (List (Spanned String)) :=
  let names :=
    match value with
    | .sequence items _ _ => namesInItems items
    | .scalar (.text text) contentOffset _ span => namesInText lineStarts text contentOffset span
    | _ => none
  names.filter (!·.isEmpty)

/-- A property that is a text, if it is there. -/
def textProperty (name key : String) (m : Mapping) : Option (Spanned String) × List Issue :=
  match m.find? key with
  | none => (none, [])
  | some e =>
    match e.value.text? with
    | some text => (some ⟨text, e.value.span⟩, [])
    | none => (none, [issueAt name [key] e.value.span ("The \"" ++ key ++ "\" property must be a string.")])

/-- Whether an index is unique. -/
def uniqueProperty (name : String) (m : Mapping) : Bool × List Issue :=
  match m.find? "unique" with
  | none => (false, [])
  | some e =>
    match e.value with
    | .scalar (.bool b) .. => (b, [])
    | value => (false, [issueAt name ["unique"] value.span "The \"unique\" property must be a bool."])

/-- The parameters among the entries of the `parameters` mapping. -/
def parameterEntries (name : String) : List MappingEntry → List IndexParameter × List Issue
  | [] => ([], [])
  | e :: es =>
    let (parameters, issues) := parameterEntries name es
    match e.value with
    | .scalar (.number x) .. => (⟨e.key, x, e.keySpan⟩ :: parameters, issues)
    | value =>
      (parameters,
        issueAt name ["parameters", e.key] value.span
          ("The index parameter \"" ++ e.key ++ "\" must be a number.") :: issues)

/-- The parameters of an index, if there are any. -/
def parametersProperty (name : String) (m : Mapping) : Option IndexParameters × List Issue :=
  match m.find? "parameters" with
  | none => (none, [])
  | some e =>
    match e.value with
    | .mapping p =>
      let (parameters, issues) := parameterEntries name p.entries
      (some ⟨parameters, e.keySpan⟩, issues)
    | value =>
      (none, [issueAt name ["parameters"] value.span "The \"parameters\" property must be a map."])

/-! ### Indexes -/

/-- The draft of an index whose properties are in the mapping; it has no draft if anything is wrong. -/
def ofMapping (lineStarts : List Nat) (name : String) (nameSpan : Span) (m : Mapping) :
    Option IndexDraft × List Issue :=
  let unknown := unknownProperties name m
  match m.find? "fields" with
  | none =>
    (none, unknown ++ [issueAt name [] nameSpan ("The index \"" ++ name ++ "\" must declare its \"fields\".")])
  | some fieldsEntry =>
    match fieldNames lineStarts fieldsEntry.value with
    | none =>
      (none, unknown ++ [issueAt name ["fields"] fieldsEntry.value.span
        ("The \"fields\" of index \"" ++ name ++
          "\" must be a comma separated string or a list of field names.")])
    | some fields =>
      let (type, typeIssues) := textProperty name "type" m
      let (distanceFunction, distanceIssues) := textProperty name "distanceFunction" m
      let (unique, uniqueIssues) := uniqueProperty name m
      let (parameters, parameterIssues) := parametersProperty name m
      let issues := unknown ++ typeIssues ++ distanceIssues ++ uniqueIssues ++ parameterIssues
      if issues.isEmpty then
        (some
          { name
            pointer := EntitySchema.pointer ["indexes", name]
            nameSpan
            fields
            fieldsSpan := fieldsEntry.value.span
            type
            unique
            distanceFunction
            parameters }, [])
      else (none, issues)

/-- The draft of an entry of the `indexes` mapping. -/
def ofEntry (lineStarts : List Nat) (entry : MappingEntry) : Option IndexDraft × List Issue :=
  if !Naming.isTableName entry.key then
    (none, [issueAt entry.key [] entry.keySpan
      ("The index name \"" ++ entry.key ++ "\" must be a snake_case_string.")])
  else
    match entry.value with
    | .mapping m => ofMapping lineStarts entry.key entry.keySpan m
    | value =>
      (none, [issueAt entry.key [] value.span ("The index \"" ++ entry.key ++ "\" must be a map.")])

/-- The drafts of the entries of the `indexes` mapping. -/
def ofEntries (lineStarts : List Nat) : List MappingEntry → List IndexDraft × List Issue
  | [] => ([], [])
  | e :: es =>
    let (draft, issues) := ofEntry lineStarts e
    let (drafts, more) := ofEntries lineStarts es
    (draft.toList ++ drafts, issues ++ more)

/-- The drafts of the value of the `indexes` property. -/
def ofNode (lineStarts : List Nat) (value : DocNode) : List IndexDraft × List Issue :=
  match value with
  | .mapping m => ofEntries lineStarts m.entries
  | value =>
    ([], [{ message := "The \"indexes\" property must be a map of index names to index definitions."
            code := .invalidIndex, category := .index
            span := some value.span, pointer := some (EntitySchema.pointer ["indexes"]) }])

end IndexDraft

end EntitySchema
