import EntitySchema.Diagnostic.Issue
import EntitySchema.FieldExpr.Basic
import EntitySchema.Suggestion
import EntitySchema.TypeExpr.Reader

/-!
# Reading field expressions

The text is split at its commas; the first segment is the type, every further one an option.  A segment
that is no option is reported and left out, and so is an option that occurs a second time.
-/

namespace EntitySchema

namespace FieldExpr

/-- An issue about a segment. -/
def issueAt (s : Segment) (message : String) : ExprIssue :=
  ⟨message, s.start, s.stop⟩

/-- The issue of a word that occurs a second time. -/
def repeatedParameter (key : RelationKey) : String :=
  "The relation parameter \"" ++ key.word ++ "\" is declared more than once."

/-- Reads a parameter of a relation, with the parameters that occurred before. -/
def readParameter (seen : List RelationKey) (s : Segment) :
    List RelationKey × Except String RelationParameter :=
  if s.text.isEmpty then (seen, .error "Empty relation parameters are not allowed.")
  else
    let (word, value) := s.assignment
    match relationKeys.find? (·.word == word) with
    | none =>
      (seen, .error ("The relation parameter \"" ++ word ++ "\" is not valid. " ++
        Suggestion.hint word (relationKeys.map RelationKey.word)
          ("Valid parameters are " ++ quoteList (relationKeys.map RelationKey.word) ++ ".")))
    | some key =>
      if seen.contains key then (seen, .error (repeatedParameter key))
      else
        let seen := key :: seen
        match key, value with
        | .optional, none => (seen, .ok ⟨key, none, s⟩)
        | .optional, some _ =>
          (seen, .error "The relation parameter \"optional\" does not take a value.")
        | _, some v =>
          if v.isEmpty then
            (seen, .error ("The relation parameter \"" ++ key.word ++ "\" requires a value."))
          else (seen, .ok ⟨key, some v, s⟩)
        | _, none => (seen, .error ("The relation parameter \"" ++ key.word ++ "\" requires a value."))

/-- Reads the parameters of a relation one by one. -/
def readParameters (seen : List RelationKey) :
    List Segment → List RelationParameter × List ExprIssue
  | [] => ([], [])
  | s :: rest =>
    let (seen, result) := readParameter seen s
    let (parameters, issues) := readParameters seen rest
    match result with
    | .ok p => (p :: parameters, issues)
    | .error message => (parameters, issueAt s message :: issues)

/-- The text in front of the parameters of a relation. -/
def relationOpening : List Char := "relation(".toList

/-- Reads a relation. -/
def readRelation (s : Segment) : Option OptionBody × List ExprIssue :=
  if s.text == "relation" then (some (.relation []), [])
  else
    let cs := s.text.toList
    if cs.getLast? != some ')' then
      (none, [issueAt s "The \"relation\" annotation is missing a closing \")\"."])
    else
      let inner := (cs.drop relationOpening.length).dropLast
      let (parameters, issues) :=
        readParameters [] (Segment.split inner (s.start + relationOpening.length))
      (some (.relation parameters), issues)

/-- Reads an option that has a value. -/
def readAssignment (s : Segment) : Except String OptionBody :=
  let (word, value) := s.assignment
  let asDefault (key : DefaultKey) : Except String OptionBody :=
    match value with
    | some v =>
      if v.isEmpty then .error ("The \"" ++ word ++ "\" annotation requires a value.")
      else .ok (.default key v)
    | none => .error ("The \"" ++ word ++ "\" annotation requires a value.")
  match word with
  | "default" => asDefault .both
  | "defaultModel" => asDefault .model
  | "defaultPersist" => asDefault .persist
  | "scope" =>
    match fieldScopes.find? (fun scope => some scope.name == value) with
    | some scope => .ok (.scope scope)
    | none =>
      .error ("The \"scope\" value \"" ++ value.getD "" ++ "\" is not valid. Valid values are " ++
        quoteList (fieldScopes.map FieldScope.name) ++ ".")
  | _ =>
    .error ("The field option \"" ++ word ++ "\" is not valid. " ++
      Suggestion.hint word optionWords ("Valid options are " ++ quoteList optionWords ++ "."))

/-- Reads an option. -/
def readOption (s : Segment) : Option OptionBody × List ExprIssue :=
  if s.text.isEmpty then (none, [issueAt s "Empty annotations are not allowed."])
  else if s.text == "persist" then (some (.persist true), [])
  else if s.text == "!persist" then (some (.persist false), [])
  else if s.text == "relation" || relationOpening.isPrefixOf s.text.toList then readRelation s
  else
    match readAssignment s with
    | .ok body => (some body, [])
    | .error message => (none, [issueAt s message])

/-- Reads options one by one; `seen` are the words that occurred before. -/
def readOptions (seen : List String) : List Segment → List FieldOption × List ExprIssue
  | [] => ([], [])
  | s :: rest =>
    let (body, issues) := readOption s
    match body with
    | none =>
      let (options, more) := readOptions seen rest
      (options, issues ++ more)
    | some body =>
      if seen.contains body.word then
        let (options, more) := readOptions seen rest
        let repeated :=
          issueAt s ("The \"" ++ body.word ++ "\" annotation is declared more than once.")
        (options, issues ++ repeated :: more)
      else
        let (options, more) := readOptions (body.word :: seen) rest
        (⟨body, s⟩ :: options, issues ++ more)

/-- Reads the type in front of the options. -/
def readType (s : Segment) : Except ExprIssue TypeExpr :=
  if s.text.isEmpty then .error (issueAt s "The field must declare a type.")
  else
    match TypeExpr.read s.text with
    | .ok t => .ok (t.shift s.start)
    | .error e => .error ⟨e.fault.message, s.start + e.start, s.start + e.stop⟩

/-- Reads a field expression. -/
def read (text : String) : FieldExpr :=
  match Segment.split text.toList with
  | [] => ⟨none, ⟨"", 0, 0⟩, [], []⟩
  | typeSegment :: rest =>
    let (options, issues) := readOptions [] rest
    match readType typeSegment with
    | .ok t => ⟨some t, typeSegment, options, issues⟩
    | .error issue => ⟨none, typeSegment, options, issue :: issues⟩

end FieldExpr

end EntitySchema
