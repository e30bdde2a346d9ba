import EntitySchema.Entity.Basic

/-!
# Checking indexes

An index is kept if its fields are columns of the table, its kind exists and fits them, and its distance
function and parameters fit the kind.  An index of a single vector is an HNSW index, any other one a
B-tree, unless it says otherwise.
-/

namespace EntitySchema

namespace IndexCheck

/-- The distance functions for a vector type. -/
def distanceFunctionsFor (typeName : String) : List DistanceFunction :=
  if typeName == "Bit" then [.hamming, .jaccard] else [.l2, .innerProduct, .cosine, .l1]

/-- The distance function of an index of a vector type that names none. -/
def defaultDistanceFunction (typeName : String) : DistanceFunction :=
  if typeName == "Bit" then .hamming else .l2

/-- The parameters of an index kind, if it has any. -/
def parameterNames? : IndexType → Option (List String)
  | .hnsw => some ["m", "ef_construction"]
  | .ivfflat => some ["lists"]
  | _ => none

/-- An issue about an index. -/
def issueAt (d : IndexDraft) (span : Span) (message : String) : Issue :=
  { message, code := .invalidIndex, category := .index, span := some span, pointer := some d.pointer }

/-! ### Fields -/

/-- The message about what is wrong with a listed field, if anything is, and the field otherwise. -/
def checkField (d : IndexDraft) (columns : List FieldDraft) (seen : List String) (name : String) :
    Except String FieldDraft :=
  let usedBy (what : String) : String :=
    "The field \"" ++ name ++ "\" used by index \"" ++ d.name ++ "\" " ++ what ++ "."
  if seen.contains name then
    .error ("The field \"" ++ name ++ "\" is listed more than once in index \"" ++ d.name ++ "\".")
  else
    match columns.find? (·.name == name) with
    | none => .error (usedBy "does not exist")
    | some f => if f.shouldPersist then .ok f else .error (usedBy "is not persisted")

/-- The fields of an index, and what is wrong with them. -/
def checkFields (d : IndexDraft) (columns : List FieldDraft) (seen : List String) :
    List (Spanned String) → List FieldDraft × List Issue
  | [] => ([], [])
  | r :: rs =>
    let (fields, issues) := checkFields d columns (r.value :: seen) rs
    match checkField d columns seen r.value with
    | .ok f => (f :: fields, issues)
    | .error message => (fields, issueAt d r.span message :: issues)

/-! ### Kinds -/

/-- The kind of an index with the given fields. -/
def kindOf (d : IndexDraft) (fields vectors : List FieldDraft) : Except Issue IndexType :=
  match d.type with
  | none => .ok (if fields.length == 1 && vectors.length == 1 then .hnsw else .btree)
  | some type =>
    match IndexType.ofName? type.value with
    | some kind => .ok kind
    | none =>
      .error (issueAt d type.span
        ("The index type \"" ++ type.value ++ "\" is not valid. Valid types are " ++
          quoteList (indexTypes.map IndexType.name) ++ "."))

/-- What is wrong with the fields for an index of vectors. -/
def vectorIssues (d : IndexDraft) (kind : IndexType) (vectors : List FieldDraft) : List Issue :=
  (if d.fields.length != 1 || vectors.isEmpty then
    [issueAt d d.fieldsSpan
      ("The \"" ++ kind.name ++ "\" index \"" ++ d.name ++ "\" must contain exactly one vector field.")]
    else []) ++
  (if d.unique then
    [issueAt d d.nameSpan ("The vector index \"" ++ d.name ++ "\" cannot be unique.")]
    else [])

/-- What is wrong with the fields for any other index. -/
def scalarIssues (d : IndexDraft) (vectors : List FieldDraft) : List Issue :=
  vectors.map fun f =>
    issueAt d (((d.fields.find? (·.value == f.name)).map (·.span)).getD d.fieldsSpan)
      ("The vector field \"" ++ f.name ++ "\" can only be indexed with \"hnsw\" or \"ivfflat\".")

/-- What is wrong with the fields for the kind of the index. -/
def kindIssues (d : IndexDraft) (kind : IndexType) (vectors : List FieldDraft) : List Issue :=
  if kind.isVector then vectorIssues d kind vectors else scalarIssues d vectors

/-! ### Distance functions and parameters -/

/-- The distance function of an index. -/
def distanceFunctionOf (d : IndexDraft) (kind : IndexType) (vector : Option FieldDraft) :
    Option DistanceFunction × List Issue :=
  match d.distanceFunction with
  | none =>
    (if kind.isVector then vector.map fun f => defaultDistanceFunction f.type.name else none, [])
  | some function =>
    if !kind.isVector then
      (none, [issueAt d function.span
        "The \"distanceFunction\" property is only allowed on vector indexes."])
    else
      match vector with
      | none => (none, [])
      | some f =>
        let allowed := distanceFunctionsFor f.type.name
        match (DistanceFunction.ofName? function.value).filter allowed.contains with
        | some g => (some g, [])
        | none =>
          (none, [issueAt d function.span
            ("The distance function \"" ++ function.value ++ "\" is not valid for \"" ++ f.type.name ++
              "\" fields. Valid values are " ++ quoteList (allowed.map DistanceFunction.name) ++ ".")])

/-- Whether a number is a positive whole number. -/
def isPositiveWhole (x : Number) : Bool :=
  x.toInt?.any (0 < ·)

/-- What is wrong with a parameter, if anything is. -/
def parameterIssue? (d : IndexDraft) (kind : IndexType) (allowed : List String) (p : IndexParameter) :
    Option Issue :=
  if !allowed.contains p.key then
    some (issueAt d p.span
      ("The parameter \"" ++ p.key ++ "\" is not valid for \"" ++ kind.name ++
        "\" indexes. Valid parameters are " ++ quoteList allowed ++ "."))
  else if !isPositiveWhole p.value then
    some (issueAt d p.span ("The parameter \"" ++ p.key ++ "\" must be a positive integer."))
  else none

/-- The entries with one more; a repeated key keeps its place and takes the later value. -/
def putParameter (entries : List (String × Number)) (p : IndexParameter) : List (String × Number) :=
  if entries.any (·.1 == p.key) then
    entries.map fun e => if e.1 == p.key then (p.key, p.value) else e
  else entries ++ [(p.key, p.value)]

/-- The parameters of an index. -/
def parametersOf (d : IndexDraft) (kind : IndexType) : Option (List (String × Number)) × List Issue :=
  match d.parameters with
  | none => (none, [])
  | some parameters =>
    match parameterNames? kind with
    | none =>
      (none, [issueAt d parameters.span "The \"parameters\" property is only allowed on vector indexes."])
    | some allowed =>
      (some (parameters.entries.foldl putParameter []),
        parameters.entries.filterMap (parameterIssue? d kind allowed))

/-! ### Indexes -/

/-- Checks an index against the fields of its class. -/
def check (columns : List FieldDraft) (d : IndexDraft) : Except (List Issue) IndexDef :=
  let (fields, fieldIssues) := checkFields d columns [] d.fields
  let vectors := fields.filter (·.type.category == .vector)
  match kindOf d fields vectors with
  | .error issue => .error (fieldIssues ++ [issue])
  | .ok kind =>
    let (distanceFunction, distanceIssues) := distanceFunctionOf d kind vectors.head?
    let (parameters, parameterIssues) := parametersOf d kind
    let issues := fieldIssues ++ kindIssues d kind vectors ++ distanceIssues ++ parameterIssues
    if issues.isEmpty then
      .ok
        { name := d.name
          fields := fields.map (·.name)
          type := kind
          unique := d.unique
          distanceFunction
          parameters }
    else .error issues

/-- Checks indexes one by one. -/
def checkAll (columns : List FieldDraft) : List IndexDraft → List IndexDef × List Issue
  | [] => ([], [])
  | d :: ds =>
    let (indexes, issues) := checkAll columns ds
    match check columns d with
    | .ok i => (i :: indexes, issues)
    | .error more => (indexes, more ++ issues)

/-- The entity with its indexes checked. -/
def checkEntity (e : Entity) : Entity × List Diagnostic :=
  match e.body with
  | .class c =>
    if c.indexes.isEmpty then (e, [])
    else
      let (indexes, issues) := checkAll c.fields c.indexes
      ({ e with body := .class { c with resolvedIndexes := some indexes } }, issues.map e.diagnostic)
  | _ => (e, [])

/-- The entities with their indexes checked. -/
def resolve (entities : List Entity) : List Entity × List Diagnostic :=
  let results := entities.map checkEntity
  (results.map (·.1), results.flatMap (·.2))

end IndexCheck

end EntitySchema
