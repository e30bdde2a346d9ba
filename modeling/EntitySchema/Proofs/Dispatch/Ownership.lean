import Mathlib.Data.List.Find
import Mathlib.Tactic.Common
import EntitySchema.Proofs.Dispatch.RoundTrip
import EntitySchema.Proofs.Dispatch.TypeToken

/-!
# The owner of a type

Whether a module answers for a type does not depend on the data: it answers for its classes, for lists of
their instances and for maps from strings to them (`Knows`, `Recognises`), and for nothing else
(`exists_answer`, `no_answer`).  A registry asks one candidate after the other, so the first one that
recognises the type, its owner, decodes the data (`result_deserialize_of_owner`).  The search for a table has
the same candidates but goes on behind an owner that has none (`deserialize_and_tableForType`).
-/

namespace EntitySchema

/-- What a value holds: the items of a list, or the values of the entries of an object. -/
def Value.content : Value → List Value
  | .list items => items
  | v => (v.fields?.getD []).map (·.2)

section Failures

variable {α β : Type} {f : Failure}

end Failures

/-! ### What a module recognises -/

namespace ModelEntry

variable {models : List ModelEntry} {t : TypeToken} {e : ModelEntry}

lemma ofToken?_eq_some_iff : ofToken? models t = some e ↔ t.generics = [] ∧ named? models t.name = some e := by
  unfold ofToken?
  cases t.generics with
  | nil => simp
  | cons g gs => simp

/-- The tokens that a module answers for: its classes, lists of their instances, and maps from strings to
them. -/
inductive Knows (models : List ModelEntry) : TypeToken → Prop
  | class {t : TypeToken} {e : ModelEntry} (h : ofToken? models t = some e) : Knows models t
  | list {nullable : Bool} {element : TypeToken} {e : ModelEntry} (h : ofToken? models element = some e) :
      Knows models ⟨"List", nullable, [element]⟩
  | map {nullable : Bool} {key element : TypeToken} {e : ModelEntry} (hkey : key.name = "String")
      (h : ofToken? models element = some e) : Knows models ⟨"Map", nullable, [key, element]⟩

/-- The data of a class is decoded by its entry. -/
lemma decodeToken_class (h : ofToken? models t = some e) (moduleName : String) (data : Value) :
    decodeToken moduleName models t data = (e.decode t data).map some := by
  simp only [decodeToken, h]

/-- A token that is known is decoded, or the data is refused. -/
lemma decodeToken_of_knows (h : Knows models t) (moduleName : String) (data : Value) :
    ∃ outcome : Except Failure Value, decodeToken moduleName models t data = outcome.map some := by
  cases h with
  | «class» h => exact ⟨_, decodeToken_class h moduleName data⟩
  | @list nullable element e h =>
    have hlist : ofToken? models ⟨"List", nullable, [element]⟩ = none := rfl
    refine ⟨e.decodeList moduleName ⟨"List", nullable, [element]⟩ element data, ?_⟩
    simp only [decodeToken, hlist, h]
  | @map nullable key element e hkey h =>
    have hmap : ofToken? models ⟨"Map", nullable, [key, element]⟩ = none := rfl
    refine ⟨e.decodeMap moduleName ⟨"Map", nullable, [key, element]⟩ element data, ?_⟩
    simp only [decodeToken, hmap, hkey, h, beq_self_eq_true, if_true]

/-- No other token is decoded. -/
lemma decodeToken_of_not_knows (h : ¬ Knows models t) (moduleName : String) (data : Value) :
    decodeToken moduleName models t data = .ok none := by
  obtain ⟨name, nullable, generics⟩ := t
  unfold decodeToken
  split
  · rename_i e he
    exact absurd (.class he) h
  dsimp only
  split
  · split
    · rename_i e he
      exact absurd (.list he) h
    · rfl
  · split
    · rename_i hkey
      split
      · rename_i e he
        exact absurd (.map (eq_of_beq hkey) he) h
      · rfl
    · rfl
  · rfl

/-- A module knows no sets. -/
lemma not_knows_set {nullable : Bool} {element : TypeToken} : ¬ Knows models ⟨"Set", nullable, [element]⟩ := by
  intro h
  generalize ht : (⟨"Set", nullable, [element]⟩ : TypeToken) = t at h
  cases h with
  | «class» h =>
    rw [← ht] at h
    cases (ofToken?_eq_some_iff.mp h).1
  | list h => exact absurd (congrArg TypeToken.name ht) (by simp)
  | map hkey h => exact absurd (congrArg TypeToken.name ht) (by simp)

/-! ### What a module refuses -/

variable {data : Value} {element : TypeToken} {moduleName : String} {f : Failure}

end ModelEntry

namespace ModelModule

variable {classes : ClassHierarchy} {m : ModelModule} {type : RequestedType}

/-- A module recognises the classes that it registers and the texts of the tokens that it knows. -/
def Recognises (m : ModelModule) : RequestedType → Prop
  | .class id => m.Registers id
  | .text s => ∃ t, TypeToken.read? s = some t ∧ ModelEntry.Knows m.models t

lemma entry?_eq_none_of_not_recognises {id : String} (h : ¬ m.Recognises (.class id)) :
    m.models.find? (·.classId == id) = none :=
  not_not.mp (mt registers_iff_ne_none.mpr h)

/-- A module decodes data of a type that it recognises, or it refuses the data. -/
theorem exists_answer (h : m.Recognises type) (data : Value) :
    ∃ outcome : Except Failure Value, (m.serializer classes).deserialize data type = outcome.map some := by
  cases type with
  | «class» id =>
    obtain ⟨e, he⟩ := Option.ne_none_iff_exists'.mp (registers_iff_ne_none.mp h)
    have hentry : ModelEntry.ofType? m.models (.class id) = some e := he
    refine ⟨e.fromJson data, ?_⟩
    simp only [serializer, Serializer.ofModels, hentry]
  | text s =>
    obtain ⟨t, hread, hknows⟩ := h
    obtain ⟨outcome, hdecode⟩ := ModelEntry.decodeToken_of_knows hknows m.moduleName data
    refine ⟨outcome, ?_⟩
    simp only [serializer, Serializer.ofModels, hread, hdecode]

/-- It answers for no other type, whatever the data is. -/
theorem no_answer (h : ¬ m.Recognises type) (data : Value) :
    (m.serializer classes).deserialize data type = .ok none := by
  cases type with
  | «class» id =>
    have hentry : ModelEntry.ofType? m.models (.class id) = none := entry?_eq_none_of_not_recognises h
    simp only [serializer, Serializer.ofModels, hentry]
  | text s =>
    cases hread : TypeToken.read? s with
    | none => simp only [serializer, Serializer.ofModels, hread]
    | some t =>
      have hknows : ¬ ModelEntry.Knows m.models t := fun hknows => h ⟨t, hread, hknows⟩
      simp only [serializer, Serializer.ofModels, hread, ModelEntry.decodeToken_of_not_knows hknows]

/-- It has a table for no other type either. -/
theorem no_table (h : ¬ m.Recognises type) : (m.serializer classes).tableForType type = none := by
  have hentry : ModelEntry.ofType? m.models type = none := by
    cases type with
    | «class» id => exact entry?_eq_none_of_not_recognises h
    | text s =>
      refine Option.eq_none_iff_forall_not_mem.mpr fun e he => h ?_
      obtain ⟨t, hread, hentry⟩ := Option.bind_eq_some_iff.mp he
      exact ⟨t, hread, .class hentry⟩
  simp only [serializer, Serializer.ofModels, hentry, Option.bind_none]

end ModelModule

/-! ### Traced answers -/

namespace Traced

variable {α β : Type}

/-- An error is passed on. -/
lemma result_andThen_error {x : Traced α} {e : Failure} (h : x.result = .error e) (f : α → Traced β) :
    (x.andThen f).result = .error e := by
  rw [andThen, h]

end Traced

namespace Registry

/-! ### Asking candidates -/

namespace Candidate

/-- A candidate recognises its type if it has an answer for any data, be it that the data is refused. -/
def Recognises (c : Candidate) : Prop :=
  ∀ data, c.serializer.deserialize data c.type ≠ .ok none

/-- The table that a candidate has for its type. -/
def table? (c : Candidate) : Option Table :=
  c.serializer.tableForType c.type

variable {classes : ClassHierarchy} {m : ModelModule} {type : RequestedType}

lemma recognises_serializer_iff : Recognises ⟨m.serializer classes, type⟩ ↔ m.Recognises type := by
  constructor
  · intro h
    by_contra hnot
    exact h .null (ModelModule.no_answer hnot .null)
  · intro h data hnone
    obtain ⟨outcome, hanswer⟩ := ModelModule.exists_answer h data
    rw [hanswer] at hnone
    cases outcome <;> cases hnone

/-- A candidate stands for one of the modules. -/
def StandsFor (classes : ClassHierarchy) (modules : List ModelModule) (c : Candidate) : Prop :=
  ∃ m ∈ modules, ∃ type, c = ⟨m.serializer classes, type⟩

variable {modules : List ModelModule} {c : Candidate}

/-- What it recognises, it decodes or refuses. -/
lemma StandsFor.exists_answer (h : c.StandsFor classes modules) (hc : c.Recognises) (data : Value) :
    ∃ outcome : Except Failure Value, c.serializer.deserialize data c.type = outcome.map some := by
  obtain ⟨m, -, type, rfl⟩ := h
  exact ModelModule.exists_answer (recognises_serializer_iff.mp hc) data

/-- For what it does not recognise, it never has an answer. -/
lemma StandsFor.no_answer (h : c.StandsFor classes modules) (hc : ¬ c.Recognises) (data : Value) :
    c.serializer.deserialize data c.type = .ok none := by
  obtain ⟨m, -, type, rfl⟩ := h
  exact ModelModule.no_answer (mt recognises_serializer_iff.mpr hc) data

lemma StandsFor.no_table (h : c.StandsFor classes modules) (hc : ¬ c.Recognises) : c.table? = none := by
  obtain ⟨m, -, type, rfl⟩ := h
  exact ModelModule.no_table (mt recognises_serializer_iff.mpr hc)

end Candidate

variable {data : Value} {cs : List Candidate}

/-- Candidates without an answer are passed over. -/
lemma result_ask_append {before : List Candidate}
    (h : ∀ c ∈ before, c.serializer.deserialize data c.type = .ok none) (after : List Candidate) :
    (ask data (before ++ after)).result = (ask data after).result := by
  induction before with
  | nil => rfl
  | cons c before ih =>
    have hnone : (Traced.asked (.deserialize c.serializer.moduleName c.type)
        (c.serializer.deserialize data c.type)).result = .ok none := by
      rw [h c List.mem_cons_self]
      rfl
    rw [List.cons_append, ask, Traced.result_andThen hnone]
    exact ih fun c' hc' => h c' (List.mem_cons_of_mem c hc')

/-- There is no answer if no candidate has one. -/
lemma result_ask_of_none (h : ∀ c ∈ cs, c.serializer.deserialize data c.type = .ok none) :
    (ask data cs).result = .ok none := by
  rw [← List.append_nil cs, result_ask_append h]
  rfl

/-- The first candidate that has an answer gives it. -/
lemma result_ask_of_first {before after : List Candidate} {o : Candidate} {outcome : Except Failure Value}
    (hbefore : ∀ c ∈ before, c.serializer.deserialize data c.type = .ok none)
    (ho : o.serializer.deserialize data o.type = outcome.map some) :
    (ask data (before ++ o :: after)).result = outcome.map some := by
  rw [result_ask_append hbefore, ask, ho]
  cases outcome <;> rfl

/-- Tables are looked for until a candidate has one. -/
lemma result_askTable (cs : List Candidate) : (askTable cs).result = .ok (cs.findSome? Candidate.table?) := by
  induction cs with
  | nil => rfl
  | cons c cs ih =>
    rw [askTable, Traced.result_andThen (Traced.result_asked _ _), List.findSome?_cons]
    unfold Candidate.table?
    cases c.serializer.tableForType c.type with
    | none => exact ih
    | some table => rfl

/-! ### The candidates for a token -/

variable {r : Registry} {t : TypeToken} {requested : String}

/-- For a name without a module in front, the root is asked before the modules. -/
lemma candidates_of_bare (h : r.moduleOf? t.name = none) (type : RequestedType) :
    r.candidates type (some t) = (r.root :: r.modules).map fun s => ⟨s, type⟩ := by
  simp only [candidates, h]

/-- For any other name, the module in front is the only one that is asked. -/
lemma candidates_of_qualified {m : Serializer} {name : String} (h : r.moduleOf? t.name = some (m, name))
    (type : RequestedType) : r.candidates type (some t) = [⟨m, .text { t with name }.text⟩] := by
  simp only [candidates, h]

lemma mem_modules_of_moduleOf? {className : String} {m : Serializer} {name : String}
    (h : r.moduleOf? className = some (m, name)) : m ∈ r.modules := by
  have hlongest := isLongest_moduleOf? r className
  rw [h] at hlongest
  exact hlongest.1

/-! ### Decoding as the type of a token -/

/-- The answer of a candidate is what is decoded. -/
lemma result_decode_of_answer (hset : setOfScalars? t = none) {outcome : Except Failure Value}
    (hask : (ask data (r.candidates (.text requested) (some t))).result = outcome.map some) :
    (r.decode t requested data).result = outcome := by
  obtain ⟨name, mark, generics⟩ := t
  rw [decode]
  simp only [hset]
  cases outcome with
  | ok v => exact Traced.result_andThen hask _
  | error f => exact Traced.result_andThen_error hask _

/-- What no candidate answers for is built in or unknown. -/
lemma result_decode_of_no_answer (hset : setOfScalars? t = none)
    (hask : (ask data (r.candidates (.text requested) (some t))).result = .ok none) :
    (r.decode t requested data).result =
      (decodeBuiltin t (decoders r t.generics) requested data).result := by
  obtain ⟨name, mark, generics⟩ := t
  rw [decode]
  simp only [hset]
  exact Traced.result_andThen hask _

/-! ### Owners -/

variable {classes : ClassHierarchy} {root : ModelModule} {modules : List ModelModule} {type : RequestedType}

/-- The registry of a program and of the modules it uses. -/
def ofModules (classes : ClassHierarchy) (root : ModelModule) (modules : List ModelModule) : Registry :=
  ⟨root.serializer classes, modules.map (·.serializer classes)⟩

lemma eq_ofModules (hbuild : build (root.serializer classes) (modules.map (·.serializer classes)) = .ok r) :
    r = ofModules classes root modules :=
  (build_eq_ok_iff.mp hbuild).1

/-- The serializers of a registry are those of the root and of the modules. -/
lemma mem_serializers {s : Serializer} :
    s ∈ (ofModules classes root modules).root :: (ofModules classes root modules).modules ↔
      ∃ m ∈ root :: modules, m.serializer classes = s := by
  rw [ofModules, ← List.mem_map, List.map_cons]

/-- The first candidate that recognises a type is its owner; behind it stand those that are not asked for
data. -/
def Owns (r : Registry) (type : RequestedType) (o : Candidate) (after : List Candidate) : Prop :=
  o.Recognises ∧ ∃ before, r.candidates type type.token? = before ++ o :: after ∧ ∀ c ∈ before, ¬ c.Recognises

/-- A type has an owner, or no candidate recognises it. -/
lemma exists_owner (r : Registry) (type : RequestedType) :
    (∀ c ∈ r.candidates type type.token?, ¬ c.Recognises) ∨ ∃ o after, r.Owns type o after := by
  by_cases h : ∃ c ∈ r.candidates type type.token?, c.Recognises
  · obtain ⟨before, o, after, hcandidates, ho, hbefore⟩ := exists_first_with h
    exact Or.inr ⟨o, after, ho, before, hcandidates, hbefore⟩
  · exact Or.inl fun c hc hrecognises => h ⟨c, hc, hrecognises⟩

lemma candidates_standFor (type : RequestedType) (token : Option TypeToken) :
    ∀ c ∈ (ofModules classes root modules).candidates type token,
      c.StandsFor classes (root :: modules) := by
  intro c hc
  cases token with
  | none =>
    simp only [candidates, ofModules, List.map_append, List.map_map, List.mem_append, List.mem_map,
      List.map_cons, List.map_nil, List.mem_singleton] at hc
    rcases hc with ⟨m, hm, rfl⟩ | rfl
    · exact ⟨m, List.mem_cons_of_mem root hm, type, rfl⟩
    · exact ⟨root, List.mem_cons_self, type, rfl⟩
  | some t =>
    cases hmodule : (ofModules classes root modules).moduleOf? t.name with
    | none =>
      rw [candidates_of_bare hmodule] at hc
      obtain ⟨s, hs, rfl⟩ := List.mem_map.mp hc
      obtain ⟨m, hm, rfl⟩ := mem_serializers.mp hs
      exact ⟨m, hm, type, rfl⟩
    | some found =>
      obtain ⟨m, name⟩ := found
      rw [candidates_of_qualified hmodule] at hc
      obtain ⟨m', hm', rfl⟩ := List.mem_map.mp (mem_modules_of_moduleOf? hmodule)
      obtain rfl := List.mem_singleton.mp hc
      exact ⟨m', List.mem_cons_of_mem root hm', _, rfl⟩

/-- A set of scalars is a set. -/
lemma exists_eq_set (h : setOfScalars? t ≠ none) : ∃ nullable element, t = ⟨"Set", nullable, [element]⟩ := by
  obtain ⟨name, nullable, generics⟩ := t
  unfold setOfScalars? at h
  split at h
  · rename_i hname hgenerics
    obtain rfl : name = "Set" := hname
    obtain rfl : generics = [_] := hgenerics
    exact ⟨_, _, rfl⟩
  · exact absurd rfl h

/-- It belongs to no module. -/
lemma setOfScalars?_eq_none {s : String} (hread : TypeToken.read? s = some t) {o : Candidate}
    (ho : o ∈ (ofModules classes root modules).candidates (.text s) (some t))
    (hrecognises : o.Recognises) : setOfScalars? t = none := by
  by_contra hset
  obtain ⟨mark, element, rfl⟩ := exists_eq_set hset
  have hbare : (ofModules classes root modules).moduleOf? "Set" = none :=
    moduleOf?_eq_none _ (by decide)
  obtain ⟨m, -, type, hcandidate⟩ := candidates_standFor _ _ o ho
  rw [candidates_of_bare (t := ⟨"Set", mark, [element]⟩) hbare] at ho
  obtain ⟨serializer, -, rfl⟩ := List.mem_map.mp ho
  obtain ⟨rfl, rfl⟩ := Candidate.mk.inj hcandidate
  obtain ⟨t, hread', hknows⟩ := Candidate.recognises_serializer_iff.mp hrecognises
  obtain rfl := Option.some.inj (hread.symm.trans hread')
  exact ModelEntry.not_knows_set hknows

lemma deserialize_of_read {s : String} (hread : TypeToken.read? s = some t) (data : Value) :
    r.deserialize data (.text s) = r.decode t s data := by
  simp only [deserialize, RequestedType.token?, hread]

lemma deserialize_of_not_read (h : type.token? = none) (data : Value) :
    r.deserialize data type =
      (ask data (r.candidates type none)).andThen fun answer =>
        match answer with
        | some v => .done v
        | none => .fail (.unknownType type.describe) := by
  unfold deserialize
  rw [h]
  cases type <;> rfl

/-- A text that cannot be read is the text of no type. -/
lemma result_deserialize_of_not_read {s : String} (hread : TypeToken.read? s = none) (data : Value) :
    ((ofModules classes root modules).deserialize data (.text s)).result = .error (.unknownType s) := by
  have htoken : RequestedType.token? (.text s) = none := hread
  have hask : (ask data ((ofModules classes root modules).candidates (.text s) none)).result = .ok none := by
    refine result_ask_of_none fun c hc => ?_
    obtain ⟨m, -, type, rfl⟩ := candidates_standFor _ _ c hc
    obtain ⟨serializer, -, hcandidate⟩ := List.mem_map.mp hc
    obtain rfl : RequestedType.text s = type := (Candidate.mk.inj hcandidate).2
    refine ModelModule.no_answer ?_ data
    rintro ⟨t, hread', -⟩
    rw [hread] at hread'
    cases hread'
  rw [deserialize_of_not_read htoken, Traced.result_andThen hask]
  rfl

/-- Data is decoded by the owner of its type. -/
theorem result_deserialize_of_owner {o : Candidate} {after : List Candidate}
    (ho : (ofModules classes root modules).Owns type o after) (data : Value) :
    ∃ outcome : Except Failure Value, o.serializer.deserialize data o.type = outcome.map some ∧
      ((ofModules classes root modules).deserialize data type).result = outcome := by
  obtain ⟨hrecognises, before, hcandidates, hbefore⟩ := ho
  have hstands := @candidates_standFor classes root modules type type.token?
  have hmem : o ∈ before ++ o :: after := List.mem_append_right before List.mem_cons_self
  obtain ⟨outcome, hanswer⟩ := (hstands o (hcandidates ▸ hmem)).exists_answer hrecognises data
  have hnone : ∀ c ∈ before, c.serializer.deserialize data c.type = .ok none := fun c hc =>
    (hstands c (hcandidates ▸ List.mem_append_left _ hc)).no_answer (hbefore c hc) data
  have hask : (ask data (before ++ o :: after)).result = outcome.map some :=
    result_ask_of_first hnone hanswer
  rw [← hcandidates] at hask
  refine ⟨outcome, hanswer, ?_⟩
  cases htoken : type.token? with
  | none =>
    rw [htoken] at hask
    rw [deserialize_of_not_read htoken]
    cases outcome with
    | ok v => rw [Traced.result_andThen hask]; rfl
    | error f => rw [Traced.result_andThen_error hask]
  | some t =>
    rw [htoken] at hask hcandidates
    cases type with
    | «class» id => cases htoken
    | text s =>
      rw [deserialize_of_read htoken]
      exact result_decode_of_answer (setOfScalars?_eq_none htoken (hcandidates ▸ hmem) hrecognises) hask

/-- Data of a type is decoded by the first module that knows it. -/
lemma result_deserialize_of_first_knows (hread : TypeToken.read? requested = some t)
    (hset : setOfScalars? t = none) (hbare : (ofModules classes root modules).moduleOf? t.name = none)
    {before after : List ModelModule} {m : ModelModule} (hsplit : root :: modules = before ++ m :: after)
    (hbefore : ∀ m' ∈ before, ¬ ModelEntry.Knows m'.models t) {outcome : Except Failure Value}
    (hdecode : ModelEntry.decodeToken m.moduleName m.models t data = outcome.map some) :
    ((ofModules classes root modules).deserialize data (.text requested)).result = outcome := by
  have hcandidates : (ofModules classes root modules).candidates (.text requested) (some t) =
      (before.map fun m' => ⟨m'.serializer classes, .text requested⟩) ++
        ⟨m.serializer classes, .text requested⟩ ::
          after.map fun m' => ⟨m'.serializer classes, .text requested⟩ := by
    rw [candidates_of_bare hbare]
    have hmap := congrArg (List.map fun m' : ModelModule =>
      (⟨m'.serializer classes, .text requested⟩ : Candidate)) hsplit
    rw [List.map_append, List.map_cons, List.map_cons] at hmap
    rw [List.map_cons, ofModules, List.map_map]
    exact hmap
  have hanswer : (m.serializer classes).deserialize data (.text requested) = outcome.map some := by
    simp only [ModelModule.serializer, Serializer.ofModels, hread, hdecode]
  rw [deserialize_of_read hread]
  refine result_decode_of_answer hset ?_
  rw [hcandidates]
  refine result_ask_of_first (fun c hc => ?_) hanswer
  obtain ⟨m', hm', rfl⟩ := List.mem_map.mp hc
  refine ModelModule.no_answer ?_ data
  rintro ⟨t', hread', hknows⟩
  obtain rfl := Option.some.inj (hread.symm.trans hread')
  exact hbefore m' hm' hknows

/-! ### Tables -/

/-- The candidates are the same for data and for tables.  What no candidate recognises has no table.  Any
other type has an owner, whose answer is what data is decoded to, and the table that is found is the owner's if
it has one, but otherwise the first one behind it.  It is the owner's own answer if and only if an owner
without a table has none behind it that recognises the type and has a table. -/
theorem deserialize_and_tableForType
    (hbuild : build (root.serializer classes) (modules.map (·.serializer classes)) = .ok r)
    (type : RequestedType) :
    ((∀ c ∈ r.candidates type type.token?, ¬ c.Recognises) ∧ (r.tableForType type).result = .ok none) ∨
      ∃ o after, r.Owns type o after ∧
        (∀ data, ∃ outcome : Except Failure Value, o.serializer.deserialize data o.type = outcome.map some ∧
          (r.deserialize data type).result = outcome) ∧
        (r.tableForType type).result = .ok (o.table?.or (after.findSome? Candidate.table?)) ∧
        ((r.tableForType type).result = .ok o.table? ↔
          (o.table? = none → ∀ c ∈ after, c.Recognises → c.table? = none)) := by
  obtain rfl := eq_ofModules hbuild
  have hstands := @candidates_standFor classes root modules type type.token?
  rcases exists_owner (ofModules classes root modules) type with
    hnone | ⟨o, after, howns⟩
  · left
    refine ⟨hnone, ?_⟩
    have htables : ∀ c ∈ (ofModules classes root modules).candidates type
        type.token?, c.table? = none := fun c hc => (hstands c hc).no_table (hnone c hc)
    rw [tableForType, result_askTable, List.findSome?_eq_none_iff.mpr htables]
  · right
    refine ⟨o, after, howns, result_deserialize_of_owner howns, ?_⟩
    obtain ⟨-, before, hcandidates, hbefore⟩ := howns
    rw [hcandidates] at hstands
    have hnone : before.findSome? Candidate.table? = none :=
      List.findSome?_eq_none_iff.mpr fun c hc =>
        (hstands c (List.mem_append_left _ hc)).no_table (hbefore c hc)
    have htable : ((ofModules classes root modules).tableForType type).result =
        .ok (o.table?.or (after.findSome? Candidate.table?)) := by
      rw [tableForType, result_askTable, hcandidates, List.findSome?_append, hnone, List.findSome?_cons]
      cases o.table? <;> rfl
    refine ⟨htable, ?_⟩
    rw [htable]
    cases htableOfOwner : o.table? with
    | some table => simp
    | none =>
      have hbehind : ∀ c ∈ after, (c.table? = none ↔ (c.Recognises → c.table? = none)) := by
        intro c hc
        have hc' := hstands c (List.mem_append_right before (List.mem_cons_of_mem o hc))
        constructor
        · exact fun h _ => h
        · intro h
          by_cases hrecognises : c.Recognises
          · exact h hrecognises
          · exact hc'.no_table hrecognises
      simp only [Option.none_or, Except.ok.injEq, List.findSome?_eq_none_iff, forall_const]
      exact forall₂_congr hbehind

/-- A module with a table for its notes, behind a program that has notes without a table. -/
def storedNotes : ModelModule where
  moduleName := "auth"
  models := [{ plainEntry "Note" with classId := "StoredNote", table := some "note" }]
  tables := [⟨"note", "auth", true, [], [], []⟩]

/-- The notes of the program are given the table of the other ones. -/
theorem tableForType_note :
    ∃ r o after, build (sampleRoot.serializer sampleClasses) [storedNotes.serializer sampleClasses] = .ok r ∧
      r.Owns (.text "Note") o after ∧ o.serializer.moduleName = "app" ∧ o.table? = none ∧
      (r.tableForType (.text "Note")).result = .ok (some ⟨"note", "auth", true, [], [], []⟩) := by
  have hbuild : build (sampleRoot.serializer sampleClasses) ([storedNotes].map (·.serializer sampleClasses)) =
      .ok (ofModules sampleClasses sampleRoot [storedNotes]) :=
    build_eq_ok_iff.mpr ⟨rfl, by decide⟩
  have hread : TypeToken.read? "Note" = some ⟨"Note", false, []⟩ := TypeToken.read?_name (by decide)
  have hroot : Candidate.Recognises ⟨sampleRoot.serializer sampleClasses, .text "Note"⟩ :=
    Candidate.recognises_serializer_iff.mpr ⟨_, hread, .class rfl⟩
  have hcandidates : (ofModules sampleClasses sampleRoot [storedNotes]).candidates (.text "Note")
      (RequestedType.token? (.text "Note")) =
        [⟨sampleRoot.serializer sampleClasses, .text "Note"⟩,
          ⟨storedNotes.serializer sampleClasses, .text "Note"⟩] := by
    rw [RequestedType.token?, hread]
    rfl
  rcases deserialize_and_tableForType hbuild (.text "Note") with ⟨hnone, -⟩ | ⟨o, after, howns, -, htable, -⟩
  · exact absurd hroot (hnone _ (hcandidates ▸ List.mem_cons_self))
  refine ⟨_, o, after, hbuild, howns, ?_⟩
  rw [htable]
  obtain ⟨-, before, hsplit, hbefore⟩ := howns
  rw [hcandidates] at hsplit
  cases before with
  | cons c before => exact absurd hroot ((List.cons.inj hsplit).1 ▸ hbefore c List.mem_cons_self)
  | nil =>
    obtain ⟨rfl, rfl⟩ := List.cons.inj hsplit
    have hentry : ∀ models, ModelEntry.ofType? models (.text "Note") =
        ModelEntry.ofToken? models ⟨"Note", false, []⟩ := by
      intro models
      rw [ModelEntry.ofType?, hread, Option.bind_some]
    have hnone : Candidate.table? ⟨sampleRoot.serializer sampleClasses, .text "Note"⟩ = none := by
      simp only [Candidate.table?, ModelModule.serializer, Serializer.ofModels, hentry]
      rfl
    have hsome : Candidate.table? ⟨storedNotes.serializer sampleClasses, .text "Note"⟩ =
        some ⟨"note", "auth", true, [], [], []⟩ := by
      simp only [Candidate.table?, ModelModule.serializer, Serializer.ofModels, hentry]
      rfl
    exact ⟨rfl, hnone, by rw [hnone, List.findSome?_cons, hsome]; rfl⟩

end Registry

end EntitySchema
