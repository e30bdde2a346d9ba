import Mathlib.Tactic.Common
import EntitySchema.Proofs.Dispatch.Ownership
import EntitySchema.Proofs.Dispatch.Scalars

/-!
# Two ways to decode under a name

A registry names a value by a class of the root, by a scalar type, or by a module and one of its classes
(`given_of_classNameForObject`).  Under such a name data is decoded in two ways: the name is read as the text of
a type, or it is looked up as it is.  Where the name can be read as the name of a type, both ways lead to the
same module and to the same entry (`result_deserialize_of_first`, `result_deserialize_of_qualified`), except that
a scalar type is looked for behind the classes of all modules in one way and only behind those of the root in
the other (`deserialize_eq_deserializeByClassName`).
-/

namespace EntitySchema

/-! ### Names of classes -/

namespace Naming

lemma exists_of_isClassName {s : String} (h : isClassName s = true) :
    ∃ c cs, s.toList = c :: cs ∧ isCapital c = true ∧ ∀ d ∈ cs, isAlphanumeric d = true := by
  unfold isClassName consistsOf at h
  split at h
  · rename_i c cs hchars
    rw [Bool.and_eq_true, List.all_eq_true] at h
    exact ⟨c, cs, hchars, h.1, h.2⟩
  · cases h

/-- The name of a class can be read as the name of a type. -/
lemma isName_of_isClassName {s : String} (h : isClassName s = true) : TypeToken.IsName s := by
  obtain ⟨c, cs, hchars, hc, hcs⟩ := exists_of_isClassName h
  refine TypeToken.isName_iff.mpr ⟨c, cs, hchars, ?_, fun d hd => ?_⟩
  · unfold isCapital at hc
    rw [TypeToken.isNameStart, hc]
    rfl
  · have halphanumeric := hcs d hd
    simp only [isAlphanumeric, isSmall, isCapital, Bool.or_eq_true] at halphanumeric
    simp only [TypeToken.isNamePart, TypeToken.isNameStart, Bool.or_eq_true]
    tauto

/-- It has no points. -/
lemma point_notMem_of_isClassName {s : String} (h : isClassName s = true) : '.' ∉ s.toList := by
  obtain ⟨c, cs, hchars, hc, hcs⟩ := exists_of_isClassName h
  rw [hchars]
  intro hpoint
  rcases List.mem_cons.mp hpoint with rfl | hpoint
  · exact absurd hc (by decide)
  · exact absurd (hcs '.' hpoint) (by decide)

end Naming

namespace ModelModule

variable {classes : ClassHierarchy} {m : ModelModule} {name : String} {e : ModelEntry}

/-- A module declares the classes of its entries. -/
def Declares (m : ModelModule) (name : String) : Prop :=
  ∃ e ∈ m.models, e.className = name

instance (m : ModelModule) (name : String) : Decidable (m.Declares name) :=
  inferInstanceAs (Decidable (∃ e ∈ m.models, e.className = name))

lemma declares_iff : m.Declares name ↔ ∃ e, ModelEntry.named? m.models name = some e := by
  rw [← Option.isSome_iff_exists, ModelEntry.named?, List.find?_isSome]
  simp [Declares]

/-- Under a name that can be read, a module recognises the class that it declares, and nothing else. -/
lemma recognises_name_iff (hname : TypeToken.IsName name) : m.Recognises (.text name) ↔ m.Declares name := by
  have hread := TypeToken.read?_name hname
  rw [declares_iff]
  constructor
  · rintro ⟨t, hread', hknows⟩
    obtain rfl := Option.some.inj (hread.symm.trans hread')
    cases hknows with
    | «class» h => exact ⟨_, (ModelEntry.ofToken?_eq_some_iff.mp h).2⟩
  · rintro ⟨e, he⟩
    exact ⟨_, hread, .class (ModelEntry.ofToken?_eq_some_iff.mpr ⟨rfl, he⟩)⟩

/-- It decodes data under the name of a class as the entry of the class does. -/
lemma deserialize_name (hname : TypeToken.IsName name) (he : ModelEntry.named? m.models name = some e)
    (data : Value) : (m.serializer classes).deserialize data (.text name) = (e.fromJson data).map some := by
  have htoken : ModelEntry.ofToken? m.models ⟨name, false, []⟩ = some e :=
    ModelEntry.ofToken?_eq_some_iff.mpr ⟨rfl, he⟩
  have hdecode := ModelEntry.decodeToken_class htoken m.moduleName data
  simp only [serializer, Serializer.ofModels, TypeToken.read?_name hname, hdecode]
  rfl

lemma deserializeByClassName_name (he : ModelEntry.named? m.models name = some e) (data : Value) :
    (m.serializer classes).deserializeByClassName ⟨name, data⟩ = (e.fromJson data).map some := by
  simp only [serializer, Serializer.ofModels, he]

end ModelModule

namespace Registry

variable {classes : ClassHierarchy} {root : ModelModule} {modules : List ModelModule} {r : Registry}
  {name : String} {e : ModelEntry}

/-! ### Decoding as the type of a name -/

lemma setOfScalars?_name (name : String) (nullable : Bool) : setOfScalars? ⟨name, nullable, []⟩ = none := by
  simp [setOfScalars?]

/-- A name without a module in front means the class of the first module that declares it, where the root is
the first one of all. -/
theorem result_deserialize_of_first (hname : TypeToken.IsName name)
    (hbare : (ofModules classes root modules).moduleOf? name = none) {before after : List ModelModule}
    {m : ModelModule} (hsplit : root :: modules = before ++ m :: after)
    (hbefore : ∀ m' ∈ before, ¬ m'.Declares name) (he : ModelEntry.named? m.models name = some e)
    (data : Value) :
    ((ofModules classes root modules).deserialize data (.text name)).result = e.fromJson data := by
  have hentry : ModelEntry.ofToken? m.models ⟨name, false, []⟩ = some e :=
    ModelEntry.ofToken?_eq_some_iff.mpr ⟨rfl, he⟩
  have hread := TypeToken.read?_name hname
  refine result_deserialize_of_first_knows hread (setOfScalars?_name _ _) hbare hsplit (fun m' hm' hknows => ?_)
    (ModelEntry.decodeToken_class hentry m.moduleName data)
  exact hbefore m' hm' ((ModelModule.recognises_name_iff hname).mp ⟨_, hread, hknows⟩)

/-- The name of a scalar type that no module declares means the scalar type. -/
lemma result_deserialize_of_scalar {s : WireScalar} (hname : TypeToken.IsName s.name)
    (hnone : ∀ m ∈ root :: modules, ¬ m.Declares s.name) (data : Value) :
    ((ofModules classes root modules).deserialize data (.text s.name)).result = s.decode data := by
  have hbare : (ofModules classes root modules).moduleOf? s.name = none :=
    moduleOf?_eq_none _ s.point_notMem_name
  rw [deserialize_of_read (TypeToken.read?_name hname), result_decode_of_no_answer (setOfScalars?_name _ _)]
  · simp only [decodeBuiltin, WireScalar.ofName?_name, Bool.false_and, Bool.false_eq_true, if_false]
    rfl
  · rw [candidates_of_bare (t := ⟨s.name, false, []⟩) hbare]
    refine result_ask_of_none fun c hc => ?_
    obtain ⟨serializer, hserializer, rfl⟩ := List.mem_map.mp hc
    obtain ⟨m, hm, rfl⟩ := mem_serializers.mp hserializer
    exact ModelModule.no_answer (mt (ModelModule.recognises_name_iff hname).mp (hnone m hm)) data

/-- A name with a module in front means the class that this module declares. -/
lemma result_deserialize_of_qualified {n : String} (htoken : TypeToken.IsName n) {m : ModelModule}
    (hmodule : r.moduleOf? n = some (m.serializer classes, name)) (hname : TypeToken.IsName name)
    (he : ModelEntry.named? m.models name = some e) (data : Value) :
    (r.deserialize data (.text n)).result = e.fromJson data := by
  have hanswer : ∀ c ∈ ([] : List Candidate), c.serializer.deserialize data c.type = .ok none :=
    fun c hc => by cases hc
  rw [deserialize_of_read (TypeToken.read?_name htoken)]
  refine result_decode_of_answer (setOfScalars?_name _ _) ?_
  rw [candidates_of_qualified (t := ⟨n, false, []⟩) hmodule]
  dsimp only
  rw [TypeToken.text_name]
  exact result_ask_of_first hanswer (ModelModule.deserialize_name hname he data)

/-! ### Decoding by the name -/

lemma result_deserializeByClassName_of_qualified {n : String} {m : ModelModule}
    (hmodule : r.moduleOf? n = some (m.serializer classes, name))
    (he : ModelEntry.named? m.models name = some e) (data : Value) :
    (r.deserializeByClassName ⟨n, data⟩).result = e.fromJson data := by
  rw [deserializeByClassName, hmodule]
  dsimp only
  rw [ModelModule.deserializeByClassName_name he]
  cases e.fromJson data <;> rfl

/-! ### The names that a registry gives -/

/-- The names that a registry gives to values: the classes of the root, the scalar types, and the classes of
modules behind their modules. -/
inductive Given (root : ModelModule) (modules : List ModelModule) : String → Prop
  | bare {e : ModelEntry} (he : e ∈ root.models) : Given root modules e.className
  | scalar (s : WireScalar) : Given root modules s.name
  | qualified {m : ModelModule} (hm : m ∈ modules) {e : ModelEntry} (he : e ∈ m.models) :
      Given root modules (m.moduleName ++ "." ++ e.className)

variable {v : Value} {n : String}

/-- The name that a module gives to a value is that of one of its classes. -/
lemma mem_of_askClassName {m : ModelModule}
    (h : (askClassName (m.serializer classes) v).result = .ok (some n)) :
    ∃ e ∈ m.models, e.className = n := by
  have hname : (ModelEntry.owner? classes m.models v).map (·.className) = some n := Except.ok.inj h
  obtain ⟨e, he, rfl⟩ := Option.map_eq_some_iff.mp hname
  exact ⟨e, List.mem_of_find?_eq_some he, rfl⟩

lemma given_of_classNameAmong
    (h : (classNameAmong v (modules.map (·.serializer classes))).result = .ok (some n)) :
    ∃ m ∈ modules, ∃ e ∈ m.models, n = m.moduleName ++ "." ++ e.className := by
  induction modules with
  | nil => cases h
  | cons m modules ih =>
    rw [List.map_cons, classNameAmong] at h
    cases hname : (m.serializer classes).classNameForObject v with
    | none =>
      have hnone : (askClassName (m.serializer classes) v).result = .ok none := congrArg Except.ok hname
      rw [Traced.result_andThen hnone] at h
      obtain ⟨m', hm', hrest⟩ := ih h
      exact ⟨m', List.mem_cons_of_mem m hm', hrest⟩
    | some className =>
      have hsome : (askClassName (m.serializer classes) v).result = .ok (some className) :=
        congrArg Except.ok hname
      rw [Traced.result_andThen hsome] at h
      obtain ⟨e, he, rfl⟩ := mem_of_askClassName hsome
      exact ⟨m, List.mem_cons_self, e, he, (Option.some.inj (Except.ok.inj h)).symm⟩

/-- A registry gives no other names. -/
theorem given_of_classNameForObject
    (h : ((ofModules classes root modules).classNameForObject v).result = .ok (some n)) :
    Given root modules n := by
  unfold classNameForObject at h
  cases hname : (root.serializer classes).classNameForObject v with
  | some className =>
    have hsome : (askClassName (ofModules classes root modules).root v).result = .ok (some className) :=
      congrArg Except.ok hname
    rw [Traced.result_andThen hsome] at h
    obtain ⟨e, he, rfl⟩ := mem_of_askClassName hsome
    rw [← Option.some.inj (Except.ok.inj h)]
    exact .bare he
  | none =>
    have hnone : (askClassName (ofModules classes root modules).root v).result = .ok none :=
      congrArg Except.ok hname
    rw [Traced.result_andThen hnone] at h
    cases hscalar : WireScalar.ofValue? v with
    | some s =>
      rw [hscalar] at h
      rw [← Option.some.inj (Except.ok.inj h)]
      exact .scalar s
    | none =>
      rw [hscalar] at h
      obtain ⟨m, hm, e, he, rfl⟩ := given_of_classNameAmong h
      exact .qualified hm he

/-! ### Agreement -/

/-- In a registry whose classes are named as classes, data is decoded under a name that the registry gives to
a value in the same way as a type and by the name, as long as the name can be read as the name of a type, and
unless it is the name of a scalar type and some module, but not the root, has a class with that name. -/
theorem deserialize_eq_deserializeByClassName
    (hbuild : build (root.serializer classes) (modules.map (·.serializer classes)) = .ok r)
    (hnames : ∀ m ∈ root :: modules, ∀ e ∈ m.models, Naming.isClassName e.className = true)
    (hgiven : (r.classNameForObject v).result = .ok (some n)) (hread : TypeToken.IsName n)
    (hscalar : WireScalar.ofName? n ≠ none → root.Declares n ∨ ∀ m ∈ modules, ¬ m.Declares n) (data : Value) :
    (r.deserialize data (.text n)).result = (r.deserializeByClassName ⟨n, data⟩).result := by
  obtain ⟨-, hmodules⟩ := build_eq_ok_iff.mp hbuild
  obtain rfl := eq_ofModules hbuild
  have hrootModule : (ofModules classes root modules).root = root.serializer classes := rfl
  -- A class of the root is the first one that either way finds.
  have hdeclared : root.Declares n →
      ((ofModules classes root modules).deserialize data (.text n)).result =
        ((ofModules classes root modules).deserializeByClassName ⟨n, data⟩).result := by
    intro hroot
    obtain ⟨e, he⟩ := ModelModule.declares_iff.mp hroot
    obtain ⟨e', he', rfl⟩ := hroot
    have hpoint := Naming.point_notMem_of_isClassName (hnames root List.mem_cons_self e' he')
    have hbare := moduleOf?_eq_none (ofModules classes root modules) hpoint
    have hbefore : ∀ m' ∈ ([] : List ModelModule), ¬ m'.Declares e'.className := fun m' hm' => by cases hm'
    rw [result_deserialize_of_first hread hbare rfl hbefore he,
      result_deserializeByClassName_of_named hrootModule hbare he]
  cases given_of_classNameForObject hgiven with
  | bare he => exact hdeclared ⟨_, he, rfl⟩
  | scalar s =>
    have hname : WireScalar.ofName? s.name ≠ none := by
      rw [WireScalar.ofName?_name]
      exact Option.some_ne_none s
    by_cases hroot : root.Declares s.name
    · exact hdeclared hroot
    have hnone : ∀ m ∈ root :: modules, ¬ m.Declares s.name :=
      List.forall_mem_cons.mpr ⟨hroot, (hscalar hname).resolve_left hroot⟩
    have hnamed : ModelEntry.named? root.models s.name = none :=
      Option.eq_none_iff_forall_ne_some.mpr fun e he => hroot (ModelModule.declares_iff.mpr ⟨e, he⟩)
    rw [result_deserialize_of_scalar hread hnone,
      result_deserializeByClassName_of_scalar hrootModule hnamed]
  | @qualified m hm e he =>
    have hclass := hnames m (List.mem_cons_of_mem root hm) e he
    obtain ⟨e', he'⟩ := ModelModule.declares_iff.mp ⟨e, he, rfl⟩
    have hdistinct : ((ofModules classes root modules).modules.map (·.moduleName)).Nodup :=
      (List.nodup_cons.mp hmodules).2
    have hmem : m.serializer classes ∈ (ofModules classes root modules).modules :=
      List.mem_map.mpr ⟨m, hm, rfl⟩
    have hmodule := moduleOf?_qualified hdistinct hmem (Naming.point_notMem_of_isClassName hclass)
    have hname : qualified (m.serializer classes) e.className = m.moduleName ++ "." ++ e.className := rfl
    rw [hname] at hmodule
    rw [result_deserialize_of_qualified hread hmodule (Naming.isName_of_isClassName hclass) he',
      result_deserializeByClassName_of_qualified hmodule he']

/-- Under the name of a class behind the longer one of two module names, both ways decode any data alike. -/
theorem deserialize_session :
    ∃ r, build (sampleRoot.serializer sampleClasses) (sampleModules.map (·.serializer sampleClasses)) = .ok r ∧
      (r.classNameForObject (.model "Session" [])).result = .ok (some "auth.session.Session") ∧
      ∀ data, (r.deserialize data (.text "auth.session.Session")).result =
        (r.deserializeByClassName ⟨"auth.session.Session", data⟩).result := by
  have hbuild : build (sampleRoot.serializer sampleClasses) (sampleModules.map (·.serializer sampleClasses)) =
      .ok (ofModules sampleClasses sampleRoot sampleModules) :=
    build_eq_ok_iff.mpr ⟨rfl, by decide⟩
  have hnames : ∀ m ∈ sampleRoot :: sampleModules, ∀ e ∈ m.models,
      Naming.isClassName e.className = true := by
    decide
  have hgiven : ((ofModules sampleClasses sampleRoot sampleModules).classNameForObject
      (.model "Session" [])).result = .ok (some "auth.session.Session") := rfl
  refine ⟨_, hbuild, hgiven, fun data => ?_⟩
  exact deserialize_eq_deserializeByClassName hbuild hnames hgiven (by decide)
    (fun hscalar => absurd (by decide) hscalar) data

/-! ### Disagreement -/

/-- A module whose name is not the name of a type, with a class that is named like a scalar type. -/
def hyphenated : ModelModule :=
  plainModule "my-app" ["User", "String"]

/-- Behind such a module a class is found by its name but not as a type, and the class that is named like a
scalar type is found as a type but not by its name. -/
theorem deserialize_hyphenated :
    ∃ r, build (sampleRoot.serializer sampleClasses) [hyphenated.serializer sampleClasses] = .ok r ∧
      (∀ m ∈ [sampleRoot, hyphenated], ∀ e ∈ m.models, Naming.isClassName e.className = true) ∧
      (r.classNameForObject (.model "User" [])).result = .ok (some "my-app.User") ∧
      (r.deserialize .null (.text "my-app.User")).result = .error (.unknownType "my-app.User") ∧
      (r.deserializeByClassName ⟨"my-app.User", .null⟩).result = .ok (.model "User" [("data", .null)]) ∧
      (r.classNameForObject (.string "text")).result = .ok (some "String") ∧
      (r.deserialize (.string "text") (.text "String")).result = .ok (.model "String" [("data", .string "text")]) ∧
      (r.deserializeByClassName ⟨"String", .string "text"⟩).result = .ok (.string "text") := by
  have hbuild : build (sampleRoot.serializer sampleClasses) [hyphenated.serializer sampleClasses] =
      .ok (ofModules sampleClasses sampleRoot [hyphenated]) :=
    build_eq_ok_iff.mpr ⟨rfl, by decide⟩
  have hunread : TypeToken.read? "my-app.User" = none :=
    TypeToken.read?_eq_none_of_mem (show '-' ∈ "my-app.User".toList by decide) (by decide) (by decide)
  have hbare : (ofModules sampleClasses sampleRoot [hyphenated]).moduleOf? "String" = none :=
    moduleOf?_eq_none _ (by decide)
  have hentry : ModelEntry.named? hyphenated.models "String" = some (plainEntry "String") := rfl
  have hroot : ∀ m ∈ [sampleRoot], ¬ m.Declares "String" := by decide
  refine ⟨_, hbuild, by decide, rfl, result_deserialize_of_not_read hunread .null, rfl, rfl, ?_, rfl⟩
  have hsplit : [sampleRoot, hyphenated] = [sampleRoot] ++ hyphenated :: [] := rfl
  rw [result_deserialize_of_first (by decide) hbare hsplit hroot hentry]
  rfl

end Registry

end EntitySchema
