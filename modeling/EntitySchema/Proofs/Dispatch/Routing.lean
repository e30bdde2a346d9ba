import Mathlib.Data.List.Nodup
import Mathlib.Tactic.Common
import EntitySchema.Proofs.Dispatch.Parts

/-!
# Routing by the names of modules

A class name is routed to a module whose name, with a point behind it, stands in front of it, if no other
module in front has a longer name (`RoutedTo`).  All names in front of a class name are starts of it, so among
modules with different names at most one is the longest (`RoutedTo.unique`): the search of a registry finds that
module wherever it stands among the others (`moduleOf?_eq_some_iff`, `RoutedTo.of_perm`).  Decoding by class name
asks it and nobody else (`deserializeByClassName_eq_iff`), and so do decoding and the search for a table when the
name is that of a token (`deserialize_of_routedTo`, `tableForType_of_routedTo`).  None of this depends on the
order of registration (`registration_order`).  A text that is no type expression has no token to be routed by
(`unread_text_not_routed`).
-/

namespace EntitySchema

namespace Registry

variable {root m m' : Serializer} {modules modules' : List Serializer} {className name name' : String}

/-! ### The module in front of a name -/

lemma localName?_eq_some_iff_qualified : localName? m.moduleName className = some name ↔
    className = qualified m name := by
  rw [localName?_eq_some_iff, ← toList_qualified, String.toList_inj]

lemma localName?_ne_none_iff : localName? m.moduleName className ≠ none ↔
    ∃ name, className = qualified m name := by
  simp only [Option.ne_none_iff_exists', localName?_eq_some_iff_qualified]

/-- No module stands in front of a class name. -/
def Unrouted (modules : List Serializer) (className : String) : Prop :=
  ∀ m ∈ modules, ∀ name, className ≠ qualified m name

/-- A class name is routed to the module with the longest name in front of it, with the rest of the name. -/
structure RoutedTo (modules : List Serializer) (className : String) (m : Serializer) (name : String) : Prop where
  mem : m ∈ modules
  eq_qualified : className = qualified m name
  longest : ∀ m' ∈ modules, ∀ name', className = qualified m' name' →
    m'.moduleName.length ≤ m.moduleName.length

/-- The name of a routed class has a point. -/
lemma RoutedTo.point_mem (h : RoutedTo modules className m name) : '.' ∈ className.toList := by
  rw [h.eq_qualified, toList_qualified]
  exact List.mem_append_right _ List.mem_cons_self

/-- Two modules whose names have one length stand in front of a class name only if they have one name. -/
lemma eq_of_qualified_eq (hlength : m.moduleName.length = m'.moduleName.length)
    (h : qualified m name = qualified m' name') : m.moduleName = m'.moduleName ∧ name = name' := by
  have hchars := congrArg String.toList h
  rw [toList_qualified, toList_qualified] at hchars
  rw [← String.length_toList, ← String.length_toList] at hlength
  obtain ⟨hmodule, hrest⟩ := List.append_inj hchars hlength
  exact ⟨String.toList_injective hmodule, String.toList_injective (List.cons.inj hrest).2⟩

/-- Among modules with different names, a class name is routed to one of them at most. -/
theorem RoutedTo.unique (hnames : (modules.map (·.moduleName)).Nodup) (h : RoutedTo modules className m name)
    (h' : RoutedTo modules className m' name') : m' = m ∧ name' = name := by
  have hlength : m'.moduleName.length = m.moduleName.length :=
    Nat.le_antisymm (h.longest m' h'.mem name' h'.eq_qualified) (h'.longest m h.mem name h.eq_qualified)
  obtain ⟨hmodule, hrest⟩ := eq_of_qualified_eq hlength (h'.eq_qualified.symm.trans h.eq_qualified)
  exact ⟨List.inj_on_of_nodup_map hnames h'.mem h.mem hmodule, hrest⟩

/-- To which module a name is routed does not depend on the order of the modules. -/
lemma RoutedTo.of_perm (hperm : modules.Perm modules') (h : RoutedTo modules className m name) :
    RoutedTo modules' className m name where
  mem := hperm.mem_iff.mp h.mem
  eq_qualified := h.eq_qualified
  longest m' hm' := h.longest m' (hperm.mem_iff.mpr hm')

lemma Unrouted.of_perm (hperm : modules.Perm modules') (h : Unrouted modules className) :
    Unrouted modules' className :=
  fun m hm => h m (hperm.mem_iff.mpr hm)

variable {r r' : Registry}

lemma routedTo_of_moduleOf? (h : r.moduleOf? className = some (m, name)) :
    RoutedTo r.modules className m name := by
  have hlongest := isLongest_moduleOf? r className
  rw [h] at hlongest
  obtain ⟨hm, hname, hle⟩ := hlongest
  exact ⟨hm, localName?_eq_some_iff_qualified.mp hname,
    fun m' hm' name' hname' => hle m' hm' (localName?_ne_none_iff.mpr ⟨name', hname'⟩)⟩

/-- The search finds no module exactly if none stands in front of the name. -/
theorem moduleOf?_eq_none_iff : r.moduleOf? className = none ↔ Unrouted r.modules className := by
  constructor
  · intro hnone m hm name hname
    have hlongest := isLongest_moduleOf? r className
    rw [hnone] at hlongest
    exact localName?_ne_none_iff.mpr ⟨name, hname⟩ (hlongest m hm)
  · intro hnot
    cases hfound : r.moduleOf? className with
    | none => rfl
    | some found =>
      obtain ⟨m, name⟩ := found
      have hrouted := routedTo_of_moduleOf? hfound
      exact absurd hrouted.eq_qualified (hnot m hrouted.mem name)

/-- The search finds the module that a name is routed to. -/
theorem moduleOf?_eq_some_iff (hnames : (r.modules.map (·.moduleName)).Nodup) :
    r.moduleOf? className = some (m, name) ↔ RoutedTo r.modules className m name := by
  refine ⟨routedTo_of_moduleOf?, fun h => ?_⟩
  cases hfound : r.moduleOf? className with
  | none => exact absurd h.eq_qualified (moduleOf?_eq_none_iff.mp hfound m h.mem name)
  | some found =>
    obtain ⟨m', name'⟩ := found
    obtain ⟨rfl, rfl⟩ := h.unique hnames (routedTo_of_moduleOf? hfound)
    rfl

/-- A class name is routed to a module or it is not routed. -/
lemma unrouted_or_routedTo (r : Registry) (className : String) :
    Unrouted r.modules className ∨ ∃ m name, RoutedTo r.modules className m name := by
  cases hfound : r.moduleOf? className with
  | none => exact .inl (moduleOf?_eq_none_iff.mp hfound)
  | some found => exact .inr ⟨found.1, found.2, routedTo_of_moduleOf? hfound⟩

/-! ### Decoding by class name -/

/-- What comes of the answer of a serializer: the value that it has found, or its failure; what is not its own
is settled otherwise. -/
def answered (answer : Except Failure (Option Value)) (otherwise : Except Failure Value) : Except Failure Value :=
  match answer with
  | .ok (some v) => .ok v
  | .ok none => otherwise
  | .error f => .error f

/-- A single question is settled by its answer, or otherwise by what is decoded without asking again. -/
lemma asked_andThen {c : Call} {answer : Except Failure (Option Value)} {next : Option Value → Traced Value}
    (hfound : ∀ v, next (some v) = .done v) (hcalls : (next none).calls = []) :
    (Traced.asked c answer).andThen next = ⟨[c], answered answer (next none).result⟩ := by
  rcases answer with f | _ | v
  · rfl
  · have hnext : (Traced.asked c (.ok none)).andThen next = ⟨[c] ++ (next none).calls, (next none).result⟩ := rfl
    rw [hnext, hcalls]
    rfl
  · have hnext : (Traced.asked c (.ok (some v))).andThen next =
        ⟨[c] ++ (next (some v)).calls, (next (some v)).result⟩ := rfl
    rw [hnext, hfound]
    rfl

/-- The scalar that the name of a class names. -/
def scalarByName (e : Envelope) : Traced Value :=
  match WireScalar.ofName? e.className with
  | some s => .ofExcept (s.decode e.data)
  | none => .fail (.unknownType e.className)

/-- The law of decoding by class name: the module that the name is routed to is asked for the rest of the name,
with the same data; if the name is not routed, the root alone is asked, before the scalars. -/
inductive Delegated (root : Serializer) (modules : List Serializer) (e : Envelope) : Traced Value → Prop
  | routed {m : Serializer} {name : String} (h : RoutedTo modules e.className m name) :
      Delegated root modules e ⟨[.deserializeByClassName m.moduleName name],
        answered (m.deserializeByClassName ⟨name, e.data⟩) (.error (.unknownType e.className))⟩
  | unrouted (h : Unrouted modules e.className) :
      Delegated root modules e ⟨[.deserializeByClassName root.moduleName e.className],
        answered (root.deserializeByClassName e) (scalarByName e).result⟩

lemma deserializeByClassName_of_moduleOf? {e : Envelope} (h : r.moduleOf? e.className = some (m, name)) :
    r.deserializeByClassName e = ⟨[.deserializeByClassName m.moduleName name],
      answered (m.deserializeByClassName ⟨name, e.data⟩) (.error (.unknownType e.className))⟩ := by
  simp only [deserializeByClassName, h]
  exact asked_andThen (fun _ => rfl) rfl

lemma deserializeByClassName_of_moduleOf?_eq_none {e : Envelope} (h : r.moduleOf? e.className = none) :
    r.deserializeByClassName e = ⟨[.deserializeByClassName r.root.moduleName e.className],
      answered (r.root.deserializeByClassName e) (scalarByName e).result⟩ := by
  simp only [deserializeByClassName, h, scalarByName]
  cases WireScalar.ofName? e.className with
  | none => exact asked_andThen (fun _ => rfl) rfl
  | some s => exact asked_andThen (fun _ => rfl) rfl

/-- Decoding by class name follows the law. -/
theorem deserializeByClassName_eq_iff (hnames : (r.modules.map (·.moduleName)).Nodup) (e : Envelope)
    (x : Traced Value) : r.deserializeByClassName e = x ↔ Delegated r.root r.modules e x := by
  constructor
  · rintro rfl
    cases hfound : r.moduleOf? e.className with
    | none =>
      rw [deserializeByClassName_of_moduleOf?_eq_none hfound]
      exact .unrouted (moduleOf?_eq_none_iff.mp hfound)
    | some found =>
      rw [deserializeByClassName_of_moduleOf? hfound]
      exact .routed (routedTo_of_moduleOf? hfound)
  · rintro (h | h)
    · exact deserializeByClassName_of_moduleOf? ((moduleOf?_eq_some_iff hnames).mpr h)
    · exact deserializeByClassName_of_moduleOf?_eq_none (moduleOf?_eq_none_iff.mpr h)

lemma Delegated.of_perm {e : Envelope} {x : Traced Value} (hperm : modules.Perm modules')
    (h : Delegated root modules e x) : Delegated root modules' e x := by
  cases h with
  | routed h => exact .routed (h.of_perm hperm)
  | unrouted h => exact .unrouted (h.of_perm hperm)

/-! ### Decoding and searching by a text -/

variable {s : String} {t : TypeToken}

/-- A token whose name has a point names no built-in type. -/
lemma not_builtIn_of_point (hpoint : '.' ∈ t.name.toList) : ¬ BuiltIn t := by
  intro hbuiltIn
  cases hbuiltIn with
  | scalar s nullable => exact s.point_notMem_name hpoint
  | list => exact absurd hpoint (by simp)
  | set => exact absurd hpoint (by simp)
  | map => exact absurd hpoint (by simp)

/-- One candidate is asked one question. -/
lemma ask_singleton (data : Value) (c : Candidate) :
    ask data [c] = Traced.asked (.deserialize c.serializer.moduleName c.type)
      (c.serializer.deserialize data c.type) := by
  rw [ask]
  rcases c.serializer.deserialize data c.type with f | _ | v <;> rfl

/-- What is no set of scalars is decoded by the first candidate that answers, or else it is built in. -/
lemma decode_of_not_set (hset : setOfScalars? t = none) (data : Value) :
    r.decode t s data = (ask data (r.candidates (.text s) (some t))).andThen fun answer =>
      match answer with
      | some v => .done v
      | none => decodeBuiltin t (decoders r t.generics) s data := by
  obtain ⟨name, nullable, generics⟩ := t
  rw [decode]
  split
  · rename_i hsome
    rw [hset] at hsome
    cases hsome
  · rfl

/-- What a routed text is decoded to: the module is asked for the token under the rest of its name, and for
nothing else. -/
theorem deserialize_of_routedTo (hnames : (r.modules.map (·.moduleName)).Nodup)
    (hread : TypeToken.read? s = some t) (h : RoutedTo r.modules t.name m name) (data : Value) :
    r.deserialize data (.text s) =
      ⟨[.deserialize m.moduleName (.text (TypeToken.text { t with name }))],
        answered (m.deserialize data (.text (TypeToken.text { t with name })))
          (if t.nullable && data.isMissing then .ok .null else .error (.unknownType s))⟩ := by
  have hbuiltIn : ¬ BuiltIn t := not_builtIn_of_point h.point_mem
  have hset : setOfScalars? t = none := by
    by_contra hset
    exact hbuiltIn (builtIn_of_setOfScalars? hset)
  have hbuiltin := decodeBuiltin_of_not_builtIn hbuiltIn (decoders r t.generics) s data
  rw [deserialize_of_read hread, decode_of_not_set hset,
    candidates_of_qualified ((moduleOf?_eq_some_iff hnames).mpr h), ask_singleton,
    asked_andThen (fun _ => rfl) (congrArg Traced.calls hbuiltin), hbuiltin]

/-- Its table is the module's table of that token. -/
theorem tableForType_of_routedTo (hnames : (r.modules.map (·.moduleName)).Nodup)
    (hread : TypeToken.read? s = some t) (h : RoutedTo r.modules t.name m name) :
    r.tableForType (.text s) =
      ⟨[.tableForType m.moduleName (.text (TypeToken.text { t with name }))],
        .ok (m.tableForType (.text (TypeToken.text { t with name })))⟩ := by
  simp only [tableForType, RequestedType.token?, hread,
    candidates_of_qualified ((moduleOf?_eq_some_iff hnames).mpr h), askTable, Traced.andThen,
    Traced.result_asked]
  cases m.tableForType (.text (TypeToken.text { t with name })) <;> rfl

/-! ### The order of registration -/

/-- Among different names, only one that has been seen before is repeated. -/
lemma mem_of_firstRepeated {seen l : List String} (hnames : l.Nodup) (h : firstRepeated seen l = some name) :
    name ∈ seen ∧ name ∈ l := by
  induction l generalizing seen with
  | nil => cases h
  | cons s rest ih =>
    obtain ⟨hnot, hrest⟩ := List.nodup_cons.mp hnames
    rw [firstRepeated] at h
    split at h
    · rename_i hseen
      obtain rfl := Option.some.inj h
      exact ⟨List.contains_iff_mem.mp hseen, List.mem_cons_self⟩
    · obtain ⟨hseen, hmem⟩ := ih hrest h
      refine ⟨?_, List.mem_cons_of_mem s hmem⟩
      rcases List.mem_append.mp hseen with hseen | hself
      · exact hseen
      · exact absurd (List.mem_singleton.mp hself ▸ hmem) hnot

/-- A registry of modules with different names is built unless one of them has the name of the root. -/
lemma build_of_nodup (root : Serializer) (hnames : (modules.map (·.moduleName)).Nodup) :
    build root modules =
      if root.moduleName ∈ modules.map (·.moduleName) then .error root.moduleName else .ok ⟨root, modules⟩ := by
  unfold build
  split
  · rename_i name hrepeated
    obtain ⟨hroot, hmem⟩ := mem_of_firstRepeated hnames hrepeated
    obtain rfl := List.mem_singleton.mp hroot
    rw [if_pos hmem]
  · rename_i hnone
    obtain ⟨-, hnew⟩ := (firstRepeated_eq_none_iff _ _).mp hnone
    rw [if_neg fun hmem => hnew _ hmem (List.mem_singleton_self _)]

/-- The order in which modules with different names are registered does not matter.  Either no registry is
built, because the root has the name of a module, or both registries decode every record by its class name with
the same questions and the same outcome: the one module that the name is routed to is asked for the rest of the
name, or the root alone is asked because no module stands in front.  Where the name of the token of a text is
routed to a module, that module is asked for data and for the table, and no other one. -/
theorem registration_order (root : Serializer) (hnames : (modules.map (·.moduleName)).Nodup)
    (hperm : modules.Perm modules') :
    (build root modules = .error root.moduleName ∧ build root modules' = .error root.moduleName) ∨
      ∃ r r', build root modules = .ok r ∧ build root modules' = .ok r' ∧
        (∀ className, Unrouted modules className ∨
          ∃! found : Serializer × String, RoutedTo modules className found.1 found.2) ∧
        (∀ e, Delegated root modules e (r.deserializeByClassName e) ∧
          r'.deserializeByClassName e = r.deserializeByClassName e) ∧
        ∀ s t m name, TypeToken.read? s = some t → RoutedTo modules t.name m name →
          (∀ data, r.deserialize data (.text s) =
              ⟨[.deserialize m.moduleName (.text (TypeToken.text { t with name }))],
                answered (m.deserialize data (.text (TypeToken.text { t with name })))
                  (if t.nullable && data.isMissing then .ok .null else .error (.unknownType s))⟩ ∧
            r'.deserialize data (.text s) = r.deserialize data (.text s)) ∧
          r.tableForType (.text s) =
            ⟨[.tableForType m.moduleName (.text (TypeToken.text { t with name }))],
              .ok (m.tableForType (.text (TypeToken.text { t with name })))⟩ ∧
          r'.tableForType (.text s) = r.tableForType (.text s) := by
  have hpermNames : (modules.map (·.moduleName)).Perm (modules'.map (·.moduleName)) := hperm.map _
  have hnames' : (modules'.map (·.moduleName)).Nodup := hpermNames.nodup_iff.mp hnames
  rw [build_of_nodup root hnames, build_of_nodup root hnames']
  by_cases hroot : root.moduleName ∈ modules.map (·.moduleName)
  · left
    rw [if_pos hroot, if_pos (hpermNames.mem_iff.mp hroot)]
    exact ⟨rfl, rfl⟩
  right
  rw [if_neg hroot, if_neg (mt hpermNames.mem_iff.mpr hroot)]
  refine ⟨⟨root, modules⟩, ⟨root, modules'⟩, rfl, rfl, fun className => ?_, fun e => ?_, ?_⟩
  · refine (unrouted_or_routedTo ⟨root, modules⟩ className).imp_right ?_
    rintro ⟨m, name, h⟩
    refine ⟨(m, name), h, fun found hfound => ?_⟩
    obtain ⟨hm, hname⟩ := h.unique hnames hfound
    exact Prod.ext hm hname
  · have hdelegated := (deserializeByClassName_eq_iff (r := ⟨root, modules⟩) hnames e _).mp rfl
    exact ⟨hdelegated,
      (deserializeByClassName_eq_iff (r := ⟨root, modules'⟩) hnames' e _).mpr (hdelegated.of_perm hperm)⟩
  · intro s t m name hread h
    have htable := tableForType_of_routedTo (r := ⟨root, modules⟩) hnames hread h
    have htable' := tableForType_of_routedTo (r := ⟨root, modules'⟩) hnames' hread (h.of_perm hperm)
    refine ⟨fun data => ?_, htable, htable'.trans htable.symm⟩
    have hdata := deserialize_of_routedTo (r := ⟨root, modules⟩) hnames hread h data
    have hdata' := deserialize_of_routedTo (r := ⟨root, modules'⟩) hnames' hread (h.of_perm hperm) data
    exact ⟨hdata, hdata'.trans hdata.symm⟩

/-- In either order, a session is decoded by the module with the longer one of two names in front of its own. -/
theorem registration_order_session :
    ∃ r r', build (sampleRoot.serializer sampleClasses) (sampleModules.map (·.serializer sampleClasses)) = .ok r ∧
      build (sampleRoot.serializer sampleClasses) (sampleModules.reverse.map (·.serializer sampleClasses)) =
        .ok r' ∧
      (r.deserializeByClassName ⟨"auth.session.Session", .null⟩).calls =
        [.deserializeByClassName "auth.session" "Session"] ∧
      r'.deserializeByClassName ⟨"auth.session.Session", .null⟩ =
        r.deserializeByClassName ⟨"auth.session.Session", .null⟩ := by
  have hperm : (sampleModules.map (·.serializer sampleClasses)).Perm
      (sampleModules.reverse.map (·.serializer sampleClasses)) :=
    (List.reverse_perm sampleModules).symm.map _
  rcases registration_order (sampleRoot.serializer sampleClasses) (by decide) hperm with
    ⟨hfails, -⟩ | ⟨r, r', hbuild, hbuild', -, hclass, -⟩
  · have hbuilds : build (sampleRoot.serializer sampleClasses) (sampleModules.map (·.serializer sampleClasses)) =
        .ok ⟨_, _⟩ := build_eq_ok_iff.mpr ⟨rfl, by decide⟩
    rw [hbuilds] at hfails
    cases hfails
  · refine ⟨r, r', hbuild, hbuild', ?_, (hclass _).2⟩
    obtain ⟨rfl, -⟩ := build_eq_ok_iff.mp hbuild
    rfl

/-- A serializer that answers for the given texts with its name and the data. -/
def stub (moduleName : String) (owns : List String) : Serializer where
  moduleName
  tables := []
  deserialize data type :=
    match type with
    | .text s => .ok (if owns.contains s then some (.list [.string moduleName, data]) else none)
    | .class _ => .ok none
  deserializeByClassName e :=
    .ok (if owns.contains e.className then some (.list [.string moduleName, e.data]) else none)
  classNameForObject _ := none
  encode _ := .ok none
  tableForType _ := none

/-- A text that is no type expression is not routed, although a module stands in front of it: as the name of a
class it belongs to that module, as the text of a type to another one. -/
theorem unread_text_not_routed :
    ∃ r, build (stub "app" []) [stub "one" ["my-app.User"], stub "my-app" ["User"]] = .ok r ∧
      RoutedTo r.modules "my-app.User" (stub "my-app" ["User"]) "User" ∧
      r.deserializeByClassName ⟨"my-app.User", .null⟩ =
        ⟨[.deserializeByClassName "my-app" "User"], .ok (.list [.string "my-app", .null])⟩ ∧
      r.deserialize .null (.text "my-app.User") =
        ⟨[.deserialize "one" (.text "my-app.User")], .ok (.list [.string "one", .null])⟩ ∧
      r.tableForType (.text "my-app.User") =
        ⟨["one", "my-app", "app"].map fun m => .tableForType m (.text "my-app.User"), .ok none⟩ := by
  have hbuild : build (stub "app" []) [stub "one" ["my-app.User"], stub "my-app" ["User"]] = .ok ⟨_, _⟩ :=
    build_eq_ok_iff.mpr ⟨rfl, by decide⟩
  have hread : RequestedType.token? (.text "my-app.User") = none :=
    TypeToken.read?_eq_none_of_mem (show '-' ∈ "my-app.User".toList by decide) (by decide) (by decide)
  refine ⟨_, hbuild, routedTo_of_moduleOf? rfl, rfl, ?_, ?_⟩
  · rw [deserialize_of_not_read hread]
    rfl
  · rw [tableForType, hread]
    rfl

end Registry

end EntitySchema
