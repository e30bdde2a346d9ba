import Mathlib.Data.List.Find
import Mathlib.Data.List.Nodup
import Mathlib.Tactic.Common
import EntitySchema.Proofs.Dispatch.Registry

/-!
# Instances come back

An instance of a registered class is encoded under the name that its class has in the registry (`NamedIn`):
the bare name if the root registers the class, and otherwise the name behind that of the first module that
registers it.  Among registered classes none of which extends another one, a value is an instance of one
only (`Unrelated.eq_of_isInstance`), so naming, encoding and decoding find the same entry, although they
look for it in different ways.  The module that is found in front of the name is the one that has given it,
and decoding gives the instance back (`deserializeByClassName_encodeWithClassName`).
-/

namespace EntitySchema

/-! ### Classes -/

namespace ClassHierarchy

/-- A class extends itself. -/
lemma extends_refl (h : ClassHierarchy) (id : String) : ClassHierarchy.extends h id id = true := by
  unfold ClassHierarchy.extends
  simp

/-- A class that is not declared extends only itself. -/
lemma eq_of_extends {h : ClassHierarchy} {id ancestor : String} (hid : id ∉ h.map (·.id))
    (hextends : ClassHierarchy.extends h id ancestor = true) : id = ancestor := by
  induction h with
  | nil => simpa [ClassHierarchy.extends] using hextends
  | cons c cs ih =>
    rw [List.map_cons, List.mem_cons, not_or] at hid
    have hne : ¬ c.id = id := fun heq => hid.1 heq.symm
    unfold ClassHierarchy.extends at hextends
    simp only [beq_iff_eq, hne, if_false, Bool.or_eq_true] at hextends
    rcases hextends with heq | hextends
    · exact heq
    · exact ih hid.2 hextends

/-- A class that is no parent is extended only by itself. -/
lemma eq_of_extends_leaf {h : ClassHierarchy} {id ancestor : String}
    (hleaf : ∀ c ∈ h, c.parent ≠ some ancestor)
    (hextends : ClassHierarchy.extends h id ancestor = true) : id = ancestor := by
  induction h generalizing id with
  | nil => exact eq_of_extends List.not_mem_nil hextends
  | cons c cs ih =>
    have hrest : ∀ d ∈ cs, d.parent ≠ some ancestor := fun d hd => hleaf d (List.mem_cons_of_mem c hd)
    unfold ClassHierarchy.extends at hextends
    simp only [Bool.or_eq_true, beq_iff_eq] at hextends
    rcases hextends with heq | hextends
    · exact heq
    split at hextends
    · cases hparent : c.parent with
      | none => simp [hparent] at hextends
      | some parent =>
        rw [hparent] at hextends
        obtain rfl := ih hrest hextends
        exact absurd hparent (hleaf c List.mem_cons_self)
    · exact ih hrest hextends

/-- What holds among the earlier classes holds among all, since each class is declared once. -/
lemma extends_cons {c : ClassDecl} {cs : ClassHierarchy} (hc : c.id ∉ cs.map (·.id)) {id ancestor : String}
    (hextends : ClassHierarchy.extends cs id ancestor = true) :
    ClassHierarchy.extends (c :: cs) id ancestor = true := by
  by_cases hid : c.id = id
  · rw [hid] at hc
    obtain rfl := eq_of_extends hc hextends
    exact extends_refl _ _
  · unfold ClassHierarchy.extends
    simp [hid, hextends]

/-- Of two classes that a class extends, one extends the other one. -/
theorem extends_total {h : ClassHierarchy} (hdeclared : (h.map (·.id)).Nodup) {id a b : String}
    (ha : ClassHierarchy.extends h id a = true) (hb : ClassHierarchy.extends h id b = true) :
    ClassHierarchy.extends h a b = true ∨ ClassHierarchy.extends h b a = true := by
  induction h generalizing id with
  | nil =>
    obtain rfl := eq_of_extends (by simp) ha
    exact Or.inl hb
  | cons c cs ih =>
    obtain ⟨hc, hcs⟩ := List.nodup_cons.mp hdeclared
    have hboth : ∀ start, ClassHierarchy.extends cs start a = true →
        ClassHierarchy.extends cs start b = true →
          ClassHierarchy.extends (c :: cs) a b = true ∨ ClassHierarchy.extends (c :: cs) b a = true :=
      fun start ha hb => (ih hcs ha hb).imp (extends_cons hc) (extends_cons hc)
    by_cases hida : id = a
    · rw [hida] at hb
      exact Or.inl hb
    by_cases hidb : id = b
    · rw [hidb] at ha
      exact Or.inr ha
    -- Both are found behind the class, or behind its parent.
    unfold ClassHierarchy.extends at ha hb
    simp only [hida, hidb, beq_iff_eq, Bool.or_eq_true, false_or] at ha hb
    split at ha
    · rename_i hid
      rw [if_pos hid] at hb
      cases hparent : c.parent with
      | none => simp [hparent] at ha
      | some parent =>
        simp only [hparent] at ha hb
        exact hboth parent ha hb
    · rename_i hid
      rw [if_neg hid] at hb
      exact hboth id ha hb

end ClassHierarchy

/-- Of the elements with a property, one is the first. -/
lemma exists_first_with {α : Type} {p : α → Prop} {l : List α} (h : ∃ a ∈ l, p a) :
    ∃ before a after, l = before ++ a :: after ∧ p a ∧ ∀ b ∈ before, ¬ p b := by
  classical
  have hsome : (l.find? fun a => decide (p a)).isSome := by
    obtain ⟨a, ha, hp⟩ := h
    exact List.find?_isSome.mpr ⟨a, ha, decide_eq_true hp⟩
  obtain ⟨a, hfind⟩ := Option.isSome_iff_exists.mp hsome
  obtain ⟨hp, before, after, hsplit, hbefore⟩ := List.find?_eq_some_iff_append.mp hfind
  exact ⟨before, a, after, hsplit, of_decide_eq_true hp, fun b hb => by simpa using hbefore b hb⟩

/-! ### Modules of classes -/

/-- A module with its classes and tables. -/
structure ModelModule where
  moduleName : String
  models : List ModelEntry
  tables : List Table := []

namespace ModelModule

/-- The serializer of a module. -/
def serializer (classes : ClassHierarchy) (m : ModelModule) : Serializer :=
  .ofModels classes m.moduleName m.models m.tables

/-- The first entry of a class. -/
def entry? (m : ModelModule) (classId : String) : Option ModelEntry :=
  m.models.find? (·.classId == classId)

/-- A class is registered if there is an entry for it. -/
def Registers (m : ModelModule) (classId : String) : Prop :=
  ∃ e ∈ m.models, e.classId = classId

/-- The names of the classes are different and have no points, and what is encoded as an instance of a class
is decoded to the same instance. -/
structure Lawful (classes : ClassHierarchy) (m : ModelModule) : Prop where
  distinct : (m.models.map (·.className)).Nodup
  pointless : ∀ e ∈ m.models, '.' ∉ e.className.toList
  roundTrip : ∀ e ∈ m.models, ∀ v : Value, v.isInstance classes e.classId = true →
    ∃ data, e.toJson v = .ok data ∧ e.fromJson data = .ok v

lemma registers_iff_ne_none {m : ModelModule} {classId : String} :
    m.Registers classId ↔ m.entry? classId ≠ none := by
  simp [Registers, entry?]

lemma mem_of_entry? {m : ModelModule} {classId : String} {e : ModelEntry} (h : m.entry? classId = some e) :
    e ∈ m.models ∧ e.classId = classId :=
  ⟨List.mem_of_find?_eq_some h, by simpa using List.find?_some h⟩

/-- A class that modules register has an entry in the first one of them that registers it. -/
lemma exists_first {modules : List ModelModule} {classId : String} (h : ∃ m ∈ modules, m.Registers classId) :
    ∃ before m after e, modules = before ++ m :: after ∧ (∀ m' ∈ before, ¬ m'.Registers classId) ∧
      m.entry? classId = some e := by
  obtain ⟨before, m, after, hsplit, hm, hbefore⟩ := exists_first_with h
  obtain ⟨e, he⟩ := Option.ne_none_iff_exists'.mp (registers_iff_ne_none.mp hm)
  exact ⟨before, m, after, e, hsplit, hbefore, he⟩

/-- An entry is found by its name. -/
lemma Lawful.named?_eq {classes : ClassHierarchy} {m : ModelModule} (h : m.Lawful classes) {e : ModelEntry}
    (he : e ∈ m.models) : ModelEntry.named? m.models e.className = some e := by
  obtain ⟨e', he'⟩ : ∃ e', ModelEntry.named? m.models e.className = some e' := by
    refine Option.isSome_iff_exists.mp (List.find?_isSome.mpr ⟨e, List.mem_reverse.mpr he, ?_⟩)
    exact beq_self_eq_true _
  have hmem : e' ∈ m.models := List.mem_reverse.mp (List.mem_of_find?_eq_some he')
  have hname : e'.className = e.className := by simpa using List.find?_some he'
  rw [he', List.inj_on_of_nodup_map h.distinct hmem he hname]

end ModelModule

/-- No registered class extends another registered class. -/
def Unrelated (classes : ClassHierarchy) (modules : List ModelModule) : Prop :=
  ∀ m ∈ modules, ∀ m' ∈ modules, ∀ e ∈ m.models, ∀ e' ∈ m'.models,
    ClassHierarchy.extends classes e.classId e'.classId = true → e.classId = e'.classId

/-- The name of a class in a registry: the bare one if the root registers the class, and otherwise the one
behind the name of the first module that registers it. -/
inductive NamedIn (root : ModelModule) (modules : List ModelModule) (classId : String) : String → Prop
  | bare {e : ModelEntry} (h : root.entry? classId = some e) : NamedIn root modules classId e.className
  | qualified {before after : List ModelModule} {m : ModelModule} {e : ModelEntry}
      (hroot : ¬ root.Registers classId) (hmodules : modules = before ++ m :: after)
      (hbefore : ∀ m' ∈ before, ¬ m'.Registers classId) (h : m.entry? classId = some e) :
      NamedIn root modules classId (m.moduleName ++ "." ++ e.className)

/-! ### Traced answers -/

namespace Traced

variable {α β : Type}

@[simp] lemma result_asked (c : Call) (a : α) : (asked c (.ok a)).result = .ok a := rfl

/-- An answer is passed on. -/
lemma result_andThen {x : Traced α} {a : α} (h : x.result = .ok a) (f : α → Traced β) :
    (x.andThen f).result = (f a).result := by
  rw [andThen, h]

end Traced

section Instance

variable {classes : ClassHierarchy} {v : Value} {classId : String}

/-- An instance is no scalar. -/
lemma Value.ofValue?_of_isInstance (hv : v.isInstance classes classId = true) : WireScalar.ofValue? v = none := by
  cases v with
  | model => rfl
  | _ => cases hv

/-- A value is an instance of only one of the registered classes. -/
lemma Unrelated.eq_of_isInstance {modules : List ModelModule} (h : Unrelated classes modules)
    (hclasses : (classes.map (·.id)).Nodup) {m m' : ModelModule} (hm : m ∈ modules) (hm' : m' ∈ modules)
    {e e' : ModelEntry} (he : e ∈ m.models) (he' : e' ∈ m'.models)
    (hv : v.isInstance classes e.classId = true) (hv' : v.isInstance classes e'.classId = true) :
    e.classId = e'.classId := by
  cases v with
  | model valueClass data =>
    rcases ClassHierarchy.extends_total hclasses hv hv' with hextends | hextends
    · exact h m hm m' hm' e he e' he' hextends
    · exact (h m' hm' m hm e' he' e he hextends).symm
  | _ => cases hv

/-- The owner of an instance of a class in a module is the first entry of that class. -/
def OwnedAs (classes : ClassHierarchy) (v : Value) (classId : String) (m : ModelModule) : Prop :=
  ModelEntry.owner? classes m.models v = m.entry? classId

/-- Every registered module finds the owner of an instance by its class. -/
lemma Unrelated.ownedAs {modules : List ModelModule} (h : Unrelated classes modules)
    (hclasses : (classes.map (·.id)).Nodup) (hid : ∃ m ∈ modules, m.Registers classId)
    (hv : v.isInstance classes classId = true) {m : ModelModule} (hm : m ∈ modules) :
    OwnedAs classes v classId m := by
  obtain ⟨m₀, hm₀, e₀, he₀, rfl⟩ := hid
  refine List.find?_congr fun e he => ?_
  rw [Bool.eq_iff_iff, beq_iff_eq]
  constructor
  · exact fun hve => h.eq_of_isInstance hclasses hm hm₀ he he₀ hve hv
  · intro heq
    rw [heq]
    exact hv

end Instance

/-! ### Asking modules -/

namespace Registry

variable {classes : ClassHierarchy} {v : Value} {classId : String} {m : ModelModule}

lemma askClassName_serializer (hm : OwnedAs classes v classId m) :
    (askClassName (m.serializer classes) v).result = .ok ((m.entry? classId).map (·.className)) := by
  rw [← hm]
  rfl

/-- A module that does not register the class of an instance does not encode it. -/
lemma encodeWith_of_not_registers (hm : OwnedAs classes v classId m) (hid : ¬ m.Registers classId)
    (name : String → String) : (encodeWith (m.serializer classes) name v).result = .ok none := by
  rw [ModelModule.registers_iff_ne_none, not_not] at hid
  have hname := askClassName_serializer hm
  rw [hid] at hname
  rw [encodeWith, Traced.result_andThen hname]
  rfl

/-- A module that registers the class of an instance encodes it, and what it gives is decoded to the
instance. -/
lemma exists_encodeWith (hm : OwnedAs classes v classId m) (hlawful : m.Lawful classes)
    (hv : v.isInstance classes classId = true) {e : ModelEntry} (he : m.entry? classId = some e)
    (name : String → String) :
    ∃ data, (encodeWith (m.serializer classes) name v).result = .ok (some ⟨name e.className, data⟩) ∧
      (m.serializer classes).deserializeByClassName ⟨e.className, data⟩ = .ok (some v) := by
  obtain ⟨hmem, rfl⟩ := ModelModule.mem_of_entry? he
  obtain ⟨data, htoJson, hfromJson⟩ := hlawful.roundTrip e hmem v hv
  have howner : ModelEntry.owner? classes m.models v = some e := hm.trans he
  refine ⟨data, ?_, ?_⟩
  · have hname := askClassName_serializer hm
    rw [he] at hname
    have hencode : (askEncode (m.serializer classes) v).result = .ok (some data) := by
      simp [askEncode, ModelModule.serializer, Serializer.ofModels, howner, htoJson, Except.map]
    rw [encodeWith, Traced.result_andThen hname]
    dsimp only [Option.map_some]
    rw [Traced.result_andThen hencode]
    rfl
  · simp [ModelModule.serializer, Serializer.ofModels, hlawful.named?_eq hmem, hfromJson, Except.map]

/-! ### Asking the modules behind the root -/

variable {before : List ModelModule} (after : List ModelModule) {e : ModelEntry}

/-- The first module that registers the class of an instance names it. -/
lemma result_classNameAmong (hbefore : ∀ m' ∈ before, OwnedAs classes v classId m' ∧ ¬ m'.Registers classId)
    (hm : OwnedAs classes v classId m) (he : m.entry? classId = some e) :
    (classNameAmong v ((before ++ m :: after).map (·.serializer classes))).result =
      .ok (some (m.moduleName ++ "." ++ e.className)) := by
  induction before with
  | nil =>
    have hname := askClassName_serializer hm
    rw [he] at hname
    rw [List.nil_append, List.map_cons, classNameAmong, Traced.result_andThen hname]
    rfl
  | cons m' before ih =>
    obtain ⟨hm', hid⟩ := hbefore m' List.mem_cons_self
    have hname := askClassName_serializer hm'
    rw [ModelModule.registers_iff_ne_none, not_not] at hid
    rw [hid] at hname
    rw [List.cons_append, List.map_cons, classNameAmong, Traced.result_andThen hname]
    exact ih fun m'' hm'' => hbefore m'' (List.mem_cons_of_mem m' hm'')

/-- The first module that registers the class of an instance encodes it. -/
lemma exists_encodeAmong (hbefore : ∀ m' ∈ before, OwnedAs classes v classId m' ∧ ¬ m'.Registers classId)
    (hm : OwnedAs classes v classId m) (hlawful : m.Lawful classes) (hv : v.isInstance classes classId = true)
    (he : m.entry? classId = some e) :
    ∃ data, (encodeAmong v ((before ++ m :: after).map (·.serializer classes))).result =
        .ok (some ⟨qualified (m.serializer classes) e.className, data⟩) ∧
      (m.serializer classes).deserializeByClassName ⟨e.className, data⟩ = .ok (some v) := by
  induction before with
  | nil =>
    obtain ⟨data, hencode, hdecode⟩ :=
      exists_encodeWith hm hlawful hv he (qualified (m.serializer classes))
    refine ⟨data, ?_, hdecode⟩
    rw [List.nil_append, List.map_cons, encodeAmong, Traced.result_andThen hencode]
    rfl
  | cons m' before ih =>
    obtain ⟨hm', hid⟩ := hbefore m' List.mem_cons_self
    have hnone := encodeWith_of_not_registers hm' hid (qualified (m'.serializer classes))
    rw [List.cons_append, List.map_cons, encodeAmong, Traced.result_andThen hnone]
    exact ih fun m'' hm'' => hbefore m'' (List.mem_cons_of_mem m' hm'')

/-! ### Instances of registered classes -/

variable {after} {root : ModelModule} {modules : List ModelModule} {r : Registry}

/-- An instance of a class of the root comes back under its bare name. -/
lemma roundTrip_of_root (hroot : r.root = root.serializer classes) (howned : OwnedAs classes v classId root)
    (hlawful : root.Lawful classes) (hv : v.isInstance classes classId = true) (he : root.entry? classId = some e) :
    ∃ data, (r.encodeWithClassName v).result = .ok ⟨e.className, data⟩ ∧
      (r.classNameForObject v).result = .ok (some e.className) ∧
      (r.deserializeByClassName ⟨e.className, data⟩).result = .ok v := by
  obtain ⟨data, hencode, hdecode⟩ := exists_encodeWith howned hlawful hv he id
  have hname := askClassName_serializer howned
  rw [he] at hname
  rw [← hroot] at hencode hdecode hname
  refine ⟨data, ?_, ?_, ?_⟩
  · rw [encodeWithClassName, Traced.result_andThen hencode]
    rfl
  · rw [classNameForObject, Traced.result_andThen hname]
    rfl
  · have hpoint := hlawful.pointless e (ModelModule.mem_of_entry? he).1
    have hanswer : (Traced.asked (.deserializeByClassName r.root.moduleName e.className)
        (r.root.deserializeByClassName ⟨e.className, data⟩)).result = .ok (some v) := by
      rw [hdecode]
      rfl
    rw [deserializeByClassName, moduleOf?_eq_none r hpoint]
    dsimp only
    rw [Traced.result_andThen hanswer]
    rfl

/-- An instance of a class of a module, which no module in front of it and not the root registers, comes
back under the name behind that of the module. -/
lemma roundTrip_of_module (hroot : r.root = root.serializer classes)
    (hmodules : r.modules = (before ++ m :: after).map (·.serializer classes))
    (hnames : (r.modules.map (·.moduleName)).Nodup)
    (hnone : OwnedAs classes v classId root ∧ ¬ root.Registers classId)
    (hbefore : ∀ m' ∈ before, OwnedAs classes v classId m' ∧ ¬ m'.Registers classId)
    (howned : OwnedAs classes v classId m) (hlawful : m.Lawful classes)
    (hv : v.isInstance classes classId = true) (he : m.entry? classId = some e) :
    ∃ data, (r.encodeWithClassName v).result = .ok ⟨m.moduleName ++ "." ++ e.className, data⟩ ∧
      (r.classNameForObject v).result = .ok (some (m.moduleName ++ "." ++ e.className)) ∧
      (r.deserializeByClassName ⟨m.moduleName ++ "." ++ e.className, data⟩).result = .ok v := by
  have hscalar := Value.ofValue?_of_isInstance hv
  obtain ⟨data, hencode, hdecode⟩ := exists_encodeAmong after hbefore howned hlawful hv he
  have hname := result_classNameAmong after hbefore howned he
  rw [← hmodules] at hencode hname
  refine ⟨data, ?_, ?_, ?_⟩
  · have hrootEncode := encodeWith_of_not_registers hnone.1 hnone.2 id
    rw [← hroot] at hrootEncode
    rw [encodeWithClassName, Traced.result_andThen hrootEncode, hscalar]
    dsimp only
    rw [Traced.result_andThen hencode]
    rfl
  · have hrootName := askClassName_serializer hnone.1
    rw [ModelModule.registers_iff_ne_none, not_not] at hnone
    rw [← hroot, hnone.2] at hrootName
    rw [classNameForObject, Traced.result_andThen hrootName, hscalar]
    exact hname
  · have hmem : m.serializer classes ∈ r.modules := by
      rw [hmodules]
      exact List.mem_map_of_mem (List.mem_append_right before List.mem_cons_self)
    have hpoint := hlawful.pointless e (ModelModule.mem_of_entry? he).1
    have hmodule : r.moduleOf? (m.moduleName ++ "." ++ e.className) = some (m.serializer classes, e.className) :=
      moduleOf?_qualified hnames hmem hpoint
    have hanswer : (Traced.asked (.deserializeByClassName (m.serializer classes).moduleName e.className)
        ((m.serializer classes).deserializeByClassName ⟨e.className, data⟩)).result = .ok (some v) := by
      rw [hdecode]
      rfl
    rw [deserializeByClassName, hmodule]
    dsimp only
    rw [Traced.result_andThen hanswer]
    rfl

/-- In a registry of modules whose class names are different and without points, whose classes do not extend
each other and whose codecs give every instance back, every instance of a registered class is encoded under
the name that its class has in the registry, which has no points exactly if the root registers the class,
and decoding the record gives the instance back. -/
theorem deserializeByClassName_encodeWithClassName (hclasses : (classes.map (·.id)).Nodup)
    (hbuild : build (root.serializer classes) (modules.map (·.serializer classes)) = .ok r)
    (hlawful : ∀ m ∈ root :: modules, m.Lawful classes) (hunrelated : Unrelated classes (root :: modules))
    (hregistered : ∃ m ∈ root :: modules, m.Registers classId)
    (hv : v.isInstance classes classId = true) :
    ∃ record, (r.encodeWithClassName v).result = .ok record ∧
      (r.classNameForObject v).result = .ok (some record.className) ∧
      NamedIn root modules classId record.className ∧
      ('.' ∉ record.className.toList ↔ root.Registers classId) ∧
      (r.deserializeByClassName record).result = .ok v := by
  obtain ⟨rfl, hnames⟩ := build_eq_ok_iff.mp hbuild
  have howned : ∀ m ∈ root :: modules, OwnedAs classes v classId m :=
    fun m hm => hunrelated.ownedAs hclasses hregistered hv hm
  have hrootMem : root ∈ root :: modules := List.mem_cons_self
  by_cases hroot : root.Registers classId
  · obtain ⟨e, he⟩ := Option.ne_none_iff_exists'.mp (ModelModule.registers_iff_ne_none.mp hroot)
    obtain ⟨data, hencode, hname, hdecode⟩ :=
      roundTrip_of_root (r := ⟨_, _⟩) rfl (howned root hrootMem) (hlawful root hrootMem) hv he
    have hpoint := (hlawful root hrootMem).pointless e (ModelModule.mem_of_entry? he).1
    exact ⟨⟨e.className, data⟩, hencode, hname, .bare he, iff_of_true hpoint hroot, hdecode⟩
  · obtain ⟨m₀, hm₀, hm₀id⟩ := hregistered
    have hmodule : ∃ m ∈ modules, m.Registers classId := by
      rcases List.mem_cons.mp hm₀ with rfl | hm₀
      · exact absurd hm₀id hroot
      · exact ⟨m₀, hm₀, hm₀id⟩
    obtain ⟨before, m, after, e, rfl, hbefore, he⟩ := ModelModule.exists_first hmodule
    have hmem : m ∈ root :: (before ++ m :: after) :=
      List.mem_cons_of_mem root (List.mem_append_right before List.mem_cons_self)
    have hbeforeOwned : ∀ m' ∈ before, OwnedAs classes v classId m' ∧ ¬ m'.Registers classId :=
      fun m' hm' =>
        ⟨howned m' (List.mem_cons_of_mem root (List.mem_append_left _ hm')), hbefore m' hm'⟩
    obtain ⟨data, hencode, hname, hdecode⟩ :=
      roundTrip_of_module (r := ⟨_, _⟩) rfl rfl (List.nodup_cons.mp hnames).2
        ⟨howned root hrootMem, hroot⟩ hbeforeOwned (howned m hmem) (hlawful m hmem) hv he
    refine ⟨⟨m.moduleName ++ "." ++ e.className, data⟩, hencode, hname,
      .qualified hroot rfl hbefore he, iff_of_false ?_ hroot, hdecode⟩
    simp

/-! ### A sample -/

/-- A session is a token; nothing else extends another class. -/
def sampleClasses : ClassHierarchy :=
  [⟨"Session", some "Token"⟩, ⟨"UserInfo", none⟩, ⟨"Token", none⟩, ⟨"Note", none⟩]

/-- The entry of a class under its own name.  Its instances are encoded as objects with their fields; data that has
no entries is the one field of an instance. -/
def plainEntry (className : String) : ModelEntry :=
  { className
    classId := className
    fromJson := fun data => .ok (.model className (data.fields?.getD [("data", data)]))
    toJson := fun v =>
      match v with
      | .model _ fields => .ok (.object fields)
      | v => .error (.ofShape v.kindName) }

/-- A module whose classes are encoded as their fields. -/
def plainModule (moduleName : String) (classNames : List String) : ModelModule :=
  { moduleName, models := classNames.map plainEntry }

/-- A plain module is lawful if its class names are different and without points, and no class extends one of
its classes. -/
lemma lawful_plainModule {moduleName : String} {classNames : List String} (hdistinct : classNames.Nodup)
    (hpointless : ∀ c ∈ classNames, '.' ∉ c.toList)
    (hleaf : ∀ c ∈ classNames, ∀ d ∈ classes, d.parent ≠ some c) :
    (plainModule moduleName classNames).Lawful classes where
  distinct := by
    simpa [plainModule, plainEntry, Function.comp_def] using hdistinct
  pointless e he := by
    obtain ⟨c, hc, rfl⟩ := List.mem_map.mp he
    exact hpointless c hc
  roundTrip e he v hv := by
    obtain ⟨c, hc, rfl⟩ := List.mem_map.mp he
    cases v with
    | model valueClass fields =>
      obtain rfl : valueClass = c := ClassHierarchy.eq_of_extends_leaf (hleaf c hc) hv
      exact ⟨.object fields, rfl, rfl⟩
    | _ => cases hv

/-- Notes are registered by the program and by a module, users by two modules, and the name of one module
stands in front of that of the other. -/
def sampleRoot : ModelModule :=
  plainModule "app" ["Note"]

def sampleModules : List ModelModule :=
  [plainModule "auth" ["UserInfo", "Note"], plainModule "auth.session" ["Session", "UserInfo"]]

/-- The session of a user comes back under the longer one of the two module names. -/
theorem roundTrip_session :
    ∃ r record, build (sampleRoot.serializer sampleClasses)
        (sampleModules.map (·.serializer sampleClasses)) = .ok r ∧
      (r.encodeWithClassName (.model "Session" [("token", .null)])).result = .ok record ∧
      record.className = "auth.session.Session" ∧
      (r.deserializeByClassName record).result = .ok (.model "Session" [("token", .null)]) := by
  have hlawful : ∀ m ∈ sampleRoot :: sampleModules, m.Lawful sampleClasses := by
    intro m hm
    simp only [sampleRoot, sampleModules, List.mem_cons, List.not_mem_nil, or_false] at hm
    rcases hm with rfl | rfl | rfl <;> exact lawful_plainModule (by decide) (by decide) (by decide)
  have hunrelated : Unrelated sampleClasses (sampleRoot :: sampleModules) := by
    unfold Unrelated
    decide
  have hbuild : build (sampleRoot.serializer sampleClasses)
      (sampleModules.map (·.serializer sampleClasses)) = .ok ⟨_, _⟩ :=
    build_eq_ok_iff.mpr ⟨rfl, by decide⟩
  have hregistered : ∃ m ∈ sampleRoot :: sampleModules, m.Registers "Session" :=
    ⟨plainModule "auth.session" ["Session", "UserInfo"], by simp [sampleModules], plainEntry "Session",
      List.mem_cons_self, rfl⟩
  obtain ⟨record, hencode, -, -, -, hdecode⟩ :=
    deserializeByClassName_encodeWithClassName (by decide) hbuild hlawful hunrelated hregistered
      (v := .model "Session" [("token", .null)]) (by decide)
  refine ⟨_, record, hbuild, hencode, ?_, hdecode⟩
  have hrecord : (.ok record : Except Failure Envelope) =
      .ok ⟨"auth.session.Session", .object [("token", .null)]⟩ :=
    hencode.symm.trans (by rfl)
  rw [Except.ok.inj hrecord]

end Registry

end EntitySchema
