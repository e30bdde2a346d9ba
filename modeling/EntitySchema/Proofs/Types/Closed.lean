import Mathlib.Data.List.Basic
import Mathlib.Tactic.Common
import EntitySchema.Proofs.Compilation

/-!
# Types of definitions

A definition has the type that its document gives it, and the fields that hold it have a reference that is
made when names are resolved.  Both are made of the name, the module, the kind and the serialization that
are declared (`selfType_ofDocument`, `Entity.selfType_toDefinition`), so they are the same up to nullability.  No two
definitions share a module and a name (`Accepted.apart`), so in a compilation without errors the types of all
fields are closed: whatever is inside of them is well formed, and every entity type is the type of exactly
one definition (`types_closed`).
-/

namespace EntitySchema

open RelationResolution (visited consistent_visited)
open TypeResolution (referenceTo)

/-! ### Parts of types -/

namespace TypeDef

/-- A type is part of itself and of every type that has it inside of an argument. -/
inductive PartOf (t : TypeDef) : TypeDef → Prop
  | self : PartOf t t
  | argument {u g : TypeDef} (hg : g ∈ u.generics) (h : PartOf t g) : PartOf t u

/-- The parts of a well formed type are well formed, if its leaves have no arguments. -/
lemma WellFormed.part {leaf : TypeDef → Prop} (hleaf : ∀ t, leaf t → t.generics = []) {t u : TypeDef}
    (hu : u.WellFormed leaf) (h : t.PartOf u) : t.WellFormed leaf := by
  induction h with
  | self => exact hu
  | argument hg _ ih =>
    refine ih ?_
    cases hu with
    | scalar | vector => cases hg
    | container _ _ hgenerics => exact hgenerics _ hg
    | leaf h =>
      rw [hleaf _ h] at hg
      cases hg

/-- A reference has no arguments. -/
lemma IsReference.generics_eq_nil {es : List Entity} {t : TypeDef} (h : t.IsReference es) : t.generics = [] := by
  obtain ⟨e, -, nullable, -, rfl⟩ := h
  rfl

/-- The containers are lists, sets and maps. -/
lemma builtin?_eq_container {name : String} {arity : Nat} (h : builtin? name = some (.container arity)) :
    ((name = "List" ∨ name = "Set") ∧ arity = 1) ∨ (name = "Map" ∧ arity = 2) := by
  unfold builtin? at h
  split at h
  · cases h
  split at h
  · cases h
  split at h <;> cases h <;> simp

/-- A type that is well formed by itself: only vectors have a dimension, which is positive, and only containers
have arguments, as many as they take. -/
structure Regular (t : TypeDef) : Prop where
  resolved : t.category ≠ .unresolved
  flat : t.category = .scalar ∨ t.category = .vector → t.generics = []
  vector : t.category = .vector ↔ t.dimension.isSome
  positive : ∀ d, t.dimension = some d → isPositive d = true
  container : t.category = .container ↔ t.name = "List" ∨ t.name = "Set" ∨ t.name = "Map"
  one : t.name = "List" ∨ t.name = "Set" → t.generics.length = 1
  two : t.name = "Map" → t.generics.length = 2

/-- A name that stands for something else is not that of a container. -/
lemma ne_of_builtin? {name : String} {b : Option Builtin} (h : builtin? name = b)
    (hb : ∀ arity, b ≠ some (.container arity)) : name ≠ "List" ∧ name ≠ "Set" ∧ name ≠ "Map" := by
  subst h
  refine ⟨?_, ?_, ?_⟩
  · rintro rfl
    exact hb 1 rfl
  · rintro rfl
    exact hb 1 rfl
  · rintro rfl
    exact hb 2 rfl

/-- A well formed type over references is regular. -/
theorem WellFormed.regular {es : List Entity} {t : TypeDef} (h : t.WellFormed (IsReference es)) : t.Regular := by
  cases h with
  | scalar h =>
    obtain ⟨hlist, hset, hmap⟩ := ne_of_builtin? h (by simp)
    constructor <;> simp [TypeDef.scalar, hlist, hset, hmap]
  | vector h hpositive =>
    obtain ⟨hlist, hset, hmap⟩ := ne_of_builtin? h (by simp)
    constructor <;> simp [hpositive, hlist, hset, hmap]
  | container h hlength _ =>
    rcases builtin?_eq_container h with ⟨hname, rfl⟩ | ⟨rfl, rfl⟩
    · rcases hname with rfl | rfl <;> constructor <;> simp [hlength]
    · constructor <;> simp [hlength]
  | leaf h =>
    obtain ⟨e, -, nullable, hb, rfl⟩ := h
    obtain ⟨hlist, hset, hmap⟩ := ne_of_builtin? hb (by simp)
    constructor <;> simp [referenceTo, hlist, hset, hmap]

end TypeDef

/-! ### Types of entities -/

/-- How the values of a definition are stored, if it is an enum that says so. -/
def ModelDef.serialized? (m : ModelDef) : Option EnumSerialization :=
  match m.body with
  | .enum _ serialized _ => serialized
  | _ => none

/-- The type that a definition declares. -/
def ModelDef.selfType (m : ModelDef) : TypeDef :=
  Entity.selfType m.header.className m.header.moduleAlias m.kind m.serialized?

namespace Entity

/-- A reference is made of what the definition declares. -/
lemma selfType_toDefinition (e : Entity) (nullable : Bool) :
    e.toDefinition.selfType.withNullable nullable = referenceTo e nullable := by
  obtain ⟨header, nameSpan, body⟩ := e
  cases body <;> rfl

lemma selfType_withFields (e : Entity) (fs : List FieldDraft) :
    (e.withFields fs).toDefinition.selfType = e.toDefinition.selfType := by
  obtain ⟨header, nameSpan, body⟩ := e
  cases body <;> rfl

lemma selfType_checkEntity (e : Entity) :
    (IndexCheck.checkEntity e).1.toDefinition.selfType = e.toDefinition.selfType := by
  obtain ⟨header, nameSpan, body⟩ := e
  cases body with
  | «class» c =>
    unfold IndexCheck.checkEntity
    dsimp only
    split <;> rfl
  | exception | enum => rfl

/-- The type of an entity that is read is the one that it declares. -/
lemma type_ofKind (d : ParsedDocument) (entry : MappingEntry) (kind : EntityKind) (className : String) :
    (ofKind d entry kind className).1.header.type = (ofKind d entry kind className).1.toDefinition.selfType := by
  cases kind <;> rfl

/-- The type of an entity that is read from a document is the one that it declares. -/
lemma selfType_ofDocument {input : DocumentInput} {e : Entity} (h : (ofDocument input).1 = some e) :
    e.header.type = e.toDefinition.selfType := by
  obtain ⟨d, -, hd⟩ := ofDocument_eq_some h
  obtain ⟨entry, kind, className, -, -, -, rfl⟩ := ofParsed_eq_some hd
  exact type_ofKind d entry kind className

end Entity

namespace Compilation

variable {project : ModuleSource} {dependencies : List ModuleSource} {given : List Diagnostic}

/-- The passes keep the type that an entity declares. -/
lemma selfType_finished (index : EntityIndex) (i : Nat) (e : Entity) :
    (finished index i e).toDefinition.selfType = e.toDefinition.selfType := by
  rw [finished, Entity.selfType_checkEntity, Entity.selfType_withFields]

/-- The type of an entity with resolved types is the one that it declares. -/
lemma Accepted.selfType (h : Accepted project dependencies) {i : Nat} {e : Entity}
    (he : (declarations project dependencies).typed.entities[i]? = some e) :
    e.header.type = e.toDefinition.selfType := by
  obtain ⟨e₀, he₀, rfl⟩ := exists_declared he
  obtain ⟨m, -, d, -, hd⟩ := (h.complete.entities e₀).mp he₀
  rw [TypeResolution.header_typedEntity, TypeResolution.typedEntity, TypeResolution.resolveEntity,
    Entity.selfType_withFields]
  exact Entity.selfType_ofDocument hd

/-! ### Definitions with one name -/

/-- The passes keep the keys of the entities. -/
lemma keys_final :
    (final project dependencies).map Entity.key =
      (declarations project dependencies).typed.entities.map Entity.key := by
  refine List.ext_getElem? fun i => ?_
  rw [List.getElem?_map, List.getElem?_map, getElem?_final, Option.map_map]
  refine congrArg (Option.map · _) (funext fun e => ?_)
  simp [Entity.key, Entity.moduleAlias, Entity.className]

/-- Two definitions differ in their modules or in their names. -/
def Apart (m m' : ModelDef) : Prop :=
  m.header.moduleAlias = m'.header.moduleAlias → m.header.className ≠ m'.header.className

/-- No two definitions share a module and a name. -/
theorem Accepted.apart (h : Accepted project dependencies) :
    (compile project dependencies given).models.Pairwise Apart := by
  have hfinal : (final project dependencies).Pairwise fun e e' => e.key ≠ e'.key := by
    have hkeys := List.pairwise_map.mpr h.unique.1
    rw [← keys_final] at hkeys
    exact List.pairwise_map.mp hkeys
  rw [models, modules_compile h, List.pairwise_flatMap]
  refine ⟨?_, ?_⟩
  · intro p hp
    obtain ⟨s, -, rfl⟩ := List.mem_map.mp hp
    refine List.pairwise_map.mpr ((hfinal.filter _).imp fun {e e'} hne halias hname => hne ?_)
    simp only [Entity.header_toDefinition] at halias hname
    simp [Entity.key, Entity.moduleAlias, Entity.className, halias, hname]
  · refine List.pairwise_map.mpr ((List.pairwise_map.mp h.complete.apart).imp ?_)
    intro s s' hne m hm m' hm' halias
    obtain ⟨e, -, he, rfl⟩ := mem_models_definitionsOf.mp hm
    obtain ⟨e', -, he', rfl⟩ := mem_models_definitionsOf.mp hm'
    exact absurd (he.symm.trans (halias.trans he')) hne

/-! ### Closed types -/

/-- A type that is closed over definitions: it is regular, and if it is an entity type, it is the type of
exactly one of them, up to nullability. -/
structure Closed (ms : List ModelDef) (t : TypeDef) : Prop extends t.Regular where
  entity : t.category = .entity → ∃! i : Nat, ∃ m : ModelDef, ms[i]? = some m ∧ m.header.type = t.withNullable false

/-- The type of a definition determines it. -/
lemma Accepted.position_eq_of_type (h : Accepted project dependencies) {i j : Nat} {m m' : ModelDef}
    (hm : (compile project dependencies given).models[i]? = some m)
    (hm' : (compile project dependencies given).models[j]? = some m')
    (htype : m.selfType = m'.selfType) : i = j := by
  simp only [ModelDef.selfType, Entity.selfType, TypeDef.mk.injEq, Option.some.injEq] at htype
  obtain ⟨hname, -, -, -, halias, -⟩ := htype
  exact RelationResolution.eq_of_pairwise h.apart hm hm' (fun hne => hne halias hname)
    fun hne => hne halias.symm hname.symm

/-- Every definition has the type that it declares. -/
lemma Accepted.type_eq (h : Accepted project dependencies) {m : ModelDef}
    (hm : m ∈ (compile project dependencies given).models) : m.header.type = m.selfType := by
  obtain ⟨i, e, he, rfl⟩ := (mem_models_iff h).mp hm
  rw [Entity.header_toDefinition, header_finished, selfType_finished]
  exact h.selfType he

/-- A reference is the type of exactly one definition. -/
lemma Accepted.existsUnique_of_isReference (h : Accepted project dependencies) {t : TypeDef}
    (ht : t.IsReference (declarations project dependencies).typed.entities) :
    ∃! i : Nat, ∃ m : ModelDef, (compile project dependencies given).models[i]? = some m ∧
      m.header.type = t.withNullable false := by
  obtain ⟨e, he, nullable, -, rfl⟩ := ht
  obtain ⟨j, hj⟩ := List.mem_iff_getElem?.mp he
  have hmem : (finished (declarations project dependencies).typed j e).toDefinition ∈
      (compile project dependencies given).models := (mem_models_iff h).mpr ⟨j, e, hj, rfl⟩
  have htype : (finished (declarations project dependencies).typed j e).toDefinition.header.type =
      (referenceTo e nullable).withNullable false := by
    rw [h.type_eq hmem, selfType_finished, ← Entity.selfType_toDefinition]
    rfl
  obtain ⟨i, hi⟩ := List.mem_iff_getElem?.mp hmem
  refine ⟨i, ⟨_, hi, htype⟩, ?_⟩
  rintro i' ⟨m', hi', htype'⟩
  refine h.position_eq_of_type hi' hi ?_
  rw [← h.type_eq (List.mem_of_getElem? hi'), ← h.type_eq hmem, htype', htype]

/-- In a compilation without errors every definition has the type that it declares, and the types inside of
the types of all fields are closed over the definitions. -/
theorem types_closed (hno : (compile project dependencies given).hasErrors = false) :
    ∀ m ∈ (compile project dependencies given).models, m.header.type = m.selfType ∧
      ∀ f ∈ m.fields, ∀ t : TypeDef, t.PartOf f.type → Closed (compile project dependencies given).models t := by
  have h := accepted_of_hasErrors hno
  intro m hm
  refine ⟨h.type_eq hm, fun f hf t ht => ?_⟩
  obtain ⟨i, e, he, rfl⟩ := (mem_models_iff h).mp hm
  obtain ⟨d, hd, rfl⟩ := mem_fields_finished hf
  have hfield := ((consistent_visited h.typed).fields i d hd).wellFormed
  have hpart := hfield.part (fun _ => TypeDef.IsReference.generics_eq_nil) ht
  exact ⟨hpart.regular, fun hc => h.existsUnique_of_isReference (TypeDef.isReference_of_category hpart hc)⟩

/-- The elements of a team are employees, whose type is that of exactly one definition. -/
theorem types_closed_staff :
    ∃ m ∈ (compile staff []).models, ∃ f ∈ m.fields, f.name = "team" ∧ ∃ t, f.type.listElement? = some t ∧
      ∃! i : Nat, ∃ m : ModelDef, (compile staff []).models[i]? = some m ∧
        m.header.type = t.withNullable false := by
  obtain ⟨m, hm, f, hf, hname, helement⟩ : ∃ m ∈ (compile staff []).models, ∃ f ∈ m.fields,
      f.name = "team" ∧ (f.type.listElement?.any (·.category == .entity)) = true := by
    decide +kernel
  obtain ⟨t, ht, hcategory⟩ := Option.any_eq_true _ _ |>.mp helement
  have hpart : t.PartOf f.type := by
    refine .argument (List.mem_of_head? ?_) .self
    unfold TypeDef.listElement? at ht
    split at ht
    · exact ht
    · cases ht
  have hclosed := (types_closed hasErrors_staff m hm).2 f hf t hpart
  exact ⟨m, hm, f, hf, hname, t, ht, hclosed.entity (by simpa using hcategory)⟩

end Compilation

end EntitySchema
