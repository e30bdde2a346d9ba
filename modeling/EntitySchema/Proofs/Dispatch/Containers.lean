import Mathlib.Tactic.Common
import EntitySchema.Proofs.Dispatch.ClassNames
import EntitySchema.Proofs.Dispatch.Parts

/-!
# Two decoders for collections of instances

A list of instances, or a map to them, is decoded by the first module that declares their class if the module
knows the collection, and by the rules of the registry otherwise.  The rules (`ownRules`) decode each key and each
element as the registry does, and an element is decoded by the same module (`result_element`), so both decoders
give the same values and the same first error; only the wording for data of another shape is the module's or the
registry's (`Agree`).  There is one exception: a map whose keys are strings that may be null is taken by the module
for a map from strings, so it has to be an object there, where the rules want a list of keys and values
(`agree_iff_not_nullableStringKeys`).
-/

namespace EntitySchema

namespace TypeToken

/-- The lists of elements and the maps to them. -/
inductive CollectionOf (element : TypeToken) : TypeToken → Prop
  | list (nullable : Bool) : CollectionOf element ⟨"List", nullable, [element]⟩
  | map (nullable : Bool) (key : TypeToken) : CollectionOf element ⟨"Map", nullable, [key, element]⟩

/-- A map whose keys are strings that may be null. -/
def NullableStringKeys (t : TypeToken) : Prop :=
  ∃ key element, t.name = "Map" ∧ t.generics = [key, element] ∧ key.name = "String" ∧ key.nullable = true

end TypeToken

/-! ### What a module knows of a collection -/

namespace ModelEntry

variable {models : List ModelEntry} {key element : TypeToken} {nullable : Bool} {e : ModelEntry}

lemma knows_list_iff : Knows models ⟨"List", nullable, [element]⟩ ↔ ∃ e, ofToken? models element = some e := by
  constructor
  · intro h
    generalize ht : (⟨"List", nullable, [element]⟩ : TypeToken) = t at h
    cases h with
    | «class» h =>
      rw [← ht] at h
      cases (ofToken?_eq_some_iff.mp h).1
    | list h =>
      obtain ⟨-, -, hgenerics⟩ := TypeToken.mk.inj ht
      rw [(List.cons.inj hgenerics).1]
      exact ⟨_, h⟩
    | map hkey h => exact absurd (congrArg TypeToken.name ht) (by simp)
  · rintro ⟨e, h⟩
    exact .list h

lemma knows_map_iff : Knows models ⟨"Map", nullable, [key, element]⟩ ↔
    key.name = "String" ∧ ∃ e, ofToken? models element = some e := by
  constructor
  · intro h
    generalize ht : (⟨"Map", nullable, [key, element]⟩ : TypeToken) = t at h
    cases h with
    | «class» h =>
      rw [← ht] at h
      cases (ofToken?_eq_some_iff.mp h).1
    | list h => exact absurd (congrArg TypeToken.name ht) (by simp)
    | map hkey h =>
      obtain ⟨-, -, hgenerics⟩ := TypeToken.mk.inj ht
      obtain ⟨rfl, helement⟩ := List.cons.inj hgenerics
      rw [(List.cons.inj helement).1]
      exact ⟨hkey, _, h⟩
  · rintro ⟨hkey, e, h⟩
    exact .map hkey h

/-- A token without arguments is known if it names a class. -/
lemma exists_entry_of_knows {t : TypeToken} (h : Knows models t) (hgenerics : t.generics = []) :
    ∃ e, ofToken? models t = some e := by
  cases h with
  | «class» h => exact ⟨_, h⟩
  | list h => cases hgenerics
  | map hkey h => cases hgenerics

lemma decodeToken_list (h : ofToken? models element = some e) (moduleName : String) (data : Value) :
    decodeToken moduleName models ⟨"List", nullable, [element]⟩ data =
      (e.decodeList moduleName ⟨"List", nullable, [element]⟩ element data).map some := by
  have hlist : ofToken? models ⟨"List", nullable, [element]⟩ = none := rfl
  simp only [decodeToken, hlist, h]

lemma decodeToken_map (hkey : key.name = "String") (h : ofToken? models element = some e) (moduleName : String)
    (data : Value) :
    decodeToken moduleName models ⟨"Map", nullable, [key, element]⟩ data =
      (e.decodeMap moduleName ⟨"Map", nullable, [key, element]⟩ element data).map some := by
  have hmap : ofToken? models ⟨"Map", nullable, [key, element]⟩ = none := rfl
  simp only [decodeToken, hmap, hkey, h, beq_self_eq_true, if_true]

end ModelEntry

namespace Registry

/-- The registry's own rules for a type, with every argument decoded through the registry. -/
def ownRules (r : Registry) (t : TypeToken) (requested : String) : Decoder :=
  decodeBuiltin t (t.generics.map fun g data => r.deserialize data (.text g.text)) requested

/-- Two answers agree if they are the same, or if both refuse the shape of the data in words of their own. -/
inductive Agree : Except Failure Value → Except Failure Value → Prop
  | same (answer : Except Failure Value) : Agree answer answer
  | refused (s s' : String) : Agree (.error (.ofShape s)) (.error (.ofShape s'))

variable {classes : ClassHierarchy} {root : ModelModule} {modules : List ModelModule} {r : Registry}
  {t key element : TypeToken} {requested : String} {e : ModelEntry} {data : Value}

/-! ### The modules that know a type -/

/-- Data of a type that no module knows is left to the rules of the registry. -/
lemma result_deserialize_of_none_knows (hread : TypeToken.read? requested = some t)
    (hset : setOfScalars? t = none) (hbare : (ofModules classes root modules).moduleOf? t.name = none)
    (hnone : ∀ m ∈ root :: modules, ¬ ModelEntry.Knows m.models t) :
    ((ofModules classes root modules).deserialize data (.text requested)).result =
      ((ofModules classes root modules).ownRules t requested data).result := by
  have hunowned : ¬ Owned classes root modules t := by
    intro howned
    cases howned with
    | bare _ hm h =>
      obtain ⟨t', hread', hknows⟩ := h
      have htext := TypeToken.read?_text (TypeToken.named_of_read? hread).1
      obtain rfl := Option.some.inj (htext.symm.trans hread')
      exact hnone _ hm hknows
    | qualified hmodule => cases hbare.symm.trans hmodule
  rw [result_deserialize_of_unowned hread hunowned hset,
    decoders_eq_map (TypeToken.named_of_read? hread).1.generics, ownRules]

/-- The first of the modules that declare a class, with its entry for the class. -/
lemma exists_first_declaring {ms : List ModelModule} {name : String} (h : ∃ m ∈ ms, m.Declares name) :
    ∃ before m after e, ms = before ++ m :: after ∧ (∀ m' ∈ before, ¬ m'.Declares name) ∧
      ModelEntry.named? m.models name = some e := by
  obtain ⟨before, m, after, hsplit, hm, hbefore⟩ := exists_first_with h
  obtain ⟨e, he⟩ := ModelModule.declares_iff.mp hm
  exact ⟨before, m, after, e, hsplit, hbefore, he⟩

/-- A module that does not declare the class of the elements does not know the element. -/
lemma ofToken?_eq_none {m : ModelModule} (h : ¬ m.Declares element.name) :
    ¬ ∃ e, ModelEntry.ofToken? m.models element = some e := by
  rintro ⟨e, he⟩
  exact h (ModelModule.declares_iff.mpr ⟨e, (ModelEntry.ofToken?_eq_some_iff.mp he).2⟩)

/-! ### Elements one after the other -/

section Elements

variable {decode : Decoder}

/-- A list is decoded alike if its items are. -/
lemma result_decodeAll {decodeItem : Value → Except Failure Value}
    (h : ∀ v, (decode v).result = decodeItem v) (items : List Value) :
    (decodeAll decode items).result = items.mapM decodeItem := by
  induction items with
  | nil => rfl
  | cons v vs ih =>
    rw [decodeAll, List.mapM_cons]
    have hv := h v
    cases hitem : decodeItem v with
    | error f =>
      rw [hitem] at hv
      exact Traced.result_andThen_error hv _
    | ok w =>
      rw [hitem] at hv
      rw [Traced.result_andThen hv]
      cases hvs : vs.mapM decodeItem with
      | error f =>
        rw [hvs] at ih
        exact Traced.result_andThen_error ih _
      | ok ws =>
        rw [hvs] at ih
        exact Traced.result_andThen ih _

/-- An object is decoded alike if its values are. -/
lemma result_decodeFields (h : ∀ v, (decode v).result = e.decode element v)
    (fields : List (String × Value)) :
    (decodeFields decode fields).result = fields.mapM (e.decodeField element) := by
  induction fields with
  | nil => rfl
  | cons field fields ih =>
    rw [decodeFields, List.mapM_cons, ModelEntry.decodeField]
    have hv := h field.2
    cases he : e.decode element field.2 with
    | error f =>
      rw [he] at hv
      exact Traced.result_andThen_error hv _
    | ok w =>
      rw [he] at hv
      rw [Traced.result_andThen hv]
      cases hfields : fields.mapM (e.decodeField element) with
      | error f =>
        rw [hfields] at ih
        exact Traced.result_andThen_error ih _
      | ok es =>
        rw [hfields] at ih
        exact Traced.result_andThen ih _

/-- What is collected from elements that are decoded alike is the same. -/
lemma result_andThen_done {α β : Type} {x : Traced α} {outcome : Except Failure α} (h : x.result = outcome)
    (g : α → β) : (x.andThen fun a => .done (g a)).result = outcome.map g := by
  cases outcome with
  | error f => exact Traced.result_andThen_error h _
  | ok a => exact Traced.result_andThen h _

/-- Data that may be missing and is missing is null. -/
lemma decodeBuiltin_missing (h : (t.nullable && data.isMissing) = true) (decoders : List Decoder) :
    decodeBuiltin t decoders requested data = .done .null := by
  unfold decodeBuiltin
  rw [if_pos h]

lemma decodeBuiltin_list {nullable : Bool} (h : (nullable && data.isMissing) = false) :
    decodeBuiltin ⟨"List", nullable, [element]⟩ [decode] requested data =
      decodeItems ⟨"List", nullable, [element]⟩ decode .list data := by
  simp only [decodeBuiltin, h]
  rfl

/-- A module decodes a list as the rules do. -/
lemma agree_list (h : ∀ v, (decode v).result = e.decode element v)
    (moduleName : String) (nullable : Bool) (data : Value) :
    Agree (e.decodeList moduleName ⟨"List", nullable, [element]⟩ element data)
      (decodeBuiltin ⟨"List", nullable, [element]⟩ [decode] requested data).result := by
  unfold ModelEntry.decodeList
  by_cases hmissing : (nullable && data.isMissing) = true
  · rw [if_pos hmissing, decodeBuiltin_missing hmissing]
    exact .same _
  · rw [if_neg hmissing, decodeBuiltin_list (Bool.eq_false_iff.mpr hmissing)]
    cases data with
    | list items =>
      have hitems := result_andThen_done (result_decodeAll h items) Value.list
      exact hitems ▸ .same _
    | _ => exact .refused _ _

/-- A module decodes a map as the rules decode a map from strings. -/
lemma agree_map (h : ∀ v, (decode v).result = e.decode element v)
    (hkey : key.name = "String") (hnullable : key.nullable = false) (decodeKey : Decoder) (moduleName : String)
    (nullable : Bool) (data : Value) :
    Agree (e.decodeMap moduleName ⟨"Map", nullable, [key, element]⟩ element data)
      (decodeBuiltin ⟨"Map", nullable, [key, element]⟩ [decodeKey, decode] requested data).result := by
  unfold ModelEntry.decodeMap
  by_cases hmissing : (nullable && data.isMissing) = true
  · rw [if_pos hmissing, decodeBuiltin_missing hmissing]
    exact .same _
  · rw [if_neg hmissing, decodeBuiltin_map (Bool.eq_false_iff.mpr hmissing)]
    unfold decodeMap
    rw [if_pos (isStringKey_iff.mpr ⟨hkey, hnullable⟩)]
    cases data.fields? with
    | none => exact .refused _ _
    | some fields =>
      have hfields := result_andThen_done (result_decodeFields h fields) Value.mapOf
      exact hfields ▸ .same _

end Elements

/-! ### Agreement -/

/-- An element is decoded by the first module that declares its class, as an instance of the class. -/
lemma result_element (hnamed : element.Named) (hgenerics : element.generics = [])
    (hbare : (ofModules classes root modules).moduleOf? element.name = none)
    {before after : List ModelModule} {m : ModelModule} (hsplit : root :: modules = before ++ m :: after)
    (hbefore : ∀ m' ∈ before, ¬ m'.Declares element.name)
    (he : ModelEntry.ofToken? m.models element = some e) (data : Value) :
    ((ofModules classes root modules).deserialize data (.text element.text)).result = e.decode element data := by
  have hset : setOfScalars? element = none := by
    by_contra hset
    obtain ⟨nullable, item, rfl⟩ := exists_eq_set hset
    cases hgenerics
  refine result_deserialize_of_first_knows (TypeToken.read?_text hnamed) hset hbare hsplit
    (fun m' hm' hknows => ?_) (ModelEntry.decodeToken_class he m.moduleName data)
  exact ofToken?_eq_none (hbefore m' hm') (ModelEntry.exists_entry_of_knows hknows hgenerics)

/-- The rules read a list of keys and values for keys that may be null. -/
lemma result_ownRules_nil {nullable : Bool} (hkey : key.nullable = true) :
    (r.ownRules ⟨"Map", nullable, [key, element]⟩ requested (.list [])).result = .ok (Value.mapOf []) := by
  have hdata : (nullable && (Value.list []).isMissing) = false := Bool.and_false nullable
  have hnullable : ¬ (key.name = "String" ∧ key.nullable = false) := by
    rw [hkey]
    exact fun h => Bool.noConfusion h.2
  rw [ownRules, List.map_cons, List.map_cons, List.map_nil, decodeBuiltin_map hdata]
  unfold decodeMap
  rw [if_neg (mt isStringKey_iff.mp hnullable)]
  rfl

/-- A list of instances of a class that some module declares, or a map to them, is decoded as the registry's own
rules decode it, with every key and element decoded through the registry, whatever the data is: the same value,
or a failure of both.  The exception are maps whose keys are strings that may be null. -/
theorem agree_iff_not_nullableStringKeys
    (hbuild : build (root.serializer classes) (modules.map (·.serializer classes)) = .ok r)
    (hread : TypeToken.read? requested = some t) (hcollection : TypeToken.CollectionOf element t)
    (hgenerics : element.generics = [])
    (hdeclared : ∃ m ∈ root :: modules, m.Declares element.name) (hbare : r.moduleOf? element.name = none) :
    (∀ data, Agree (r.deserialize data (.text requested)).result (r.ownRules t requested data).result) ↔
      ¬ t.NullableStringKeys := by
  obtain rfl := eq_ofModules hbuild
  obtain ⟨before, m, after, e, hsplit, hbefore, he⟩ := exists_first_declaring hdeclared
  have hentry : ModelEntry.ofToken? m.models element = some e :=
    ModelEntry.ofToken?_eq_some_iff.mpr ⟨hgenerics, he⟩
  have hnamed := (TypeToken.named_of_read? hread).1.generics
  cases hcollection with
  | list nullable =>
    have helement := result_element (hnamed element List.mem_cons_self) hgenerics hbare hsplit hbefore hentry
    have hlist : (ofModules classes root modules).moduleOf? "List" = none := moduleOf?_eq_none _ (by decide)
    have hknown : ∀ m' ∈ before, ¬ ModelEntry.Knows m'.models ⟨"List", nullable, [element]⟩ :=
      fun m' hm' hknows => ofToken?_eq_none (hbefore m' hm') (ModelEntry.knows_list_iff.mp hknows)
    refine iff_of_true (fun data => ?_) ?_
    · rw [result_deserialize_of_first_knows hread rfl hlist hsplit hknown
        (ModelEntry.decodeToken_list hentry m.moduleName data)]
      exact agree_list helement m.moduleName nullable data
    · rintro ⟨key, item, hname, -⟩
      exact absurd hname (by simp)
  | map nullable key =>
    have helement := result_element (hnamed element (List.mem_cons_of_mem key List.mem_cons_self)) hgenerics hbare
      hsplit hbefore hentry
    have hmap : (ofModules classes root modules).moduleOf? "Map" = none := moduleOf?_eq_none _ (by decide)
    by_cases hkey : key.name = "String"
    · have hknown : ∀ m' ∈ before, ¬ ModelEntry.Knows m'.models ⟨"Map", nullable, [key, element]⟩ :=
        fun m' hm' hknows => ofToken?_eq_none (hbefore m' hm') (ModelEntry.knows_map_iff.mp hknows).2
      have hresult : ∀ data, ((ofModules classes root modules).deserialize data (.text requested)).result =
          e.decodeMap m.moduleName ⟨"Map", nullable, [key, element]⟩ element data := fun data =>
        result_deserialize_of_first_knows hread rfl hmap hsplit hknown
          (ModelEntry.decodeToken_map hkey hentry m.moduleName data)
      cases hnullable : key.nullable with
      | false =>
        refine iff_of_true (fun data => ?_) ?_
        · rw [hresult data]
          exact agree_map helement hkey hnullable _ m.moduleName nullable data
        · rintro ⟨key', item, -, hgenerics', -, hnullable'⟩
          obtain ⟨rfl, -⟩ := List.cons.inj hgenerics'
          rw [hnullable] at hnullable'
          cases hnullable'
      | true =>
        -- An empty list is no object for the module, and a map without entries for the rules.
        refine iff_of_false (fun hagree => ?_) (not_not.mpr ⟨key, element, rfl, rfl, hkey, hnullable⟩)
        have hnil := hagree (.list [])
        rw [hresult, result_ownRules_nil hnullable, ModelEntry.decodeMap] at hnil
        rw [if_neg (by simp [Value.isMissing])] at hnil
        cases hnil
    · have hknown : ∀ m' ∈ root :: modules, ¬ ModelEntry.Knows m'.models ⟨"Map", nullable, [key, element]⟩ :=
        fun m' _ hknows => hkey (ModelEntry.knows_map_iff.mp hknows).1
      refine iff_of_true (fun data => ?_) ?_
      · rw [result_deserialize_of_none_knows hread rfl hmap hknown]
        exact .same _
      · rintro ⟨key', item, -, hgenerics', hkey', -⟩
        obtain ⟨rfl, -⟩ := List.cons.inj hgenerics'
        exact hkey hkey'

/-- Both decoders of a list of users of a module agree, and those of a map from strings that may be null to notes
do not. -/
theorem agree_users_not_notes :
    ∃ r, build (sampleRoot.serializer sampleClasses) (sampleModules.map (·.serializer sampleClasses)) = .ok r ∧
      (∀ data, Agree (r.deserialize data (.text "List<UserInfo?>?")).result
        (r.ownRules ⟨"List", true, [⟨"UserInfo", true, []⟩]⟩ "List<UserInfo?>?" data).result) ∧
      ¬ ∀ data, Agree (r.deserialize data (.text "Map<String?,Note>")).result
        (r.ownRules ⟨"Map", false, [⟨"String", true, []⟩, ⟨"Note", false, []⟩]⟩ "Map<String?,Note>" data).result := by
  have hbuild : build (sampleRoot.serializer sampleClasses) (sampleModules.map (·.serializer sampleClasses)) =
      .ok (ofModules sampleClasses sampleRoot sampleModules) :=
    build_eq_ok_iff.mpr ⟨rfl, by decide⟩
  have huser : TypeToken.IsName "UserInfo" := by decide
  have hnote : TypeToken.IsName "Note" := by decide
  have hstring : TypeToken.IsName "String" := by decide
  have hlistNamed : TypeToken.Named ⟨"List", true, [⟨"UserInfo", true, []⟩]⟩ :=
    .mk (by decide) (List.forall_mem_singleton.mpr (huser.named true))
  have hmapNamed : TypeToken.Named ⟨"Map", false, [⟨"String", true, []⟩, ⟨"Note", false, []⟩]⟩ :=
    .mk (by decide)
      (List.forall_mem_cons.mpr ⟨hstring.named true, List.forall_mem_singleton.mpr (hnote.named false)⟩)
  have hlist : TypeToken.read? "List<UserInfo?>?" = some ⟨"List", true, [⟨"UserInfo", true, []⟩]⟩ :=
    TypeToken.read?_text hlistNamed
  have hmap : TypeToken.read? "Map<String?,Note>" =
      some ⟨"Map", false, [⟨"String", true, []⟩, ⟨"Note", false, []⟩]⟩ :=
    TypeToken.read?_text hmapNamed
  refine ⟨_, hbuild, ?_, ?_⟩
  · refine (agree_iff_not_nullableStringKeys hbuild hlist (.list true) rfl (by decide)
      (moduleOf?_eq_none _ (by decide))).mpr ?_
    rintro ⟨key, element, hname, -⟩
    exact absurd hname (by simp)
  · intro hagree
    exact (agree_iff_not_nullableStringKeys hbuild hmap (.map false _) rfl (by decide)
      (moduleOf?_eq_none _ (by decide))).mp hagree ⟨_, _, rfl, rfl, rfl, rfl⟩

end Registry

end EntitySchema
