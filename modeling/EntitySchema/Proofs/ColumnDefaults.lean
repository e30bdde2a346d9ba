import Mathlib.Data.List.Basic
import Mathlib.Tactic.Common
import EntitySchema.Proofs.Frame
import EntitySchema.Proofs.ModuleOrder

/-!
# The defaults of columns

A default for rows is checked twice: when its field is read, and once more when the type of the field is known.
What is left of the checks is a default of the type (`TypeDef.HasDefault`).  A field with such a type can hold
neither an object nor a list, so it stays stored, and its column has a default (`columnDefaults_compile`).  The
table looks for the enum of a type in another way than the check does, among the definitions of all modules; both
find the same one, because no two definitions share a module and a name.
-/

namespace EntitySchema

open TypeResolution (referenceTo typedEntity typedField)

/-! ### Accepted defaults -/

/-- The text is a default of a type in which all names are resolved: a scalar expects it, or the database counts,
or it is a value of an enum. -/
inductive TypeDef.HasDefault (es : List Entity) : TypeDef → String → Prop
  | scalar {t : TypeDef} {value : String} {expected : DefaultValue.Expectation} (hcategory : t.category = .scalar)
      (hexpected : DefaultValue.expectation? t.name = some expected) (hmet : expected.isMet value = true) :
      HasDefault es t value
  | serial (nullable : Bool) : HasDefault es (TypeDef.scalar "int" nullable) "serial"
  | value {e : Entity} {values : List EnumValue} {serialized : Option EnumSerialization} {defaultValue : Option String}
      {v : EnumValue} (he : e ∈ es) (hbody : e.body = .enum values serialized defaultValue) (hv : v ∈ values)
      (nullable : Bool) : HasDefault es (referenceTo e nullable) v.name

namespace DefaultValue

/-- What a scalar expects can be written as the default of a column: a duration has milliseconds. -/
lemma exists_builtinDefault {typeName value : String} {expected : Expectation}
    (hexpected : expectation? typeName = some expected) (hmet : expected.isMet value = true) (table : String) :
    ∃ d, builtinDefault table typeName value = some d := by
  unfold builtinDefault
  split
  case h_6 =>
    obtain rfl := Option.some.inj hexpected
    obtain ⟨parts, hparts⟩ := Option.isSome_iff_exists.mp hmet
    exact ⟨_, by rw [durationMilliseconds?, hparts, Option.map_some, Option.map_some]⟩
  all_goals exact ⟨_, rfl⟩

end DefaultValue

namespace TypeResolution

variable {index : EntityIndex}

/-- A default that is left after the check is declared, and a value of an enum if the type is an entity. -/
lemma persist_checkDefaults {s : Site} {type : TypeDef} {defaults : DraftDefaults} {d : Spanned String}
    (h : (s.checkDefaults type defaults).1.persist = some d) :
    defaults.persist = some d ∧ (type.category = .entity → isValue (enumValues? s.index type) d = true) := by
  unfold Site.checkDefaults at h
  split at h
  · rename_i hne
    exact ⟨h, fun hentity => by simp [hentity] at hne⟩
  · obtain ⟨hd, hvalue⟩ := Option.filter_eq_some_iff.mp h
    exact ⟨hd, fun _ => hvalue⟩

/-- Entities with different keys are told apart by them. -/
lemma eq_of_key {es : List Entity} (hkeys : es.Pairwise fun e e' => e.key ≠ e'.key) {e e' : Entity} (he : e ∈ es)
    (he' : e' ∈ es) (hkey : e.key = e'.key) : e = e' :=
  List.inj_on_of_nodup_map (List.pairwise_map.mpr hkeys) he he' hkey

/-- The values of the enum that a reference stands for are those of the entity. -/
lemma hasDefault_of_isValue (hkeys : index.entities.Pairwise fun e e' => e.key ≠ e'.key) {e : Entity}
    (he : e ∈ index.entities) {nullable : Bool} {d : Spanned String}
    (h : isValue (enumValues? index (referenceTo e nullable)) d = true) :
    TypeDef.HasDefault index.entities (referenceTo e nullable) d.value := by
  unfold enumValues? at h
  split at h
  swap
  · cases h
  rename_i position header nameSpan values serialized defaultValue hfind
  obtain ⟨hget, hkey⟩ := EntityIndex.find?_eq_some hfind
  obtain rfl := eq_of_key hkeys (List.mem_of_getElem? hget) he hkey
  obtain ⟨v, hv, hname⟩ := List.any_eq_true.mp h
  rw [← beq_iff_eq.mp hname]
  exact .value he rfl hv nullable

/-- A default for rows of a field whose type is resolved without an issue is one that the field declares, and one
of the type. -/
lemma hasDefault_typedField (hkeys : index.entities.Pairwise fun e e' => e.key ≠ e'.key) {e : Entity}
    {f : FieldDraft} (hwf : f.type.WellFormed TypeDef.IsName) (hdefaulted : f.Defaulted)
    (hissues : (Site.resolve ⟨index, e, f⟩ f.type).2 = []) {d : Spanned String}
    (h : (typedField index e f).defaults.persist = some d) :
    f.defaults.persist = some d ∧ TypeDef.HasDefault index.entities (typedField index e f).type d.value := by
  obtain ⟨hd, hvalue⟩ := persist_checkDefaults h
  refine ⟨hd, ?_⟩
  rw [typedField_type]
  have hadmitted := hdefaulted.admitted d hd
  unfold FieldDraft.IsSerial at hadmitted
  generalize f.type = t at hwf hissues hvalue hadmitted ⊢
  cases hwf with
  | scalar hbuiltin =>
    rw [TypeDef.scalar, Site.resolve]
    rcases hadmitted with ⟨expected, hexpected, hmet⟩ | ⟨htype, hserial⟩
    · exact .scalar rfl hexpected hmet
    · cases htype
      rw [hserial]
      exact .serial true
  | vector | container =>
    rcases hadmitted with hadmits | ⟨htype, -⟩
    · exact hadmits.elim
    · cases htype
  | leaf hname =>
    obtain ⟨name, nullable, moduleAlias, hb, hcolon, rfl⟩ := hname
    rw [Site.resolve] at hissues hvalue ⊢
    cases hl : Site.lookup ⟨index, e, f⟩ moduleAlias name with
    | error i => simp [hl] at hissues
    | ok target =>
      simp only [hl] at hvalue ⊢
      exact hasDefault_of_isValue hkeys (lookup_eq_ok hl).1 (hvalue rfl)

/-- A field whose type has a default holds neither an object nor a list: an enum is no class. -/
lemma not_holdsRows (hkeys : index.entities.Pairwise fun e e' => e.key ≠ e'.key) {t : TypeDef} {value : String}
    (h : t.HasDefault index.entities value) :
    ¬ RelationResolution.HoldsRows ⟨(resolve index).1, index.aliases⟩ t := by
  intro hholds
  cases h with
  | scalar hcategory => exact hholds.category_ne hcategory
  | serial => exact hholds.category_ne rfl
  | @value e values serialized defaultValue v he hbody hv nullable =>
    rcases hholds with hcontainer | ⟨l, hclass⟩
    · cases hcontainer
    · obtain ⟨-, hkind, hget, a, halias, hkey⟩ := EntityIndex.findClass?_eq_some hclass
      obtain rfl := Option.some.inj halias
      have hmem := List.mem_of_getElem? hget
      rw [resolve_entities] at hmem
      obtain ⟨e', he', heq⟩ := List.mem_map.mp hmem
      rw [← heq] at hkind hkey
      rw [key_typedEntity] at hkey
      obtain rfl := eq_of_key hkeys he' he hkey
      rw [kind_typedEntity, Entity.kind, hbody] at hkind
      cases hkind

end TypeResolution

/-! ### Definitions with defaults -/

lemma FieldDraft.persistDefault?_toDefinition (g : FieldDraft) :
    g.toDefinition.persistDefault? = g.defaults.persist.map (·.value) := by
  unfold FieldDef.persistDefault? toDefinition
  generalize g.defaults = defaults
  obtain ⟨model, persist, isShared⟩ := defaults
  cases model <;> cases persist <;> rfl

namespace Compilation

section Defaults

variable {project : ModuleSource} {dependencies : List ModuleSource} {given : List Diagnostic}

/-- A default for rows of a field at last is one of its type, and the field is stored in a table. -/
lemma Succeeded.hasDefault (h : Succeeded project dependencies) {i : Nat} {e : Entity}
    (he : (declarations project dependencies).typed.entities[i]? = some e) {g : FieldDraft}
    (hg : g ∈ (RelationResolution.visited (declarations project dependencies).typed).1.fieldsAt i)
    {d : Spanned String} (hd : g.defaults.persist = some d) :
    e.table?.isSome ∧ g.shouldPersist = true ∧
      g.type.HasDefault (declarations project dependencies).entities d.value := by
  have haccepted := h.accepted
  have hframed := (RelationResolution.framed_visited haccepted.typed.unrelated).fields i
  rw [RelationResolution.fieldsAt_initial he] at hframed
  obtain ⟨e₀, he₀, rfl⟩ := exists_declared he
  rw [TypeResolution.fields_typedEntity] at hframed
  rcases hframed.kept_or_added hg with ⟨f, hf, hkept⟩ | hadded
  swap
  · rw [hadded.defaults] at hd
    cases hd
  obtain ⟨f₀, hf₀, rfl⟩ := List.mem_map.mp hf
  obtain ⟨m, -, document, -, hread⟩ := (haccepted.complete.entities e₀).mp he₀
  have hdefaulted := Entity.defaulted_ofDocument hread
  have htype : g.type = (typedField (declarations project dependencies).index e₀ f₀).type := by rw [hkept.same]
  have hdefaults : g.defaults = (typedField (declarations project dependencies).index e₀ f₀).defaults := by
    rw [hkept.same]
  rw [hdefaults] at hd
  have hissues := TypeResolution.issues_of_hasErrors hf₀ (TypeResolution.hasErrors_resolveEntity h.types he₀)
  obtain ⟨hd₀, hdefault⟩ := TypeResolution.hasDefault_typedField haccepted.keys
    ((haccepted.complete.declared e₀ he₀).wellFormed f₀ hf₀) (hdefaulted.fields f₀ hf₀) hissues hd
  have hstored := (hdefaulted.fields f₀ hf₀).stored (by rw [hd₀]; exact Option.some_ne_none d)
  rw [htype]
  refine ⟨?_, ?_, hdefault⟩
  · rw [TypeResolution.table?_typedEntity]
    exact hdefaulted.table f₀ hf₀ hstored
  · rcases hkept.stored with hsame | ⟨-, r, hr, hholder⟩
    · exact hsame.trans hstored
    · have hholds := hkept.holds r hr hholder
      rw [htype] at hholds
      exact absurd hholds (TypeResolution.not_holdsRows haccepted.keys hdefault)

/-- The enum that a type stands for is found among the definitions of all modules. -/
lemma Accepted.findEnum_eq (h : Accepted project dependencies) {p : ProtocolDef}
    (hp : p ∈ (compile project dependencies given).modules) {e : EnumValues}
    (he : e ∈ enumsOf (compile project dependencies given).modules) {t : TypeDef} (hname : e.className = t.name)
    (halias : some e.moduleAlias = t.moduleAlias) :
    findEnum (enumsOf (p :: (compile project dependencies given).others p)) t = some e := by
  have hmem := (h.mem_enumsOf_others hp e).mpr he
  obtain ⟨e', hfind⟩ : ∃ e', findEnum (enumsOf (p :: (compile project dependencies given).others p)) t = some e' :=
    Option.isSome_iff_exists.mp (List.find?_isSome.mpr ⟨e, hmem, by simp [hname, halias]⟩)
  rw [hfind, Option.some.injEq]
  rw [findEnum] at hfind
  have hfound := List.find?_some hfind
  simp only [Bool.and_eq_true, beq_iff_eq] at hfound
  exact h.enum_eq ((h.mem_enumsOf_others hp e').mp (List.mem_of_find?_eq_some hfind)) he
    (hfound.1.trans hname.symm) (Option.some.inj (hfound.2.trans halias.symm))

/-- Every entity that has been read has its definition. -/
lemma Accepted.exists_definition (h : Accepted project dependencies) (given : List Diagnostic) {e : Entity}
    (he : e ∈ (declarations project dependencies).entities) :
    ∃ i, (declarations project dependencies).entities[i]? = some e ∧
      (finished (declarations project dependencies).typed i
        (typedEntity (declarations project dependencies).index e)).toDefinition ∈
          (compile project dependencies given).models := by
  obtain ⟨i, hi⟩ := List.mem_iff_getElem?.mp he
  refine ⟨i, hi, (mem_models_iff h).mpr ⟨i, _, ?_, rfl⟩⟩
  rw [Reading.typed, TypeResolution.resolve_entities, List.getElem?_map]
  exact congrArg (Option.map _) hi

/-- The definition of an enum is the enum. -/
lemma body_finished (index index' : EntityIndex) (i : Nat) {e : Entity} {values : List EnumValue}
    {serialized : Option EnumSerialization} {defaultValue : Option String}
    (h : e.body = .enum values serialized defaultValue) :
    (finished index i (typedEntity index' e)).toDefinition.body = .enum values serialized defaultValue := by
  obtain ⟨header, nameSpan, body⟩ := e
  cases h
  rfl

/-- The fields of the definition are those that have been read, with keys between them. -/
lemma Accepted.interleaved (h : Accepted project dependencies) {e : Entity} (he : e.Defaulted) {i : Nat}
    (hi : (declarations project dependencies).entities[i]? = some e) :
    Interleaved (FieldDef.Keeps e (TypeResolution.resolve (declarations project dependencies).index).2)
      FieldDef.IsAddedKey e.fields (finished (declarations project dependencies).typed i
        (typedEntity (declarations project dependencies).index e)).toDefinition.fields := by
  have htyped : (declarations project dependencies).typed =
      typedIndex (declarations project dependencies).index.aliases (declarations project dependencies).entities := by
    rw [Reading.typed, TypeResolution.resolve_entities]
    rfl
  rw [htyped]
  exact interleaved_finished h.complete.declared he hi

/-- No default that has been read is missing from the definition. -/
lemma Succeeded.exists_default (h : Succeeded project dependencies) (given : List Diagnostic) {e : Entity}
    (he : e ∈ (declarations project dependencies).entities) {f : FieldDraft} (hf : f ∈ e.fields) {d : Spanned String}
    (hd : f.defaults.persist = some d) :
    ∃ m ∈ (compile project dependencies given).models, m.header = e.header ∧
      ∃ g ∈ m.fields, g.name = f.name ∧ ⟨.persist, d.value⟩ ∈ g.defaults := by
  obtain ⟨i, hi, hmodel⟩ := h.accepted.exists_definition given he
  obtain ⟨m, -, document, -, hread⟩ := (h.accepted.complete.entities e).mp he
  have hfields := h.accepted.interleaved (Entity.defaulted_ofDocument hread) hi
  obtain ⟨g, hg, hkeeps⟩ := hfields.exists_kept hf
  refine ⟨_, hmodel, by simp, g, hg, hkeeps.name, ?_⟩
  rcases hkeeps.kept .persist d hd with hkept | ⟨-, issue, hrefuses, hdiagnostic⟩
  · exact hkept
  · -- The default would have been refused with an error.
    have hlevel := Diagnostic.hasErrors_eq_false_iff.mp h.types _ hdiagnostic
    rw [Entity.diagnostic, Issue.isError_toDiagnostic, hrefuses.1] at hlevel
    cases hlevel

end Defaults

end Compilation

/-! ### Columns -/

/-- The column of a stored field: it stands where the field stands among the stored ones. -/
structure Table.HasColumn (t : Table) (m : ModelDef) (f : FieldDef) (c : Column) : Prop where
  place : ∃ i : Nat, (m.fields.filter (·.shouldPersist))[i]? = some f ∧ t.columns[i]? = some c
  name : c.name = f.name
  columnType : c.columnType = f.type.columnType

/-- A stored field has its column. -/
lemma hasColumn_tableOf {m : ModelDef} {f : FieldDef} (hf : f ∈ m.fields) (hstored : f.shouldPersist = true)
    (enums : List EnumValues) (moduleName table : String) (managed : Bool) :
    (tableOf enums moduleName table managed m.fields m.indexes).HasColumn m f (columnOf enums table f) where
  place := by
    obtain ⟨i, hi⟩ := List.mem_iff_getElem?.mp (List.mem_filter.mpr ⟨hf, hstored⟩)
    exact ⟨i, hi, by rw [tableOf, List.getElem?_map, hi, Option.map_some]⟩
  name := rfl
  columnType := rfl

lemma columnDefault_eq {f : FieldDef} {value : String} (h : f.persistDefault? = some value) (enums : List EnumValues)
    (table : String) :
    columnDefault enums table f =
      if f.type.category == .entity then entityDefault enums f.type value
      else builtinDefault table f.type.name value := by
  rw [columnDefault, h, Option.bind_some]

/-- A value stands at one of the positions among the names. -/
lemma exists_position {values : List EnumValue} {v : EnumValue} (hv : v ∈ values) :
    ∃ i, (values.map (·.name)).findIdx? (· == v.name) = some i ∧ values[i]?.map (·.name) = some v.name := by
  have hany : ((values.map (·.name)).findIdx? (· == v.name)).isSome := by
    rw [List.findIdx?_isSome, List.any_eq_true]
    exact ⟨v.name, List.mem_map_of_mem hv, beq_self_eq_true _⟩
  obtain ⟨i, hi⟩ := Option.isSome_iff_exists.mp hany
  obtain ⟨hlt, hname, -⟩ := List.findIdx?_eq_some_iff_getElem.mp hi
  refine ⟨i, hi, ?_⟩
  rw [← List.getElem?_map, List.getElem?_eq_getElem hlt, beq_iff_eq.mp hname]

namespace Compilation

/-- A column holds the values of an enum that is defined, with one of them as its default: by their names if the
definition says so, and otherwise by their positions. -/
def HoldsValue (c : Compilation) (t : TypeDef) (value : String) (column : Column) : Prop :=
  ∃ m ∈ c.models, m.header.className = t.name ∧ some m.header.moduleAlias = t.moduleAlias ∧
    ∃ values serialized defaultValue, m.body = .enum values serialized defaultValue ∧
      value ∈ values.map (·.name) ∧
      (serialized = some .byName →
        column.columnType = "text" ∧ column.columnDefault = some (sqlLiteral value "text")) ∧
      (serialized ≠ some .byName →
        column.columnType = "bigint" ∧ ∃ i : Nat, values[i]?.map (·.name) = some value ∧
          column.columnDefault = some (toString i))

/-- Such a column has a default. -/
lemma HoldsValue.isSome_columnDefault {c : Compilation} {t : TypeDef} {value : String} {column : Column}
    (h : c.HoldsValue t value column) : column.columnDefault.isSome := by
  obtain ⟨m, -, -, -, values, serialized, defaultValue, -, -, hbyName, hbyIndex⟩ := h
  by_cases hserialized : serialized = some .byName
  · obtain ⟨-, hdefault⟩ := hbyName hserialized
    rw [hdefault]
    rfl
  · obtain ⟨-, i, -, hdefault⟩ := hbyIndex hserialized
    rw [hdefault]
    rfl

section Columns

variable {project : ModuleSource} {dependencies : List ModuleSource} {given : List Diagnostic}

/-- The column of a field whose type is an enum has one of its values as its default. -/
lemma Accepted.holdsValue (h : Accepted project dependencies) {p : ProtocolDef}
    (hp : p ∈ (compile project dependencies given).modules) {e : Entity} {values : List EnumValue}
    {serialized : Option EnumSerialization} {defaultValue : Option String} {v : EnumValue}
    (he : e ∈ (declarations project dependencies).entities) (hbody : e.body = .enum values serialized defaultValue)
    (hv : v ∈ values) {nullable : Bool} {f : FieldDef} (htype : f.type = referenceTo e nullable)
    (hdefault : f.persistDefault? = some v.name) (table : String) :
    (compile project dependencies given).HoldsValue f.type v.name
      (columnOf (enumsOf (p :: (compile project dependencies given).others p)) table f) := by
  obtain ⟨position, -, hm⟩ := h.exists_definition given he
  have hheader : (finished (declarations project dependencies).typed position
    (typedEntity (declarations project dependencies).index e)).toDefinition.header = e.header := by simp
  have hmbody := body_finished (declarations project dependencies).typed
    (declarations project dependencies).index position hbody
  generalize (finished _ position _).toDefinition = m at hm hheader hmbody
  have hname : m.header.className = f.type.name := by rw [hheader, htype]; rfl
  have halias : some m.header.moduleAlias = f.type.moduleAlias := by rw [hheader, htype]; rfl
  have hserialized : f.type.enumSerialization = serialized := by rw [htype, referenceTo, hbody]
  have hkind : f.type.entityKind = some .enum := by rw [htype, referenceTo, Entity.kind, hbody]
  have hcategory : f.type.category = .entity := by rw [htype, referenceTo]
  have hcolumn : ∀ enums, columnDefault enums table f = entityDefault enums f.type v.name := by
    intro enums
    rw [columnDefault_eq hdefault, hcategory]
    rfl
  refine ⟨m, hm, hname, halias, values, serialized, defaultValue, hmbody, List.mem_map_of_mem hv,
    fun hbyName => ⟨?_, ?_⟩, fun hbyIndex => ⟨?_, ?_⟩⟩
  · simp [columnOf, TypeDef.columnType, hcategory, hkind, hserialized, hbyName]
  · rw [columnOf, hcolumn, entityDefault, hserialized, if_pos (beq_iff_eq.mpr hbyName)]
  · simp [columnOf, TypeDef.columnType, hcategory, hkind, hserialized, hbyIndex]
  · obtain ⟨q, hq, hmq⟩ := List.mem_flatMap.mp hm
    have hmem : ⟨m.header.className, m.header.moduleAlias, values.map (·.name)⟩ ∈
        enumsOf (compile project dependencies given).modules :=
      mem_enumsOf.mpr ⟨q, hq, m, hmq, by rw [ModelDef.enumValues?, hmbody]⟩
    obtain ⟨i, hi, hvalue⟩ := exists_position hv
    refine ⟨i, hvalue, ?_⟩
    rw [columnOf, hcolumn, entityDefault, hserialized, if_neg (mt beq_iff_eq.mp hbyIndex),
      h.findEnum_eq hp hmem hname halias, Option.bind_some, hi, Option.map_some]

/-- The column of a field with a default of its type has a default. -/
lemma Accepted.columnDefault_of_hasDefault (h : Accepted project dependencies) {p : ProtocolDef}
    (hp : p ∈ (compile project dependencies given).modules) {f : FieldDef} {value : String}
    (hdefault : f.persistDefault? = some value)
    (hhas : f.type.HasDefault (declarations project dependencies).entities value) (table : String) :
    (columnOf (enumsOf (p :: (compile project dependencies given).others p)) table f).columnDefault.isSome ∧
      (f.type.category = .entity → (compile project dependencies given).HoldsValue f.type value
        (columnOf (enumsOf (p :: (compile project dependencies given).others p)) table f)) := by
  generalize htype : f.type = t at hhas
  cases hhas with
  | @scalar t value expected hcategory hexpected hmet =>
    obtain ⟨d, hd⟩ := DefaultValue.exists_builtinDefault hexpected hmet table
    refine ⟨?_, fun hentity => ?_⟩
    · rw [columnOf, columnDefault_eq hdefault, htype, hcategory, hd]
      rfl
    · rw [hcategory] at hentity
      cases hentity
  | serial =>
    refine ⟨?_, fun hentity => ?_⟩
    · rw [columnOf, columnDefault_eq hdefault, htype]
      rfl
    · cases hentity
  | @value e values serialized defaultValue v he hbody hv nullable =>
    have hholds := h.holdsValue hp he hbody hv htype hdefault table
    rw [htype] at hholds
    exact ⟨hholds.isSome_columnDefault, fun _ => hholds⟩

/-- In a compilation without errors every default for rows that has been read is one of a field of a definition, and
the column of every field with one has a default: if the type of the field is an entity, it is an enum, and the
column holds what the enum declares. -/
theorem columnDefaults_compile (hno : (compile project dependencies given).hasErrors = false) :
    (∀ e ∈ (declarations project dependencies).entities, ∀ d ∈ e.fields, ∀ s, d.defaults.persist = some s →
      ∃ p ∈ (compile project dependencies given).modules, ∃ m ∈ p.models, m.header = e.header ∧
        ∃ f ∈ m.fields, f.name = d.name ∧ ⟨.persist, s.value⟩ ∈ f.defaults) ∧
    ∀ p ∈ (compile project dependencies given).modules, ∀ m ∈ p.models, ∀ f ∈ m.fields, ∀ value,
      ⟨.persist, value⟩ ∈ f.defaults →
        ∃ t ∈ p.tables ((compile project dependencies given).others p), m.tableName? = some t.name ∧
          ∃ c, t.HasColumn m f c ∧ c.columnDefault.isSome ∧
            (f.type.category = .entity → (compile project dependencies given).HoldsValue f.type value c) := by
  obtain ⟨-, h⟩ := hasErrors_compile_iff.mp hno
  constructor
  · intro e he d hd s hs
    obtain ⟨m, hm, hheader, hfield⟩ := h.exists_default given he hd hs
    obtain ⟨p, hp, hmp⟩ := List.mem_flatMap.mp hm
    exact ⟨p, hp, m, hmp, hheader, hfield⟩
  · intro p hp m hm f hf value hvalue
    obtain ⟨i, e, he, rfl⟩ := (mem_models_iff h.accepted).mp (List.mem_flatMap.mpr ⟨p, hp, hm⟩)
    obtain ⟨g, hg, rfl⟩ := mem_fields_finished hf
    obtain ⟨d, hd, rfl⟩ := DraftDefaults.mem_toList.mp hvalue
    obtain ⟨htable, hstored, hdefault⟩ := h.hasDefault he hg hd
    obtain ⟨table, htable⟩ := Option.isSome_iff_exists.mp htable
    rw [← table?_finished (declarations project dependencies).typed i, ← Entity.tableName?_toDefinition] at htable
    obtain ⟨managed, ht⟩ := ModelDef.exists_table? htable
      (enumsOf (p :: (compile project dependencies given).others p)) p.moduleName
    have hpersist : g.toDefinition.persistDefault? = some d.value := by
      rw [FieldDraft.persistDefault?_toDefinition, show g.defaults.persist = some d from hd, Option.map_some]
    exact ⟨_, List.mem_filterMap.mpr ⟨_, hm, ht⟩, htable, _, hasColumn_tableOf hf hstored _ _ _ _,
      h.accepted.columnDefault_of_hasDefault hp hpersist hdefault table⟩

/-- Parcels with a stage, a carrier and the time that they wait. -/
def parcels : ModuleSource :=
  sampleModule "parcels"
    ["class: Parcel", "table: parcel", "fields:",
      "  stage: Stage, default=paid",
      "  carrier: module:post:Carrier?, defaultPersist=ship",
      "  wait: Duration, default=1h 30min"]

/-- The stages of a parcel, stored by their names. -/
def stages : ModuleSource :=
  sampleModule "stages" ["enum: Stage", "serialized: byName", "values:", "  - open", "  - paid"]

/-- The carriers, stored by their positions. -/
def post : ModuleSource :=
  sampleModule "post" ["enum: Carrier", "values:", "  - rail", "  - ship"]

/-- The names, the types and the defaults of the columns of the project. -/
def projectColumns (c : Compilation) : List (String × String × Option String) :=
  (c.project.tables c.dependencies).flatMap fun t => t.columns.map fun k => (k.name, k.columnType, k.columnDefault)

/-- The carrier of a parcel has its column, with the position of a ship as its default. -/
theorem columnDefaults_compile_parcels :
    (compile parcels [stages, post] []).hasErrors = false ∧
      (∃ p ∈ (compile parcels [stages, post] []).modules, ∃ m ∈ p.models, ∃ f ∈ m.fields, f.name = "carrier" ∧
        ∃ t ∈ p.tables ((compile parcels [stages, post] []).others p), ∃ c, t.HasColumn m f c ∧
          (compile parcels [stages, post] []).HoldsValue f.type "ship" c) ∧
      projectColumns (compile parcels [stages, post] []) =
        [("id", "bigint", some "nextval('parcel_id_seq'::regclass)"), ("stage", "text", some "'paid'::text"),
          ("carrier", "bigint", some "1"), ("wait", "bigint", some "5400000")] := by
  obtain ⟨hno, ⟨p, hp, m, hm, f, hf, hname, hvalue, hcategory⟩, hcolumns⟩ :
      (compile parcels [stages, post] []).hasErrors = false ∧
        (∃ p ∈ (compile parcels [stages, post] []).modules, ∃ m ∈ p.models, ∃ f ∈ m.fields, f.name = "carrier" ∧
          ⟨.persist, "ship"⟩ ∈ f.defaults ∧ f.type.category = .entity) ∧
        projectColumns (compile parcels [stages, post] []) =
          [("id", "bigint", some "nextval('parcel_id_seq'::regclass)"), ("stage", "text", some "'paid'::text"),
            ("carrier", "bigint", some "1"), ("wait", "bigint", some "5400000")] := by
    decide +kernel
  obtain ⟨t, ht, -, c, hcolumn, -, hholds⟩ := (columnDefaults_compile hno).2 p hp m hm f hf "ship" hvalue
  exact ⟨hno, ⟨p, hp, m, hm, f, hf, hname, t, ht, c, hcolumn, hholds hcategory⟩, hcolumns⟩

end Columns

end Compilation

end EntitySchema
