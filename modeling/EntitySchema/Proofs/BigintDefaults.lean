import Mathlib.Tactic.Common
import EntitySchema.Proofs.ColumnDefaults
import EntitySchema.Proofs.Durations
import EntitySchema.Proofs.Tables

/-!
# The defaults of whole number columns

A column of the type `bigint` holds integers, durations in milliseconds, or the positions of the values of an enum.
Unless the database counts, its default comes from a default of the field, which stands for an integer
(`Compilation.StandsFor`).  An integer is copied from the document as it is written, whatever its size is, and a
position is written with its digits.  A duration is computed: up to `2 ^ 53` milliseconds the column has their
number, and up to `2 ^ 13` below `2 ^ 63` it has at least an integer of 64 bits (`bigintDefaults_compile`).
-/

namespace EntitySchema

/-! ### Integer numerals -/

/-- The text is a decimal numeral of an integer: digits, with a minus sign in front of them if it is negative. -/
inductive IsNumeral : String → Int → Prop
  | nonneg {text : String} (h : DefaultValue.IsAmount text.toList) :
      IsNumeral text (Number.digitsValue 10 text.toList)
  | neg {text : String} {digits : List Char} (htext : text.toList = '-' :: digits) (h : DefaultValue.IsAmount digits) :
      IsNumeral text (-(Number.digitsValue 10 digits : Int))

/-- A numeral denotes one integer only. -/
lemma IsNumeral.unique {text : String} {n n' : Int} (h : IsNumeral text n) (h' : IsNumeral text n') : n = n' := by
  have hsign : ∀ {digits : List Char}, text.toList = '-' :: digits → ¬ DefaultValue.IsAmount text.toList := by
    intro digits htext hamount
    have hminus := hamount.isDigit '-' (htext ▸ List.mem_cons_self)
    exact absurd hminus (by decide)
  cases h with
  | nonneg h =>
    cases h' with
    | nonneg => rfl
    | neg htext => exact absurd h (hsign htext)
  | neg htext =>
    cases h' with
    | nonneg h' => exact absurd h' (hsign htext)
    | neg htext' =>
      obtain rfl := (List.cons.inj (htext.symm.trans htext')).2
      rfl

/-- The digits of a natural number are a numeral of it. -/
lemma isNumeral_toDigits (n : Nat) : IsNumeral (String.ofList (Nat.toDigits 10 n)) n := by
  have hamount : DefaultValue.IsAmount (String.ofList (Nat.toDigits 10 n)).toList := by
    rw [String.toList_ofList]
    exact ⟨List.ne_nil_of_length_pos Nat.length_toDigits_pos, fun _ => Number.isDigit_of_mem_toDigits⟩
  have hnumeral := IsNumeral.nonneg hamount
  rwa [String.toList_ofList, Number.digitsValue_toDigits] at hnumeral

/-- A text has the shape of an integer if and only if it is a numeral. -/
lemma isInteger_iff {text : String} : DefaultValue.isInteger text.toList = true ↔ ∃ n, IsNumeral text n := by
  have hamount : ∀ digits : List Char, (!digits.isEmpty && digits.all Number.isDigit) = true ↔
      DefaultValue.IsAmount digits := by
    intro digits
    rw [Bool.and_eq_true, Bool.not_eq_true', List.isEmpty_eq_false_iff, List.all_eq_true]
    exact ⟨fun h => ⟨h.1, h.2⟩, fun h => ⟨h.ne_nil, h.isDigit⟩⟩
  unfold DefaultValue.isInteger
  dsimp only
  rw [hamount]
  by_cases hminus : (text.toList.head? == some '-') = true
  · obtain ⟨digits, htext⟩ : ∃ digits, text.toList = '-' :: digits :=
      ⟨_, (List.cons_head?_tail (beq_iff_eq.mp hminus)).symm⟩
    rw [if_pos hminus, htext, List.tail_cons]
    refine ⟨fun h => ⟨_, .neg htext h⟩, ?_⟩
    rintro ⟨n, h⟩
    cases h with
    | nonneg h =>
      have hdigit := h.isDigit '-' (htext ▸ List.mem_cons_self)
      exact absurd hdigit (by decide)
    | neg htext' h =>
      obtain rfl := (List.cons.inj (htext.symm.trans htext')).2
      exact h
  · rw [if_neg hminus]
    refine ⟨fun h => ⟨_, .nonneg h⟩, ?_⟩
    rintro ⟨n, h⟩
    cases h with
    | nonneg h => exact h
    | neg htext => exact absurd (by rw [htext]; rfl) hminus

/-- The integer is one of 64 bits. -/
def InInt64 (n : Int) : Prop :=
  -2 ^ 63 ≤ n ∧ n < 2 ^ 63

/-! ### Columns of the type `bigint` -/

lemma name_of_scalarColumnType {name : String} (h : scalarColumnType name = "bigint") :
    name = "int" ∨ name = "Duration" := by
  unfold scalarColumnType at h
  split at h
  case h_1 => exact .inl rfl
  case h_8 => exact .inr rfl
  all_goals exact absurd h (by decide)

/-- The default of a column that the database counts. -/
def nextValue (table : String) : String :=
  "nextval('" ++ table ++ "_id_seq'::regclass)"

namespace Compilation

/-- A default of a type stands for an integer: the one that is written, the position of a value in its enum, or the
milliseconds that a duration adds up to. -/
inductive StandsFor (c : Compilation) : TypeDef → String → Int → Prop
  | int {t : TypeDef} {value : String} {n : Int} (hcategory : t.category = .scalar) (hname : t.name = "int")
      (hvalue : IsNumeral value n) : StandsFor c t value n
  | position {t : TypeDef} {value : String} {m : ModelDef} {values : List EnumValue}
      {serialized : Option EnumSerialization} {defaultValue : Option String} {i : Nat} (hm : m ∈ c.models)
      (hname : m.header.className = t.name) (halias : some m.header.moduleAlias = t.moduleAlias)
      (hbody : m.body = .enum values serialized defaultValue) (hvalue : values[i]?.map (·.name) = some value) :
      StandsFor c t value i
  | duration {t : TypeDef} {value : String} {total : Nat} (hcategory : t.category = .scalar)
      (hname : t.name = "Duration") (hvalue : DefaultValue.IsDuration value total) : StandsFor c t value total

section Columns

variable {project : ModuleSource} {dependencies : List ModuleSource} {given : List Diagnostic}

/-- A column comes from a field with a default of its type. -/
lemma Succeeded.exists_hasDefault (h : Succeeded project dependencies) {p : ProtocolDef}
    (hp : p ∈ (compile project dependencies given).modules) {t : Table}
    (ht : t ∈ p.tables ((compile project dependencies given).others p)) {column : Column} (hcolumn : column ∈ t.columns)
    {d : String} (hd : column.columnDefault = some d) :
    ∃ m ∈ p.models, m.tableName? = some t.name ∧ ∃ f ∈ m.fields, t.HasColumn m f column ∧
      column = columnOf (enumsOf (p :: (compile project dependencies given).others p)) t.name f ∧
      ∃ value, ⟨.persist, value⟩ ∈ f.defaults ∧ f.persistDefault? = some value ∧
        f.type.HasDefault (declarations project dependencies).entities value := by
  obtain ⟨m, hm, htable⟩ := List.mem_filterMap.mp ht
  obtain ⟨hname, managed, heq⟩ := ModelDef.table?_eq_some htable
  obtain ⟨f, hf, rfl⟩ : ∃ f ∈ m.fields.filter (·.shouldPersist),
      columnOf (enumsOf (p :: (compile project dependencies given).others p)) t.name f = column := by
    rw [heq] at hcolumn
    exact List.mem_map.mp hcolumn
  obtain ⟨hf, hstored⟩ := List.mem_filter.mp hf
  have hhas := hasColumn_tableOf hf hstored (enumsOf (p :: (compile project dependencies given).others p))
    p.moduleName t.name managed
  rw [← heq] at hhas
  refine ⟨m, hm, hname, f, hf, hhas, rfl, ?_⟩
  obtain ⟨value, hvalue, -⟩ := Option.bind_eq_some_iff.mp hd
  obtain ⟨i, e, he, rfl⟩ := (mem_models_iff h.accepted).mp (List.mem_flatMap.mpr ⟨p, hp, hm⟩)
  obtain ⟨g, hg, rfl⟩ := mem_fields_finished hf
  rw [FieldDraft.persistDefault?_toDefinition] at hvalue
  obtain ⟨s, hs, rfl⟩ := Option.map_eq_some_iff.mp hvalue
  obtain ⟨-, -, hdefault⟩ := h.hasDefault he hg hs
  refine ⟨s.value, DraftDefaults.mem_toList.mpr ⟨s, hs, rfl⟩, ?_, hdefault⟩
  rw [FieldDraft.persistDefault?_toDefinition, hs, Option.map_some]

/-- The column of a scalar with a default is `bigint` for integers and durations only. -/
lemma standsFor_scalar (c : Compilation) {f : FieldDef} {value d table : String} {enums : List EnumValues}
    {expected : DefaultValue.Expectation} (hcategory : f.type.category = .scalar)
    (hexpected : DefaultValue.expectation? f.type.name = some expected) (hmet : expected.isMet value = true)
    (hdefault : f.persistDefault? = some value) (hbigint : (columnOf enums table f).columnType = "bigint")
    (hd : (columnOf enums table f).columnDefault = some d) :
    ∃ n, c.StandsFor f.type value n ∧ ((f.type.name = "Duration" → n ≤ 2 ^ 53) → IsNumeral d n) ∧
      (n ≤ 2 ^ 63 - 2 ^ 13 → InInt64 n → ∃ k, IsNumeral d k ∧ InInt64 k) := by
  have hbuiltin : builtinDefault table f.type.name value = some d := by
    have hscalar : (f.type.category == .entity) = false := by
      rw [hcategory]
      rfl
    rw [columnOf, columnDefault_eq hdefault, hscalar] at hd
    exact hd
  have hname : f.type.name = "int" ∨ f.type.name = "Duration" := by
    rw [columnOf, TypeDef.columnType, hcategory] at hbigint
    exact name_of_scalarColumnType hbigint
  rcases hname with hname | hname
  · rw [hname] at hexpected
    obtain rfl := Option.some.inj hexpected
    obtain ⟨n, hn⟩ := isInteger_iff.mp hmet
    have hserial : (value == "serial") = false := by
      rw [← Bool.not_eq_true, beq_iff_eq]
      rintro rfl
      exact absurd hmet (by decide)
    rw [hname, builtinDefault, hserial] at hbuiltin
    obtain rfl := Option.some.inj hbuiltin
    exact ⟨n, .int hcategory hname hn, fun _ => hn, fun _ hrange => ⟨n, hn, hrange⟩⟩
  · rw [hname] at hexpected
    obtain rfl := Option.some.inj hexpected
    obtain ⟨parts, hparts⟩ := Option.isSome_iff_exists.mp hmet
    have hduration := DefaultValue.durationParts?_iff.mp ⟨parts, hparts, rfl⟩
    rw [hname, builtinDefault] at hbuiltin
    refine ⟨_, .duration hcategory hname hduration, fun hsmall => ?_, fun hsmall _ => ?_⟩
    · have hexact := hsmall hname
      obtain ⟨n, -, hn, htext⟩ := DefaultValue.exists_text_durationMilliseconds hduration (by omega)
      rw [hbuiltin, hn (by omega)] at htext
      rw [Option.some.inj htext]
      exact isNumeral_toDigits _
    · obtain ⟨n, hn, -, htext⟩ := DefaultValue.exists_text_durationMilliseconds hduration (by omega)
      rw [hbuiltin] at htext
      rw [Option.some.inj htext]
      exact ⟨n, isNumeral_toDigits n, by unfold InInt64; omega⟩

/-- In a compilation without errors every `bigint` column with a default that the database does not count belongs to
a field with a default that stands for an integer.  The default of the column is a numeral of this integer; for a
duration this holds up to `2 ^ 53`.  An integer of 64 bits has a default of 64 bits; for a duration this leaves out
the last `2 ^ 13` ones. -/
theorem bigintDefaults_compile (hno : (compile project dependencies given).hasErrors = false) :
    ∀ p ∈ (compile project dependencies given).modules,
      ∀ t ∈ p.tables ((compile project dependencies given).others p), ∀ column ∈ t.columns,
        column.columnType = "bigint" → ∀ d, column.columnDefault = some d → d ≠ nextValue t.name →
          ∃ m ∈ p.models, m.tableName? = some t.name ∧ ∃ f ∈ m.fields, t.HasColumn m f column ∧
            ∃ value n, ⟨.persist, value⟩ ∈ f.defaults ∧
              (compile project dependencies given).StandsFor f.type value n ∧
              ((f.type.category = .scalar → f.type.name = "Duration" → n ≤ 2 ^ 53) → IsNumeral d n) ∧
              (n ≤ 2 ^ 63 - 2 ^ 13 → InInt64 n → ∃ k, IsNumeral d k ∧ InInt64 k) := by
  intro p hp t ht column hcolumn hbigint d hd hnext
  obtain ⟨-, h⟩ := hasErrors_compile_iff.mp hno
  obtain ⟨m, hm, hname, f, hf, hhas, rfl, value, hvalue, hdefault, htype⟩ := h.exists_hasDefault hp ht hcolumn hd
  refine ⟨m, hm, hname, f, hf, hhas, value, ?_⟩
  generalize hft : f.type = type at htype
  cases htype with
  | @scalar type value expected hcategory hexpected hmet =>
    rw [← hft] at hcategory hexpected ⊢
    obtain ⟨n, hstands, hexact, hrange⟩ :=
      standsFor_scalar (compile project dependencies given) hcategory hexpected hmet hdefault hbigint hd
    exact ⟨n, hvalue, hstands, fun hsmall => hexact (hsmall hcategory), hrange⟩
  | serial nullable =>
    rw [columnOf, columnDefault_eq hdefault, hft] at hd
    exact absurd (Option.some.inj hd).symm hnext
  | @value e values serialized defaultValue v he hbody hv nullable =>
    obtain ⟨m', hm', hname', halias, values', serialized', defaultValue', hbody', -, hbyName, hbyIndex⟩ :=
      h.accepted.holdsValue hp he hbody hv hft hdefault t.name
    have hserialized : serialized' ≠ some .byName := by
      intro hbyName'
      rw [(hbyName hbyName').1] at hbigint
      exact absurd hbigint (by decide)
    obtain ⟨-, i, hi, hposition⟩ := hbyIndex hserialized
    have hnumeral : IsNumeral d i := by
      rw [hd] at hposition
      rw [Option.some.inj hposition]
      exact isNumeral_toDigits i
    rw [← hft]
    exact ⟨i, hvalue, .position hm' hname' halias hbody' hi, fun _ => hnumeral, fun _ hrange => ⟨i, hnumeral, hrange⟩⟩

/-- Timers with a number of rounds, a mode and the time that they take. -/
def timers : ModuleSource :=
  sampleModule "timers"
    ["class: Timer", "table: timer", "fields:",
      "  rounds: int, default=-3",
      "  mode: module:modes:Mode, default=loud",
      "  pause: Duration, default=1d 2h 5ms"]

/-- The modes of a timer, stored by their positions. -/
def modes : ModuleSource :=
  sampleModule "modes" ["enum: Mode", "values:", "  - quiet", "  - loud"]

/-- A day, two hours and five milliseconds. -/
lemma isDuration_pause : DefaultValue.IsDuration "1d 2h 5ms" 93600005 :=
  DefaultValue.durationParts?_iff.mp
    ⟨[("1".toList, 86400000), ("2".toList, 3600000), ("5".toList, 1)], by decide, by decide⟩

/-- The pause of a timer has the milliseconds of its duration as its default. -/
theorem bigintDefaults_compile_timers :
    (compile timers [modes] []).hasErrors = false ∧
      projectColumns (compile timers [modes] []) =
        [("id", "bigint", some "nextval('timer_id_seq'::regclass)"), ("rounds", "bigint", some "-3"),
          ("mode", "bigint", some "1"), ("pause", "bigint", some "93600005")] ∧
      ∃ p ∈ (compile timers [modes] []).modules, ∃ m ∈ p.models, ∃ f ∈ m.fields, f.name = "pause" ∧
        (compile timers [modes] []).StandsFor f.type "1d 2h 5ms" 93600005 ∧ IsNumeral "93600005" 93600005 := by
  obtain ⟨hno, hcolumns, hfields, p, hp, t, ht, hname, column, hcolumn, hpause, hbigint, hdefault⟩ :
      (compile timers [modes] []).hasErrors = false ∧
        projectColumns (compile timers [modes] []) =
          [("id", "bigint", some "nextval('timer_id_seq'::regclass)"), ("rounds", "bigint", some "-3"),
            ("mode", "bigint", some "1"), ("pause", "bigint", some "93600005")] ∧
        (∀ p ∈ (compile timers [modes] []).modules, ∀ m ∈ p.models, ∀ f ∈ m.fields, f.name = "pause" →
          (∀ v ∈ f.defaults, v.value = "1d 2h 5ms") ∧ f.type.name = "Duration" ∧ f.type.moduleAlias = none) ∧
        ∃ p ∈ (compile timers [modes] []).modules,
          ∃ t ∈ p.tables ((compile timers [modes] []).others p), t.name = "timer" ∧
            ∃ column ∈ t.columns, column.name = "pause" ∧ column.columnType = "bigint" ∧
              column.columnDefault = some "93600005" := by
    decide +kernel
  have hnext : "93600005" ≠ nextValue t.name := by
    rw [hname]
    decide
  obtain ⟨m, hm, -, f, hf, hhas, value, n, hvalue, hstands, hexact, -⟩ :=
    bigintDefaults_compile hno p hp t ht column hcolumn hbigint "93600005" hdefault hnext
  obtain ⟨hdefaults, htype, halias⟩ := hfields p hp m hm f hf (hhas.name.symm.trans hpause)
  obtain rfl : value = "1d 2h 5ms" := hdefaults _ hvalue
  have hn : n = 93600005 := by
    cases hstands with
    | int _ hint =>
      rw [htype] at hint
      exact absurd hint (by decide)
    | position _ _ hmodule =>
      rw [halias] at hmodule
      cases hmodule
    | duration _ _ hduration => rw [hduration.unique isDuration_pause]; rfl
  subst hn
  exact ⟨hno, hcolumns, p, hp, m, hm, f, hf, hhas.name.symm.trans hpause, hstands, hexact fun _ _ => by decide⟩

/-- Counters with a limit of 64 binary digits and with times that are too long to be computed exactly. -/
def counters : ModuleSource :=
  sampleModule "counters"
    ["class: Counter", "table: counter", "fields:",
      "  limit: int, default=9223372036854775808",
      "  pause: Duration, default=9007199254740993ms",
      "  grace: Duration, default=1000000000000000000000ms"]

/-- An integer is not refused for its size, and a long duration is rounded: its default is another integer, or no
integer numeral at all. -/
theorem bigintDefaults_compile_counters :
    (compile counters [] []).hasErrors = false ∧
      projectColumns (compile counters [] []) =
        [("id", "bigint", some "nextval('counter_id_seq'::regclass)"), ("limit", "bigint", some "9223372036854775808"),
          ("pause", "bigint", some "9007199254740992"), ("grace", "bigint", some "1e+21")] ∧
      IsNumeral "9223372036854775808" (2 ^ 63) ∧ ¬ InInt64 (2 ^ 63) ∧
      DefaultValue.IsDuration "9007199254740993ms" 9007199254740993 ∧
      ¬ IsNumeral "9007199254740992" 9007199254740993 ∧
      DefaultValue.isInteger "1e+21".toList = false := by
  obtain ⟨hno, hcolumns⟩ : (compile counters [] []).hasErrors = false ∧
      projectColumns (compile counters [] []) =
        [("id", "bigint", some "nextval('counter_id_seq'::regclass)"), ("limit", "bigint", some "9223372036854775808"),
          ("pause", "bigint", some "9007199254740992"), ("grace", "bigint", some "1e+21")] := by
    decide +kernel
  have hlimit : IsNumeral "9223372036854775808" ((9223372036854775808 : Nat) : Int) :=
    isNumeral_toDigits 9223372036854775808
  have hpause : IsNumeral "9007199254740992" ((9007199254740992 : Nat) : Int) :=
    isNumeral_toDigits 9007199254740992
  have hduration : DefaultValue.IsDuration "9007199254740993ms" 9007199254740993 :=
    DefaultValue.durationParts?_iff.mp ⟨[("9007199254740993".toList, 1)], by decide, by decide⟩
  refine ⟨hno, hcolumns, hlimit, fun hrange => ?_, hduration, fun hother => ?_, by decide⟩
  · unfold InInt64 at hrange
    omega
  · have hsame := hpause.unique hother
    omega

end Columns

end Compilation

end EntitySchema
