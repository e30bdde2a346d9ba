import Mathlib.Logic.Function.Iterate
import Mathlib.Order.WellFounded
import Mathlib.Tactic.Common
import EntitySchema.Proofs.Dispatch.Containers
import EntitySchema.Proofs.Dispatch.Runs

/-!
# Elements are decoded through texts

The elements of a collection are decoded as the type of a text, the text of a type argument, which is read again.
One round of this decoding is `round`: it goes on to the texts of arguments only (`round_congr`), and these are
read as the arguments themselves (`ElementText.read?`), which are nested less deeply than the token.  So going on
to elements comes to an end (`wellFounded_elementText`), and as many rounds as a token is deep decode it completely,
whatever stands for decoding behind them (`iterate_round`, `deserialize_rounds`).

A set of scalars is decoded at once, without asking a module.  Where no module answers for sets and scalars, going
on to every element has the same outcome (`deserialize_scalarSet`).
-/

namespace EntitySchema

namespace TypeToken

/-! ### Depth -/

mutual

/-- How deeply type arguments are nested in a token. -/
def depth : TypeToken → Nat
  | ⟨_, _, generics⟩ => levels generics

/-- How many levels of tokens arguments make up. -/
def levels : List TypeToken → Nat
  | [] => 0
  | t :: ts => max (depth t + 1) (levels ts)

end

lemma depth_lt_levels {g : TypeToken} {ts : List TypeToken} (hg : g ∈ ts) : g.depth < levels ts := by
  induction ts with
  | nil => cases hg
  | cons t ts ih =>
    rw [levels]
    rcases List.mem_cons.mp hg with rfl | hg
    · exact Nat.lt_of_lt_of_le (Nat.lt_succ_self _) (Nat.le_max_left _ _)
    · exact Nat.lt_of_lt_of_le (ih hg) (Nat.le_max_right _ _)

/-- An argument is nested less deeply than its token. -/
lemma depth_lt_of_mem {g t : TypeToken} (hg : g ∈ t.generics) : g.depth < t.depth := by
  obtain ⟨name, nullable, generics⟩ := t
  rw [depth]
  exact depth_lt_levels hg

/-- The depth of the token of a text; what is no token has no arguments. -/
def textDepth (s : String) : Nat :=
  ((read? s).map depth).getD 0

lemma textDepth_of_read {s : String} {t : TypeToken} (hread : read? s = some t) : textDepth s = t.depth := by
  rw [textDepth, hread]
  rfl

/-- The text of an argument of the token of a text. -/
def ElementText (element s : String) : Prop :=
  ∃ t, read? s = some t ∧ ∃ g ∈ t.generics, g.text = element

/-- The text of an argument is read as the argument. -/
lemma read?_of_mem_generics {s : String} {t g : TypeToken} (hread : read? s = some t) (hg : g ∈ t.generics) :
    read? g.text = some g := by
  have hnamed := (named_of_read? hread).1
  exact read?_text (hnamed.generics g hg)

lemma ElementText.textDepth_lt {element s : String} (h : ElementText element s) :
    textDepth element < textDepth s := by
  obtain ⟨t, hread, g, hg, rfl⟩ := h
  rw [textDepth_of_read hread, textDepth_of_read (read?_of_mem_generics hread hg)]
  exact depth_lt_of_mem hg

/-- There is no endless sequence of texts each of which is that of an argument of the one before. -/
theorem wellFounded_elementText : WellFounded ElementText :=
  Subrelation.wf (fun h => h.textDepth_lt) (measure textDepth).wf

end TypeToken

namespace Registry

variable {r : Registry} {s : String} {t : TypeToken} {data : Value}

/-! ### One round -/

/-- Decodes data as the type of a text. -/
def decodeText (r : Registry) (s : String) : Decoder :=
  fun data => r.deserialize data (.text s)

/-- Decodes data as the type of a token without regard to sets of scalars: the candidates are asked, and without
an answer the built-in rules hold, with every element decoded as the type of a text. -/
def decodeInTurn (r : Registry) (decodeElement : String → Decoder) (t : TypeToken) (s : String) : Decoder :=
  fun data => (ask data (r.candidates (.text s) (some t))).andThen fun answer =>
    match answer with
    | some v => .done v
    | none => decodeBuiltin t (t.generics.map fun g => decodeElement g.text) s data

/-- One round of decoding: the text is read, and elements are left to another decoder of texts. -/
def round (r : Registry) (decodeElement : String → Decoder) (s : String) : Decoder :=
  fun data =>
    match TypeToken.read? s with
    | none => (ask data (r.candidates (.text s) none)).andThen fun answer =>
        match answer with
        | some v => .done v
        | none => .fail (.unknownType s)
    | some t =>
      match setOfScalars? t with
      | some (scalar, nullable) => .ofExcept (decodeSetOfScalars t scalar nullable data)
      | none => r.decodeInTurn decodeElement t s data

lemma round_of_set {scalar : WireScalar} {nullable : Bool} (hread : TypeToken.read? s = some t)
    (hset : setOfScalars? t = some (scalar, nullable)) (decodeElement : String → Decoder) (data : Value) :
    r.round decodeElement s data = .ofExcept (decodeSetOfScalars t scalar nullable data) := by
  simp only [round, hread, hset]

lemma round_of_not_set (hread : TypeToken.read? s = some t) (hset : setOfScalars? t = none)
    (decodeElement : String → Decoder) (data : Value) :
    r.round decodeElement s data = r.decodeInTurn decodeElement t s data := by
  simp only [round, hread, hset]

/-- Decoding is a round that goes on with decoding. -/
lemma round_decodeText (r : Registry) (s : String) : r.round r.decodeText s = r.decodeText s := by
  funext data
  rw [decodeText]
  cases hread : TypeToken.read? s with
  | none =>
    have htoken : RequestedType.token? (.text s) = none := hread
    rw [deserialize_of_not_read htoken, round, hread]
    rfl
  | some t =>
    cases hset : setOfScalars? t with
    | some found =>
      obtain ⟨scalar, nullable⟩ := found
      rw [deserialize_of_set hread hset, round_of_set hread hset]
    | none =>
      have hnamed := (TypeToken.named_of_read? hread).1.generics
      rw [deserialize_of_read hread, decode_of_not_set hset, decoders_eq_map hnamed, round_of_not_set hread hset]
      rfl

/-- A round depends on the decoding of the texts of arguments only. -/
lemma round_congr {decodeElement decodeElement' : String → Decoder}
    (h : ∀ element, TypeToken.ElementText element s → decodeElement element = decodeElement' element) :
    r.round decodeElement s = r.round decodeElement' s := by
  funext data
  rw [round, round]
  cases hread : TypeToken.read? s with
  | none => rfl
  | some t =>
    have hdecoders : (t.generics.map fun g => decodeElement g.text) =
        t.generics.map fun g => decodeElement' g.text := by
      refine List.map_congr_left fun g hg => ?_
      exact h g.text ⟨t, hread, g, hg, rfl⟩
    dsimp only
    rw [decodeInTurn, decodeInTurn, hdecoders]

/-- More rounds than the token of a text is deep decode its data, whatever they end in. -/
lemma iterate_round (r : Registry) (rest : String → Decoder) {n : Nat} (h : TypeToken.textDepth s < n) :
    (r.round^[n]) rest s = r.decodeText s := by
  induction n generalizing s with
  | zero => omega
  | succ n ih =>
    rw [Function.iterate_succ_apply', ← round_decodeText]
    refine round_congr fun element helement => ?_
    have hless := helement.textDepth_lt
    exact ih (by omega)

/-- White space apart, the text of the token of a text is that text, and a token whose names all are names is read
from its text.  So decoding through the texts of elements ends.  It goes round by round, each round goes on to texts
of arguments only, and these are read as the arguments, which are nested less deeply; and no more rounds are needed
than the token is deep, and the last one. -/
theorem deserialize_rounds (r : Registry) :
    (∀ s t, TypeToken.read? s = some t → t.text.toList = TypeToken.withoutBlanks s.toList) ∧
      (∀ t : TypeToken, t.Named → TypeToken.read? t.text = some t) ∧
      (∀ s, r.round r.decodeText s = r.decodeText s) ∧
      (∀ decode decode' s, (∀ element, TypeToken.ElementText element s → decode element = decode' element) →
        r.round decode s = r.round decode' s) ∧
      (∀ s t, TypeToken.read? s = some t → ∀ g ∈ t.generics,
        TypeToken.read? g.text = some g ∧ g.depth < t.depth) ∧
      WellFounded TypeToken.ElementText ∧
      ∀ rest s n, TypeToken.textDepth s < n → (r.round^[n]) rest s = r.decodeText s := by
  refine ⟨fun s t hread => ?_, fun t hnamed => ?_, r.round_decodeText, fun decode decode' s h => ?_,
    fun s t hread g hg => ?_, TypeToken.wellFounded_elementText, fun rest s n hdepth => ?_⟩
  · exact (TypeToken.named_of_read? hread).2
  · exact TypeToken.read?_text hnamed
  · exact round_congr h
  · exact ⟨TypeToken.read?_of_mem_generics hread hg, TypeToken.depth_lt_of_mem hg⟩
  · exact iterate_round r rest hdepth

/-- A map of lists, which is two levels deep. -/
def mapOfLists : TypeToken :=
  ⟨"Map", true, [⟨"String", false, []⟩, ⟨"List", false, [⟨"Example", true, []⟩]⟩]⟩

lemma named_mapOfLists : mapOfLists.Named := by
  have hstring : TypeToken.Named ⟨"String", false, []⟩ := TypeToken.IsName.named (by decide) false
  have hexample : TypeToken.Named ⟨"Example", true, []⟩ := TypeToken.IsName.named (by decide) true
  have hlist : TypeToken.Named ⟨"List", false, [⟨"Example", true, []⟩]⟩ :=
    .mk (by decide) (List.forall_mem_singleton.mpr hexample)
  exact .mk (by decide) (List.forall_mem_cons.mpr ⟨hstring, List.forall_mem_singleton.mpr hlist⟩)

/-- A text with white space is read as a map of lists, whose text has none, and three rounds decode its data, even
if nothing is decoded behind them. -/
theorem deserialize_rounds_mapOfLists :
    ∃ r, build (stub "app" ["Example?"]) [] = .ok r ∧
      TypeToken.read? "Map< String , List<Example?> >?" = some mapOfLists ∧
      mapOfLists.text.toList = TypeToken.withoutBlanks "Map< String , List<Example?> >?".toList ∧
      TypeToken.read? mapOfLists.text = some mapOfLists ∧
      (r.round^[3]) (fun s _ => .fail (.unknownType s)) "Map< String , List<Example?> >?" =
        r.decodeText "Map< String , List<Example?> >?" := by
  have hbuild : build (stub "app" ["Example?"]) [] = .ok ⟨_, _⟩ := build_eq_ok_iff.mpr ⟨rfl, by decide⟩
  have hblanks : TypeToken.withoutBlanks "Map< String , List<Example?> >?".toList = mapOfLists.text.toList ++ [] := by
    decide +kernel
  have hread : TypeToken.read? "Map< String , List<Example?> >?" = some mapOfLists := by
    refine TypeToken.read?_eq_some ?_
    rw [hblanks]
    exact TypeToken.takeToken_text mapOfLists named_mapOfLists [] fun c hc => by cases hc
  have hdepth : TypeToken.textDepth "Map< String , List<Example?> >?" < 3 := by
    rw [TypeToken.textDepth_of_read hread]
    decide
  obtain ⟨htext, hnamed, -, -, -, -, hrounds⟩ := deserialize_rounds ⟨stub "app" ["Example?"], []⟩
  exact ⟨_, hbuild, hread, htext _ _ hread, hnamed _ named_mapOfLists, hrounds _ _ _ hdepth⟩

/-! ### Sets of scalars -/

/-- A serializer answers neither for sets nor for scalars. -/
def LeavesScalarSets (m : Serializer) : Prop :=
  ∀ s t, TypeToken.read? s = some t →
    (t.name = "Set" ∨ (t.generics = [] ∧ (WireScalar.ofName? t.name).isSome)) →
      ∀ data, m.deserialize data (.text s) = .ok none

/-- Data of a type that no serializer answers for is decoded by the built-in rules. -/
lemma result_decodeInTurn (hbare : '.' ∉ t.name.toList)
    (hnone : ∀ m ∈ r.root :: r.modules, m.deserialize data (.text s) = .ok none)
    (decodeElement : String → Decoder) :
    (r.decodeInTurn decodeElement t s data).result =
      (decodeBuiltin t (t.generics.map fun g => decodeElement g.text) s data).result := by
  have hask : (ask data (r.candidates (.text s) (some t))).result = .ok none := by
    rw [candidates_of_bare (moduleOf?_eq_none r hbare)]
    refine result_ask_of_none fun c hc => ?_
    obtain ⟨m, hm, rfl⟩ := List.mem_map.mp hc
    exact hnone m hm
  rw [decodeInTurn, Traced.result_andThen hask]

/-- Decoding a scalar as the type of a text has the outcome of decoding it as an element of a set of scalars. -/
lemma result_decodeText_scalar (hleaves : ∀ m ∈ r.root :: r.modules, LeavesScalarSets m) {scalar : WireScalar}
    {nullable : Bool} (hread : TypeToken.read? s = some ⟨scalar.name, nullable, []⟩) (data : Value) :
    (r.decodeText s data).result = decodeScalarElement scalar nullable data := by
  have hset : setOfScalars? ⟨scalar.name, nullable, []⟩ = none := by
    unfold setOfScalars?
    simp
  have hname : (WireScalar.ofName? scalar.name).isSome := by
    rw [WireScalar.ofName?_name]
    rfl
  have hnone : ∀ m ∈ r.root :: r.modules, m.deserialize data (.text s) = .ok none :=
    fun m hm => hleaves m hm s _ hread (Or.inr ⟨rfl, hname⟩) data
  rw [← round_decodeText, round_of_not_set hread hset, result_decodeInTurn scalar.point_notMem_name hnone,
    decodeScalarElement]
  by_cases hmissing : (nullable && data.isMissing) = true
  · rw [decodeBuiltin_missing hmissing, if_pos hmissing]
    rfl
  · rw [Bool.not_eq_true] at hmissing
    simp only [decodeBuiltin, hmissing, WireScalar.ofName?_name]
    rfl

/-- A set that is not missing is decoded as items. -/
lemma decodeBuiltin_set {element : TypeToken} {nullable : Bool} (h : (nullable && data.isMissing) = false)
    (decode : Decoder) :
    decodeBuiltin ⟨"Set", nullable, [element]⟩ [decode] s data =
      decodeItems ⟨"Set", nullable, [element]⟩ decode Value.setOf data := by
  simp only [decodeBuiltin, h]
  rfl

/-- Where no serializer answers for sets or scalars, a set of scalars is decoded without a question, and with the
outcome that decoding has without regard to sets of scalars, with every element decoded through the registry:
the same set in the same order, or null, or the same error. -/
theorem deserialize_scalarSet (hleaves : ∀ m ∈ r.root :: r.modules, LeavesScalarSets m) {scalar : WireScalar}
    {nullable nullableElement : Bool}
    (hread : TypeToken.read? s = some ⟨"Set", nullable, [⟨scalar.name, nullableElement, []⟩]⟩) (data : Value) :
    r.deserialize data (.text s) =
      ⟨[], (r.decodeInTurn r.decodeText ⟨"Set", nullable, [⟨scalar.name, nullableElement, []⟩]⟩ s data).result⟩ := by
  have hset : setOfScalars? ⟨"Set", nullable, [⟨scalar.name, nullableElement, []⟩]⟩ =
      some (scalar, nullableElement) := by
    simp [setOfScalars?, WireScalar.ofName?_name]
  have hnone : ∀ m ∈ r.root :: r.modules, m.deserialize data (.text s) = .ok none :=
    fun m hm => hleaves m hm s _ hread (Or.inl rfl) data
  have helement : ∀ v, (r.decodeText (TypeToken.text ⟨scalar.name, nullableElement, []⟩) v).result =
      decodeScalarElement scalar nullableElement v :=
    result_decodeText_scalar hleaves (TypeToken.read?_of_mem_generics hread List.mem_cons_self)
  have hbare : '.' ∉ "Set".toList := by decide
  have hgeneral := result_decodeInTurn (t := ⟨"Set", nullable, [⟨scalar.name, nullableElement, []⟩]⟩) hbare hnone
    r.decodeText
  rw [List.map_cons, List.map_nil] at hgeneral
  rw [deserialize_of_set hread hset, hgeneral]
  unfold decodeSetOfScalars
  by_cases hmissing : (nullable && data.isMissing) = true
  · rw [if_pos hmissing, decodeBuiltin_missing hmissing]
    rfl
  · rw [if_neg hmissing, decodeBuiltin_set (Bool.eq_false_iff.mpr hmissing)]
    cases data with
    | list items =>
      have hitems := result_andThen_done (result_decodeAll helement items) Value.setOf
      rw [decodeItems, hitems]
      rfl
    | _ => rfl

/-- A stub leaves sets and scalars alone if it answers for other types only. -/
lemma leavesScalarSets_stub {moduleName : String} {owns : List String}
    (h : ∀ s ∈ owns, ∀ t, TypeToken.read? s = some t →
      t.name ≠ "Set" ∧ (t.generics = [] → WireScalar.ofName? t.name = none)) :
    LeavesScalarSets (stub moduleName owns) := by
  intro s t hread hbuiltIn data
  have hnot : s ∉ owns := by
    intro hs
    obtain ⟨hset, hscalar⟩ := h s hs t hread
    rcases hbuiltIn with hname | ⟨hgenerics, hname⟩
    · exact hset hname
    · rw [hscalar hgenerics] at hname
      cases hname
  simp [stub, hnot]

/-- Numbers of any size as a set, one of them twice and one of them missing, and a text that is no number. -/
theorem deserialize_scalarSet_bigInts :
    ∃ r, build (stub "app" []) [stub "auth" ["User"]] = .ok r ∧
      r.deserialize (.list [.string "7", .null, .string "7"]) (.text "Set<BigInt?>") =
        ⟨[], .ok (.set [.bigint 7, .null])⟩ ∧
      (r.decodeInTurn r.decodeText ⟨"Set", false, [⟨"BigInt", true, []⟩]⟩ "Set<BigInt?>"
        (.list [.string "7", .null, .string "7"])).result = .ok (.set [.bigint 7, .null]) ∧
      (r.decodeInTurn r.decodeText ⟨"Set", false, [⟨"BigInt", true, []⟩]⟩ "Set<BigInt?>"
        (.list [.string "seven", .bool true])).result =
          .error (.ofShape "Cannot decode \"seven\" as \"BigInt\".") := by
  have hbuild : build (stub "app" []) [stub "auth" ["User"]] = .ok ⟨_, _⟩ :=
    build_eq_ok_iff.mpr ⟨rfl, by decide⟩
  have hread : TypeToken.read? "Set<BigInt?>" = some ⟨"Set", false, [⟨WireScalar.bigInt.name, true, []⟩]⟩ :=
    TypeToken.read?_text (t := ⟨"Set", false, [⟨"BigInt", true, []⟩]⟩)
      (.mk (by decide) (List.forall_mem_singleton.mpr (TypeToken.IsName.named (by decide) true)))
  have huser : TypeToken.read? "User" = some ⟨"User", false, []⟩ := TypeToken.read?_name (by decide)
  have hleaves : ∀ m ∈ [stub "app" [], stub "auth" ["User"]], LeavesScalarSets m := by
    refine List.forall_mem_cons.mpr ⟨leavesScalarSets_stub (fun s hs => (List.not_mem_nil hs).elim), ?_⟩
    refine List.forall_mem_singleton.mpr (leavesScalarSets_stub fun s hs t ht => ?_)
    obtain rfl := List.mem_singleton.mp hs
    obtain rfl := Option.some.inj (huser.symm.trans ht)
    decide
  have hset := deserialize_scalarSet (r := ⟨stub "app" [], [stub "auth" ["User"]]⟩) hleaves hread
  have hresult := fun data => (congrArg Traced.result (hset data)).symm
  refine ⟨_, hbuild, ?_, (hresult _).trans ?_, (hresult _).trans ?_⟩
  all_goals
    rw [deserialize_of_read hread]
    rfl

end Registry

end EntitySchema
