import Mathlib.Tactic.Common
import EntitySchema.Entity.Naming
import EntitySchema.Proofs.Calendar
import EntitySchema.Proofs.Dispatch.RoundTrip

/-!
# Scalars come back

A scalar is encoded under the name of its type, as a text if JSON has no value for it.  The texts of whole
numbers and of instants are read back (`bigIntOf?_toString`, `Calendar.read?_text`), so a scalar is decoded
from its own encoding (`decode_of_encode`).  A registry encodes a scalar without asking anyone but the root
whether it is an instance of one of its classes, and decodes it under the bare name of its type, under which
the root is asked first: the scalar comes back exactly if no class of the root takes the name away
(`deserializeByClassName_encode_scalar`).
-/

namespace EntitySchema

namespace WireScalar

/-! ### Whole numbers -/

/-- The text of a whole number is its digits, behind a minus sign if it is negative. -/
lemma toList_toString_int (n : Int) :
    (toString n).toList =
      if n < 0 then '-' :: Nat.toDigits 10 n.natAbs else Nat.toDigits 10 n.natAbs := by
  cases n with
  | ofNat m =>
    have htext : toString (Int.ofNat m) = toString m := rfl
    have hsign : ¬ Int.ofNat m < 0 := Int.not_lt.mpr (Int.natCast_nonneg m)
    rw [htext, if_neg hsign, Nat.toString_eq_repr, Nat.toList_repr, Int.natAbs_ofNat']
  | negSucc m =>
    have htext : toString (Int.negSucc m) = "-" ++ toString (m + 1) := rfl
    rw [htext, if_pos (Int.negSucc_lt_zero m), String.toList_append, Nat.toString_eq_repr,
      Nat.toList_repr, Int.natAbs_negSucc]
    rfl

/-- The digits of a number start with no minus sign. -/
lemma exists_toDigits (n : Nat) : ∃ c cs, Nat.toDigits 10 n = c :: cs ∧ c ≠ '-' := by
  obtain ⟨c, cs, hcs⟩ := List.exists_cons_of_length_pos (Nat.length_toDigits_pos (b := 10) (n := n))
  refine ⟨c, cs, hcs, fun hc => ?_⟩
  have hdigit : Number.isDigit c = true := Number.isDigit_of_mem_toDigits (hcs ▸ List.mem_cons_self)
  rw [hc] at hdigit
  exact absurd hdigit (by decide)

lemma all_isDigit_toDigits (n : Nat) : (Nat.toDigits 10 n).all Number.isDigit = true :=
  List.all_eq_true.mpr fun _ => Number.isDigit_of_mem_toDigits

/-- A whole number is read from its text. -/
theorem bigIntOf?_toString (n : Int) : bigIntOf? (toString n) = some n := by
  obtain ⟨c, cs, hcs, hc⟩ := exists_toDigits n.natAbs
  have hvalue := Number.digitsValue_toDigits n.natAbs
  have hdigits := all_isDigit_toDigits n.natAbs
  rw [hcs] at hvalue hdigits
  unfold bigIntOf?
  rw [toList_toString_int, hcs]
  by_cases hnegative : n < 0
  · have hinteger : DefaultValue.isInteger ('-' :: c :: cs) = true := by
      simpa [DefaultValue.isInteger] using hdigits
    have hn : -(n.natAbs : Int) = n := by omega
    simp only [hnegative, if_true, hinteger, Bool.not_true, Bool.false_eq_true, if_false, hvalue, hn]
  · have hinteger : DefaultValue.isInteger (c :: cs) = true := by
      simpa [DefaultValue.isInteger, hc] using hdigits
    have hn : (n.natAbs : Int) = n := by omega
    simp only [hnegative, if_false, hinteger, Bool.not_true, Bool.false_eq_true]
    split
    · rename_i hminus
      exact absurd (List.cons.inj hminus).1 hc
    · rw [hvalue, hn]

/-! ### Scalars on the wire -/

/-- A date has to be an instant that can be told in the calendar; any other value may be sent. -/
def Sendable : Value → Prop
  | .date none => False
  | .date (some t) => t.natAbs ≤ Calendar.maxInstant.natAbs
  | _ => True

/-- A scalar is decoded from its own encoding. -/
theorem decode_of_encode {v : Value} {s : WireScalar} (hs : ofValue? v = some s) (hv : Sendable v) :
    ∃ data, encode v = .ok data ∧ s.decode data = .ok v := by
  cases v with
  | string text =>
    obtain rfl : WireScalar.string = s := Option.some.inj hs
    exact ⟨_, rfl, rfl⟩
  | number x =>
    refine ⟨_, rfl, ?_⟩
    simp only [ofValue?, Option.some.injEq] at hs
    subst hs
    by_cases hx : x.toInt?.isSome = true
    · simp [decode, decode?, hx]
    · simp [decode, decode?, hx]
  | bool b =>
    obtain rfl : WireScalar.bool = s := Option.some.inj hs
    exact ⟨_, rfl, rfl⟩
  | bigint n =>
    obtain rfl : WireScalar.bigInt = s := Option.some.inj hs
    refine ⟨_, rfl, ?_⟩
    rw [decode, decode?, bigIntOf?_toString]
    rfl
  | date instant =>
    obtain rfl : WireScalar.dateTime = s := Option.some.inj hs
    cases instant with
    | none => exact absurd hv id
    | some t =>
      refine ⟨_, rfl, ?_⟩
      simp [decode, decode?, Calendar.read?_text hv]
  | _ => cases hs

/-- The name of a scalar type is the type's own. -/
lemma ofName?_name (s : WireScalar) : ofName? s.name = some s := by
  cases s <;> decide

lemma name_of_ofName? {n : String} {s : WireScalar} (h : ofName? n = some s) : s.name = n := by
  simpa using List.find?_some h

lemma point_notMem_name (s : WireScalar) : '.' ∉ s.name.toList := by
  cases s <;> decide

end WireScalar

/-! ### Decoding by the name of a class -/

namespace Registry

variable {classes : ClassHierarchy} {root : ModelModule} {modules : List ModelModule} {r : Registry}
  {v : Value} {s : WireScalar}

/-- Under a name without a module in front the root decodes the class that it has under this name. -/
lemma result_deserializeByClassName_of_named (hroot : r.root = root.serializer classes) {className : String}
    (hmodule : r.moduleOf? className = none) {e : ModelEntry}
    (he : ModelEntry.named? root.models className = some e) (data : Value) :
    (r.deserializeByClassName ⟨className, data⟩).result = e.fromJson data := by
  have hanswer : r.root.deserializeByClassName ⟨className, data⟩ = (e.fromJson data).map some := by
    rw [hroot]
    simp [ModelModule.serializer, Serializer.ofModels, he]
  rw [deserializeByClassName, hmodule]
  dsimp only
  rw [hanswer]
  cases e.fromJson data <;> rfl

/-- The name of a scalar is that of the scalar if the root has no class under this name. -/
lemma result_deserializeByClassName_of_scalar (hroot : r.root = root.serializer classes)
    (hnone : ModelEntry.named? root.models s.name = none) (data : Value) :
    (r.deserializeByClassName ⟨s.name, data⟩).result = s.decode data := by
  have hanswer : r.root.deserializeByClassName ⟨s.name, data⟩ = .ok none := by
    rw [hroot]
    simp [ModelModule.serializer, Serializer.ofModels, hnone]
  rw [deserializeByClassName, moduleOf?_eq_none r s.point_notMem_name]
  dsimp only
  rw [hanswer, WireScalar.ofName?_name]
  rfl

/-! ### Scalars in a registry -/

/-- A scalar is no instance of a class. -/
lemma owner?_of_ofValue? (hs : WireScalar.ofValue? v = some s) (models : List ModelEntry) :
    ModelEntry.owner? classes models v = none := by
  refine List.find?_eq_none.mpr fun e _ he => ?_
  rw [Value.ofValue?_of_isInstance he] at hs
  cases hs

/-- A scalar is encoded under the name of its type. -/
lemma result_encodeWithClassName_scalar (hroot : r.root = root.serializer classes)
    (hs : WireScalar.ofValue? v = some s) {data : Value} (hdata : WireScalar.encode v = .ok data) :
    (r.encodeWithClassName v).result = .ok ⟨s.name, data⟩ := by
  have hname : (askClassName r.root v).result = .ok none := by
    have howner : ModelEntry.owner? classes root.models v = none := owner?_of_ofValue? hs root.models
    rw [hroot]
    simp [askClassName, ModelModule.serializer, Serializer.ofModels, howner]
  have hrootEncode : (encodeWith r.root id v).result = .ok none := by
    rw [encodeWith, Traced.result_andThen hname]
    rfl
  rw [encodeWithClassName, Traced.result_andThen hrootEncode, hs]
  dsimp only
  rw [hdata]
  rfl

/-- A registry encodes every scalar, apart from dates that are no instants, under the name of its type.  What
it decodes from that is the scalar itself exactly if the root has no class under this name, or one whose codec
gives the scalar as well.  Classes are named in capitals, so Booleans and numbers always come back. -/
theorem deserializeByClassName_encode_scalar
    (hbuild : build (root.serializer classes) (modules.map (·.serializer classes)) = .ok r)
    (hnames : ∀ m ∈ root :: modules, ∀ e ∈ m.models, Naming.isClassName e.className = true)
    (hs : WireScalar.ofValue? v = some s) (hv : WireScalar.Sendable v) :
    ∃ data, (r.encodeWithClassName v).result = .ok ⟨s.name, data⟩ ∧
      ((r.deserializeByClassName ⟨s.name, data⟩).result = .ok v ↔
        ∀ e, ModelEntry.named? root.models s.name = some e → e.fromJson data = .ok v) ∧
      (s ∈ [.bool, .int, .double] → (r.deserializeByClassName ⟨s.name, data⟩).result = .ok v) := by
  obtain ⟨rfl, -⟩ := build_eq_ok_iff.mp hbuild
  obtain ⟨data, hencode, hdecode⟩ := WireScalar.decode_of_encode hs hv
  have hown : ModelEntry.named? root.models s.name = none →
      (deserializeByClassName ⟨root.serializer classes, modules.map (·.serializer classes)⟩
        ⟨s.name, data⟩).result = .ok v := by
    intro hnone
    rw [result_deserializeByClassName_of_scalar rfl hnone, hdecode]
  refine ⟨data, result_encodeWithClassName_scalar rfl hs hencode, ?_, ?_⟩
  · cases hnamed : ModelEntry.named? root.models s.name with
    | none => exact iff_of_true (hown hnamed) fun e he => by cases he
    | some e =>
      rw [result_deserializeByClassName_of_named rfl (moduleOf?_eq_none _ s.point_notMem_name) hnamed]
      cases hjson : e.fromJson data with
      | ok w => simp [hjson]
      | error f => simp [hjson]
  · intro hsmall
    refine hown (List.find?_eq_none.mpr fun e he hname => ?_)
    have hclass := hnames root List.mem_cons_self e (List.mem_reverse.mp he)
    rw [eq_of_beq hname] at hclass
    simp only [List.mem_cons, List.not_mem_nil, or_false] at hsmall
    rcases hsmall with rfl | rfl | rfl <;> exact absurd hclass (by decide)

/-- An instant of the year -1 comes back in a registry with two modules. -/
theorem roundTrip_instant :
    ∃ r data, build (sampleRoot.serializer sampleClasses)
        (sampleModules.map (·.serializer sampleClasses)) = .ok r ∧
      (r.encodeWithClassName (.date (some (-62167219200001)))).result = .ok ⟨"DateTime", data⟩ ∧
      data = .string "-000001-12-31T23:59:59.999Z" ∧
      (r.deserializeByClassName ⟨"DateTime", data⟩).result = .ok (.date (some (-62167219200001))) := by
  have hbuild : build (sampleRoot.serializer sampleClasses)
      (sampleModules.map (·.serializer sampleClasses)) = .ok ⟨_, _⟩ :=
    build_eq_ok_iff.mpr ⟨rfl, by decide⟩
  have hnames : ∀ m ∈ sampleRoot :: sampleModules, ∀ e ∈ m.models,
      Naming.isClassName e.className = true := by
    decide
  obtain ⟨data, hencode, hback, -⟩ :=
    deserializeByClassName_encode_scalar hbuild hnames (v := .date (some (-62167219200001))) rfl
      (by unfold WireScalar.Sendable; decide)
  refine ⟨_, data, hbuild, hencode, ?_, hback.mpr fun e he => ?_⟩
  · have hdata : (.ok ⟨"DateTime", data⟩ : Except Failure Envelope) =
        .ok ⟨"DateTime", .string "-000001-12-31T23:59:59.999Z"⟩ := hencode.symm.trans (by rfl)
    injection hdata with hdata
    injection hdata
  · have hnone : ModelEntry.named? sampleRoot.models WireScalar.dateTime.name = none := rfl
    rw [hnone] at he
    cases he

/-- A class of the root that is named like a scalar type takes the values of that type. -/
example :
    let r : Registry := ⟨(plainModule "app" ["String"]).serializer sampleClasses, []⟩
    (r.encodeWithClassName (.string "hello")).result = .ok ⟨"String", .string "hello"⟩ ∧
      (r.deserializeByClassName ⟨"String", .string "hello"⟩).result =
        .ok (.model "String" [("data", .string "hello")]) :=
  ⟨rfl, rfl⟩

end Registry

end EntitySchema
