import Mathlib.Data.List.Nodup
import Mathlib.Tactic.Common
import EntitySchema.Dispatch.Registry

/-!
# The module in front of the name of a class

A registry is built only from modules with different names (`build_eq_ok_iff`).  Going through the modules
of a registry finds the longest module name that stands in front of a class name with a point behind it
(`isLongest_moduleOf?`).  In a name that consists of the name of a module, a point and a name without
points this is the name of that very module, whatever the names of the other modules are
(`moduleOf?_qualified`), and a name without points belongs to no module (`moduleOf?_eq_none`).
-/

namespace EntitySchema

/-! ### Building a registry -/

/-- No string is repeated exactly if all are different, from each other and from those seen before. -/
lemma firstRepeated_eq_none_iff (seen l : List String) :
    firstRepeated seen l = none ↔ l.Nodup ∧ ∀ s ∈ l, s ∉ seen := by
  induction l generalizing seen with
  | nil => simp [firstRepeated]
  | cons s rest ih =>
    rw [firstRepeated, List.nodup_cons]
    by_cases hs : s ∈ seen
    · simp [hs]
    · have hseen : seen.contains s = false := by simpa using hs
      rw [hseen, if_neg Bool.false_ne_true, ih]
      constructor
      · rintro ⟨hrest, hnew⟩
        refine ⟨⟨fun hmem => ?_, hrest⟩, fun t ht => ?_⟩
        · exact hnew s hmem (List.mem_append_right seen (List.mem_singleton_self s))
        · rcases List.mem_cons.mp ht with rfl | ht
          · exact hs
          · exact fun h => hnew t ht (List.mem_append_left _ h)
      · rintro ⟨⟨hnot, hrest⟩, hnew⟩
        refine ⟨hrest, fun t ht hmem => ?_⟩
        rcases List.mem_append.mp hmem with hmem | hmem
        · exact hnew t (List.mem_cons_of_mem s ht) hmem
        · obtain rfl := List.mem_singleton.mp hmem
          exact hnot ht

namespace Registry

/-- A registry is built exactly if the root and the modules have different names. -/
theorem build_eq_ok_iff {root : Serializer} {modules : List Serializer} {r : Registry} :
    build root modules = .ok r ↔
      r = ⟨root, modules⟩ ∧ ((root :: modules).map (·.moduleName)).Nodup := by
  have hrepeated := firstRepeated_eq_none_iff [root.moduleName] (modules.map (·.moduleName))
  have hnodup : ((root :: modules).map (·.moduleName)).Nodup ↔
      (modules.map (·.moduleName)).Nodup ∧
        ∀ s ∈ modules.map (·.moduleName), s ∉ [root.moduleName] := by
    rw [List.map_cons, List.nodup_cons, and_comm]
    refine and_congr_right fun _ => ⟨fun h s hs hroot => ?_, fun h hroot => ?_⟩
    · obtain rfl := List.mem_singleton.mp hroot
      exact h hs
    · exact h _ hroot (List.mem_singleton_self _)
  rw [hnodup, ← hrepeated, build]
  cases firstRepeated [root.moduleName] (modules.map (·.moduleName)) with
  | none => simp [eq_comm]
  | some s => simp

/-! ### Names with a module in front -/

lemma toList_qualified (m : Serializer) (className : String) :
    (qualified m className).toList = m.moduleName.toList ++ '.' :: className.toList := by
  simp [qualified]

/-- The rest of a name is what stands behind the module and a point. -/
lemma localName?_eq_some_iff {moduleName className name : String} :
    localName? moduleName className = some name ↔
      className.toList = moduleName.toList ++ '.' :: name.toList := by
  unfold localName?
  dsimp only
  split
  · rename_i hprefix
    obtain ⟨rest, hrest⟩ := List.isPrefixOf_iff_prefix.mp hprefix
    rw [← hrest, List.drop_left, Option.some.injEq, List.append_assoc, List.append_cancel_left_eq,
      List.singleton_append]
    constructor
    · rintro rfl
      rw [String.toList_ofList]
    · intro hchars
      rw [(List.cons.inj hchars).2, String.ofList_toList]
  · rename_i hprefix
    constructor
    · intro hnone
      cases hnone
    · intro hchars
      refine absurd ?_ hprefix
      rw [List.isPrefixOf_iff_prefix, hchars]
      exact ⟨name.toList, by simp⟩

/-- What stands in front of a point is no longer than what stands in front of the last one. -/
lemma length_le_of_append_point {a b n c : List Char} (hc : '.' ∉ c)
    (h : a ++ '.' :: n = b ++ '.' :: c) : a.length ≤ b.length := by
  rcases List.append_eq_append_iff.mp h with ⟨d, rfl, -⟩ | ⟨d, rfl, hd⟩
  · simp
  · cases d with
    | nil => simp
    | cons x d =>
      -- A point would stand behind the last one.
      rw [List.cons_append, List.cons.injEq] at hd
      exact absurd (hd.2 ▸ List.mem_append_right d List.mem_cons_self) hc

/-! ### The longest module name -/

/-- What has been found among modules: none of them stands in front of the name, or the module is one of
them and no other one in front of the name has a longer name. -/
def IsLongest (ms : List Serializer) (className : String) : Option (Serializer × String) → Prop
  | none => ∀ m ∈ ms, localName? m.moduleName className = none
  | some (b, name) =>
    b ∈ ms ∧ localName? b.moduleName className = some name ∧
      ∀ m ∈ ms, localName? m.moduleName className ≠ none → m.moduleName.length ≤ b.moduleName.length

/-- One more module is compared with what has been found. -/
lemma IsLongest.longer {ms : List Serializer} {className : String} {best : Option (Serializer × String)}
    (h : IsLongest ms className best) (m : Serializer) :
    IsLongest (ms ++ [m]) className (longer best m className) := by
  unfold Registry.longer
  cases hm : localName? m.moduleName className with
  | none =>
    cases best with
    | none =>
      intro m' hm'
      rcases List.mem_append.mp hm' with hm' | hm'
      · exact h m' hm'
      · rw [List.mem_singleton.mp hm', hm]
    | some found =>
      obtain ⟨b, name⟩ := found
      obtain ⟨hb, hname, hle⟩ := h
      refine ⟨List.mem_append_left _ hb, hname, fun m' hm' hin => ?_⟩
      rcases List.mem_append.mp hm' with hm' | hm'
      · exact hle m' hm' hin
      · rw [List.mem_singleton.mp hm', hm] at hin
        exact absurd rfl hin
  | some rest =>
    have hself : m ∈ ms ++ [m] := List.mem_append_right ms (List.mem_singleton_self m)
    cases best with
    | none =>
      refine ⟨hself, hm, fun m' hm' hin => ?_⟩
      rcases List.mem_append.mp hm' with hm' | hm'
      · exact absurd (h m' hm') hin
      · exact Nat.le_of_eq (congrArg (·.moduleName.length) (List.mem_singleton.mp hm'))
    | some found =>
      obtain ⟨b, name⟩ := found
      obtain ⟨hb, hname, hle⟩ := h
      dsimp only
      split
      · rename_i hlt
        refine ⟨hself, hm, fun m' hm' hin => ?_⟩
        rcases List.mem_append.mp hm' with hm' | hm'
        · exact Nat.le_trans (hle m' hm' hin) (Nat.le_of_lt hlt)
        · exact Nat.le_of_eq (congrArg (·.moduleName.length) (List.mem_singleton.mp hm'))
      · rename_i hnot
        refine ⟨List.mem_append_left _ hb, hname, fun m' hm' hin => ?_⟩
        rcases List.mem_append.mp hm' with hm' | hm'
        · exact hle m' hm' hin
        · rw [List.mem_singleton.mp hm']
          exact Nat.le_of_not_lt hnot

lemma IsLongest.foldl {ms : List Serializer} {className : String} {best : Option (Serializer × String)}
    (h : IsLongest ms className best) (more : List Serializer) :
    IsLongest (ms ++ more) className (more.foldl (fun best m => Registry.longer best m className) best) := by
  induction more generalizing ms best with
  | nil => simpa using h
  | cons m more ih =>
    have hnext := ih (h.longer m)
    rwa [List.append_assoc, List.singleton_append] at hnext

/-- The module of a name is the one with the longest name in front of it. -/
theorem isLongest_moduleOf? (r : Registry) (className : String) :
    IsLongest r.modules className (r.moduleOf? className) := by
  have hnone : IsLongest [] className none := fun m hm => by cases hm
  exact hnone.foldl r.modules

/-- A name without points belongs to no module. -/
theorem moduleOf?_eq_none (r : Registry) {className : String} (hpoint : '.' ∉ className.toList) :
    r.moduleOf? className = none := by
  have hlongest := isLongest_moduleOf? r className
  cases hfound : r.moduleOf? className with
  | none => rfl
  | some found =>
    obtain ⟨b, name⟩ := found
    rw [hfound] at hlongest
    have hname := localName?_eq_some_iff.mp hlongest.2.1
    rw [hname] at hpoint
    exact absurd (List.mem_append_right _ List.mem_cons_self) hpoint

/-- A name that consists of the name of a module, a point and a name without points belongs to that
module, even if the names of other modules stand in front of it as well. -/
theorem moduleOf?_qualified {r : Registry} (hnames : (r.modules.map (·.moduleName)).Nodup) {m : Serializer}
    (hm : m ∈ r.modules) {className : String} (hpoint : '.' ∉ className.toList) :
    r.moduleOf? (qualified m className) = some (m, className) := by
  have hlongest := isLongest_moduleOf? r (qualified m className)
  have hself : localName? m.moduleName (qualified m className) = some className :=
    localName?_eq_some_iff.mpr (toList_qualified m className)
  cases hfound : r.moduleOf? (qualified m className) with
  | none =>
    rw [hfound] at hlongest
    have hnone := hlongest m hm
    rw [hself] at hnone
    cases hnone
  | some found =>
    obtain ⟨b, name⟩ := found
    rw [hfound] at hlongest
    obtain ⟨hb, hname, hle⟩ := hlongest
    have hchars := localName?_eq_some_iff.mp hname
    rw [toList_qualified] at hchars
    -- Neither of the two names is longer than the other one.
    have hlength : m.moduleName.toList.length = b.moduleName.toList.length := by
      have hmb := hle m hm (by rw [hself]; exact Option.some_ne_none _)
      have hbm := length_le_of_append_point hpoint hchars.symm
      rw [String.length_toList, String.length_toList] at hbm ⊢
      exact Nat.le_antisymm hmb hbm
    obtain ⟨hsame, hrest⟩ := List.append_inj hchars hlength
    obtain rfl : m = b := List.inj_on_of_nodup_map hnames hm hb (String.toList_injective hsame)
    obtain rfl : className = name := String.toList_injective (List.cons.inj hrest).2
    rfl

end Registry

end EntitySchema
