import Mathlib.Data.List.TakeWhile
import Mathlib.Tactic.Common
import EntitySchema.Entity.Lookup
import EntitySchema.Entity.Naming
import EntitySchema.TypeExpr.Reader

/-!
# Names without colons

A colon separates the module of an entity from its class name.  Names in type expressions and names of
classes have no colon, so the key of an entity determines both parts (`entityKey_inj`).
-/

namespace EntitySchema

/-- A text without a colon. -/
def HasNoColon (s : String) : Prop :=
  ':' ∉ s.toList

/-- What stands behind the last separator is determined by the whole. -/
lemma append_separator_inj {c : Char} {a b n m : List Char} (hn : c ∉ n) (hm : c ∉ m)
    (h : a ++ c :: n = b ++ c :: m) : a = b ∧ n = m := by
  -- If one of the first parts were longer, a separator would stand behind the last one.
  have hlonger : ∀ {d k l : List Char}, c ∉ k → c :: k = d ++ c :: l → d = [] := by
    intro d k l hk hd
    cases d with
    | nil => rfl
    | cons x d =>
      rw [List.cons_append, List.cons.injEq] at hd
      exact absurd (hd.2 ▸ List.mem_append_right d List.mem_cons_self) hk
  rcases List.append_eq_append_iff.mp h with ⟨d, rfl, hd⟩ | ⟨d, rfl, hd⟩
  · obtain rfl := hlonger hn hd
    simpa using hd
  · obtain rfl := hlonger hm hd
    simpa [eq_comm] using hd

/-- The key of an entity determines its module and its class name. -/
theorem entityKey_inj {a b n m : String} (hn : HasNoColon n) (hm : HasNoColon m)
    (h : entityKey a n = entityKey b m) : a = b ∧ n = m := by
  have htext : a.toList ++ ':' :: n.toList = b.toList ++ ':' :: m.toList := by
    simpa [entityKey, String.toList_append, List.append_assoc] using congrArg String.toList h
  obtain ⟨hab, hnm⟩ := append_separator_inj hn hm htext
  exact ⟨String.toList_injective hab, String.toList_injective hnm⟩

/-- The name of a class has no colon. -/
lemma Naming.hasNoColon_of_isClassName {s : String} (h : Naming.isClassName s = true) : HasNoColon s := by
  unfold Naming.isClassName Naming.consistsOf at h
  intro hmem
  split at h
  · rename_i c cs hcs
    rw [Bool.and_eq_true, List.all_eq_true] at h
    rw [hcs] at hmem
    rcases List.mem_cons.mp hmem with rfl | hmem
    · exact absurd h.1 (by decide)
    · exact absurd (h.2 ':' hmem) (by decide)
  · cases h

namespace TypeExpr

/-- An expression in which no name has a colon. -/
inductive Clean : TypeExpr → Prop where
  | mk {e : TypeExpr} (hname : HasNoColon e.name) (hgenerics : ∀ g ∈ e.generics, Clean g) : Clean e

/-- The name at the start of a text has no colon. -/
lemma hasNoColon_nameAt (cs : List Char) : HasNoColon (String.ofList (nameAt cs)) := by
  have hpart : ∀ c : Char, isNamePart c = true → c ≠ ':' := by
    rintro c hc rfl
    exact absurd hc (by decide)
  rw [HasNoColon, String.toList_ofList]
  intro hmem
  unfold nameAt at hmem
  split at hmem
  · split at hmem
    · rename_i c rest hstart
      rcases List.mem_cons.mp hmem with rfl | hmem
      · exact absurd hstart (by decide)
      · exact hpart ':' (List.mem_takeWhile_imp hmem) rfl
    · cases hmem
  · cases hmem

lemma takeWord_eq_ok {c : Cursor} {word : List Char} {fault : TypeExprFault} {r : Taken String c}
    (h : takeWord c word fault = .ok r) : r.1.1 = String.ofList word := by
  unfold takeWord at h
  split at h
  · cases h
    rfl
  · cases h

lemma takeHead_eq_ok {c : Cursor} {r : Taken Head c} (h : takeHead c = .ok r) :
    HasNoColon r.1.1.name := by
  unfold takeHead at h
  dsimp only at h
  split at h
  · cases h
  split at h
  · cases h
  rename_i name c₃ h₃ hword
  have hname : HasNoColon name := by
    rw [show name = _ from takeWord_eq_ok hword]
    exact hasNoColon_nameAt _
  split at h
  · split at h <;> cases h
    exact hname
  · cases h
    exact hname

lemma clean_finish {head : Head} {generics : List TypeExpr} {stop : Nat} {c : Cursor}
    (hname : HasNoColon head.name) (hgenerics : ∀ g ∈ generics, Clean g) :
    Clean (finish head generics stop c).1.1 := by
  unfold finish
  split <;> exact Clean.mk hname hgenerics

mutual

/-- The names of an expression that is taken have no colon. -/
lemma clean_takeType {c : Cursor} {r : Taken TypeExpr c} (h : takeType c = .ok r) : Clean r.1.1 := by
  unfold takeType at h
  split at h
  · cases h
  rename_i head c₁ h₁ hhead
  have hname : HasNoColon head.name := takeHead_eq_ok hhead
  split at h
  · rename_i hsees
    have hlt : 2 * (c₁.advance 1).rest.length + 1 < 2 * c.rest.length := by
      have := c₁.length_advance_lt hsees
      simp only at h₁
      omega
    dsimp only at h
    split at h
    · cases h
    rename_i generics c₃ h₃ htypes
    split at h
    · cases h
    cases h
    exact clean_finish hname (clean_takeTypes htypes)
  · cases h
    exact clean_finish hname (by simp)
termination_by 2 * c.rest.length

lemma clean_takeTypes {c : Cursor} {r : Taken (List TypeExpr) c} (h : takeTypes c = .ok r) :
    ∀ g ∈ r.1.1, Clean g := by
  unfold takeTypes at h
  split at h
  · cases h
  rename_i t c₁ h₁ htype
  have ht := clean_takeType htype
  dsimp only at h
  split at h
  · rename_i hsees
    have hlt : (c₁.skipBlanks.advance 1).rest.length < c.rest.length := by
      have h₂ := c₁.length_skipBlanks_le
      have h₃ := c₁.skipBlanks.length_advance_lt hsees
      simp only at h₁
      omega
    split at h
    · cases h
    rename_i ts c₂ h₄ htypes
    cases h
    have hts := clean_takeTypes htypes
    intro g hg
    rcases List.mem_cons.mp hg with rfl | hg
    · exact ht
    · exact hts g hg
  · cases h
    intro g hg
    rw [List.mem_singleton.mp hg]
    exact ht
termination_by 2 * c.rest.length + 1

end

/-- The names of an expression that is read have no colon. -/
theorem clean_read {text : String} {e : TypeExpr} (h : read text = .ok e) : Clean e := by
  unfold read at h
  dsimp only at h
  split at h
  · cases h
  rename_i htype
  split at h
  · cases h
    exact clean_takeType htype
  · cases h

mutual

/-- Moving an expression leaves its names alone. -/
lemma Clean.shift (n : Nat) (e : TypeExpr) (h : Clean e) : Clean (e.shift n) := by
  obtain ⟨name, moduleAlias, nullable, dimension, generics, start, stop⟩ := e
  obtain ⟨hname, hgenerics⟩ := h
  exact Clean.mk hname (Clean.shiftAll n generics hgenerics)

lemma Clean.shiftAll (n : Nat) (es : List TypeExpr) (h : ∀ e ∈ es, Clean e) :
    ∀ e ∈ shiftAll n es, Clean e := by
  cases es with
  | nil => simp [TypeExpr.shiftAll]
  | cons e es =>
    rw [TypeExpr.shiftAll]
    intro e' he'
    rcases List.mem_cons.mp he' with rfl | he'
    · exact Clean.shift n e (h e List.mem_cons_self)
    · exact Clean.shiftAll n es (fun d hd => h d (List.mem_cons_of_mem e hd)) e' he'

end

end TypeExpr

end EntitySchema
