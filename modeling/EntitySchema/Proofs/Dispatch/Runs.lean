import Mathlib.Data.List.Nodup
import Mathlib.Tactic.Common
import EntitySchema.Proofs.Dispatch.Routing

/-!
# The questions of a run

When data is decoded, the candidates for its type are asked one after the other (`CandidateOrder`).  Those in front
of the first one with an answer say that the type is not theirs; the answer, be it a value or a failure, ends the
run, and no candidate behind is asked.  Without an answer the built-in rules decode the data, and the decoding of
an element is a run again (`Run`).  Decoding is exactly this law, with all its questions, for serializers of any
kind (`deserialize_run`).  A text that is no type expression is asked for in the order for classes
(`unread_text_order`).
-/

namespace EntitySchema

namespace Registry

variable {r : Registry} {data : Value} {before after cs : List Candidate} {c : Candidate} {s : String}
  {t : TypeToken} {type : RequestedType}

/-! ### Questions to candidates -/

/-- The question to a candidate. -/
def Candidate.call (c : Candidate) : Call :=
  .deserialize c.serializer.moduleName c.type

/-- The answer of a candidate. -/
def Candidate.answer (c : Candidate) (data : Value) : Except Failure (Option Value) :=
  c.serializer.deserialize data c.type

/-- The type is none of a candidate's own. -/
def Candidate.NotMine (data : Value) (c : Candidate) : Prop :=
  c.answer data = .ok none

lemma ask_cons_of_notMine (h : c.NotMine data) (cs : List Candidate) :
    ask data (c :: cs) = ⟨c.call :: (ask data cs).calls, (ask data cs).result⟩ := by
  have hanswer : c.serializer.deserialize data c.type = .ok none := h
  rw [ask, hanswer]
  rfl

lemma ask_cons_of_found {v : Value} (h : c.answer data = .ok (some v)) (cs : List Candidate) :
    ask data (c :: cs) = ⟨[c.call], .ok (some v)⟩ := by
  have hanswer : c.serializer.deserialize data c.type = .ok (some v) := h
  rw [ask, hanswer]
  rfl

lemma ask_cons_of_thrown {f : Failure} (h : c.answer data = .error f) (cs : List Candidate) :
    ask data (c :: cs) = ⟨[c.call], .error f⟩ := by
  have hanswer : c.serializer.deserialize data c.type = .error f := h
  rw [ask, hanswer]
  rfl

/-- Candidates without an answer are asked before the others. -/
lemma ask_append (h : ∀ b ∈ before, b.NotMine data) (cs : List Candidate) :
    ask data (before ++ cs) = ⟨before.map Candidate.call ++ (ask data cs).calls, (ask data cs).result⟩ := by
  induction before with
  | nil => rfl
  | cons b before ih =>
    rw [List.cons_append, ask_cons_of_notMine (h b List.mem_cons_self),
      ih fun b' hb' => h b' (List.mem_cons_of_mem b hb')]
    rfl

lemma ask_of_notMine (h : ∀ c ∈ cs, c.NotMine data) :
    ask data cs = ⟨cs.map Candidate.call, .ok none⟩ := by
  have happend := ask_append h []
  rw [List.append_nil] at happend
  rw [happend]
  simp [ask, Traced.done]

/-- Behind a candidate with an answer nobody is asked. -/
lemma ask_of_found (h : ∀ b ∈ before, b.NotMine data) {v : Value} (hc : c.answer data = .ok (some v)) :
    ask data (before ++ c :: after) = ⟨(before ++ [c]).map Candidate.call, .ok (some v)⟩ := by
  rw [ask_append h, ask_cons_of_found hc, List.map_append]
  rfl

lemma ask_of_thrown (h : ∀ b ∈ before, b.NotMine data) {f : Failure} (hc : c.answer data = .error f) :
    ask data (before ++ c :: after) = ⟨(before ++ [c]).map Candidate.call, .error f⟩ := by
  rw [ask_append h, ask_cons_of_thrown hc, List.map_append]
  rfl

/-- Either no candidate has an answer, or there is a first one that has. -/
lemma notMine_or_exists_first (data : Value) (cs : List Candidate) :
    (∀ c ∈ cs, c.NotMine data) ∨ ∃ before c after, cs = before ++ c :: after ∧
      (∀ b ∈ before, b.NotMine data) ∧ ¬ c.NotMine data := by
  induction cs with
  | nil => exact .inl fun c hc => (List.not_mem_nil hc).elim
  | cons c cs ih =>
    by_cases hc : c.NotMine data
    · rcases ih with hnone | ⟨before, c', after, rfl, hbefore, hc'⟩
      · exact .inl (List.forall_mem_cons.mpr ⟨hc, hnone⟩)
      · exact .inr ⟨c :: before, c', after, rfl, List.forall_mem_cons.mpr ⟨hc, hbefore⟩, hc'⟩
    · exact .inr ⟨[], c, cs, rfl, fun b hb => (List.not_mem_nil hb).elim, hc⟩

/-! ### The order of the candidates -/

/-- The candidates for a type, in the order in which they are asked.  For a class, the modules stand before the
root, and so they do for a text that is no type expression.  If the name of a token is routed to a module, that
module is the only candidate, for the token under the rest of its name.  For any other token the root stands
before the modules. -/
inductive CandidateOrder (r : Registry) : RequestedType → List Candidate → Prop
  | class (id : String) : CandidateOrder r (.class id) ((r.modules ++ [r.root]).map fun m => ⟨m, .class id⟩)
  | unread {s : String} (hread : TypeToken.read? s = none) :
      CandidateOrder r (.text s) ((r.modules ++ [r.root]).map fun m => ⟨m, .text s⟩)
  | routed {s : String} {t : TypeToken} {m : Serializer} {name : String} (hread : TypeToken.read? s = some t)
      (h : RoutedTo r.modules t.name m name) :
      CandidateOrder r (.text s) [⟨m, .text (TypeToken.text { t with name })⟩]
  | bare {s : String} {t : TypeToken} (hread : TypeToken.read? s = some t) (h : Unrouted r.modules t.name) :
      CandidateOrder r (.text s) ((r.root :: r.modules).map fun m => ⟨m, .text s⟩)

/-- The candidates of a registry are in this order. -/
lemma candidateOrder_candidates (r : Registry) (type : RequestedType) :
    CandidateOrder r type (r.candidates type type.token?) := by
  cases type with
  | «class» id => exact .class id
  | text s =>
    rw [RequestedType.token?]
    cases hread : TypeToken.read? s with
    | none => exact .unread hread
    | some t =>
      cases hfound : r.moduleOf? t.name with
      | none =>
        rw [candidates_of_bare hfound]
        exact .bare hread (moduleOf?_eq_none_iff.mp hfound)
      | some found =>
        rw [candidates_of_qualified hfound]
        exact .routed hread (routedTo_of_moduleOf? hfound)

/-- No other candidates are in it. -/
lemma CandidateOrder.eq_candidates (hnames : (r.modules.map (·.moduleName)).Nodup)
    (h : CandidateOrder r type cs) : cs = r.candidates type type.token? := by
  cases h with
  | «class» id => rfl
  | unread hread =>
    rw [RequestedType.token?, hread]
    rfl
  | routed hread h =>
    rw [RequestedType.token?, hread, candidates_of_qualified ((moduleOf?_eq_some_iff hnames).mpr h)]
  | bare hread h => rw [RequestedType.token?, hread, candidates_of_bare (moduleOf?_eq_none_iff.mpr h)]

/-- The candidates have different names. -/
lemma CandidateOrder.nodup (hnames : ((r.root :: r.modules).map (·.moduleName)).Nodup)
    (h : CandidateOrder r type cs) : (cs.map (·.serializer.moduleName)).Nodup := by
  have hmap : ∀ (ms : List Serializer) (type : RequestedType),
      (ms.map fun m => (⟨m, type⟩ : Candidate)).map (·.serializer.moduleName) = ms.map (·.moduleName) := by
    intro ms type
    rw [List.map_map]
    rfl
  have hlast : ((r.modules ++ [r.root]).map (·.moduleName)).Nodup :=
    ((List.perm_append_singleton r.root r.modules).map _).nodup_iff.mpr hnames
  cases h with
  | «class» id => rwa [hmap]
  | unread hread => rwa [hmap]
  | routed hread h => exact List.nodup_singleton _
  | bare hread h => rwa [hmap]

/-! ### Runs -/

/-- The scalar of a type that is a set of scalars, and whether it may be null. -/
def setOfScalarsType? (type : RequestedType) : Option (WireScalar × Bool) :=
  type.token?.bind setOfScalars?

/-- The law of decoding data as a type, with the questions that are asked. -/
inductive Run (r : Registry) : Value → RequestedType → Traced Value → Prop
  /-- A set of scalars is decoded without asking. -/
  | set {data : Value} {s : String} {t : TypeToken} {scalar : WireScalar} {nullable : Bool}
      (hread : TypeToken.read? s = some t) (hset : setOfScalars? t = some (scalar, nullable)) :
      Run r data (.text s) (.ofExcept (decodeSetOfScalars t scalar nullable data))
  /-- The first candidate that finds a value gives it. -/
  | found {data : Value} {type : RequestedType} {before after : List Candidate} {c : Candidate} {v : Value}
      (hset : setOfScalarsType? type = none) (horder : CandidateOrder r type (before ++ c :: after))
      (hbefore : ∀ b ∈ before, b.NotMine data) (hc : c.answer data = .ok (some v)) :
      Run r data type ⟨(before ++ [c]).map Candidate.call, .ok v⟩
  /-- If it throws instead, its failure is passed on. -/
  | thrown {data : Value} {type : RequestedType} {before after : List Candidate} {c : Candidate} {f : Failure}
      (hset : setOfScalarsType? type = none) (horder : CandidateOrder r type (before ++ c :: after))
      (hbefore : ∀ b ∈ before, b.NotMine data) (hc : c.answer data = .error f) :
      Run r data type ⟨(before ++ [c]).map Candidate.call, .error f⟩
  /-- Without an answer, a token is decoded by the built-in rules, and its elements by runs. -/
  | builtIn {data : Value} {s : String} {t : TypeToken} {cs : List Candidate} {decode : TypeToken → Decoder}
      (hread : TypeToken.read? s = some t) (hset : setOfScalars? t = none)
      (horder : CandidateOrder r (.text s) cs) (hcs : ∀ c ∈ cs, c.NotMine data)
      (helements : ∀ g ∈ t.generics, ∀ v, Run r v (.text g.text) (decode g v)) :
      Run r data (.text s) ⟨cs.map Candidate.call ++ (decodeBuiltin t (t.generics.map decode) s data).calls,
        (decodeBuiltin t (t.generics.map decode) s data).result⟩
  /-- What has no token is not found then. -/
  | unknown {data : Value} {type : RequestedType} {cs : List Candidate} (htoken : type.token? = none)
      (horder : CandidateOrder r type cs) (hcs : ∀ c ∈ cs, c.NotMine data) :
      Run r data type ⟨cs.map Candidate.call, .error (.unknownType type.describe)⟩

/-- What is decoded if no candidate has an answer. -/
def unanswered (r : Registry) (data : Value) : RequestedType → Option TypeToken → Traced Value
  | .text s, some t => decodeBuiltin t (decoders r t.generics) s data
  | type, _ => .fail (.unknownType type.describe)

/-- What is no set of scalars is decoded by the first candidate with an answer. -/
lemma deserialize_of_not_set (hset : setOfScalarsType? type = none) (data : Value) :
    r.deserialize data type =
      (ask data (r.candidates type type.token?)).andThen fun answer =>
        match answer with
        | some v => .done v
        | none => r.unanswered data type type.token? := by
  cases type with
  | «class» id => rfl
  | text s =>
    cases hread : TypeToken.read? s with
    | none =>
      have htoken : RequestedType.token? (.text s) = none := hread
      rw [deserialize_of_not_read htoken, htoken]
      rfl
    | some t =>
      have htoken : RequestedType.token? (.text s) = some t := hread
      rw [setOfScalarsType?, htoken, Option.bind_some] at hset
      rw [deserialize_of_read hread, decode_of_not_set hset, htoken]
      rfl

lemma deserialize_of_set {scalar : WireScalar} {nullable : Bool} (hread : TypeToken.read? s = some t)
    (hset : setOfScalars? t = some (scalar, nullable)) (data : Value) :
    r.deserialize data (.text s) = .ofExcept (decodeSetOfScalars t scalar nullable data) := by
  rw [deserialize_of_read hread]
  obtain ⟨name, mark, generics⟩ := t
  rw [decode]
  simp only [hset]

lemma deserialize_of_found (hset : setOfScalarsType? type = none)
    (hcandidates : r.candidates type type.token? = before ++ c :: after) (hbefore : ∀ b ∈ before, b.NotMine data)
    {v : Value} (hc : c.answer data = .ok (some v)) :
    r.deserialize data type = ⟨(before ++ [c]).map Candidate.call, .ok v⟩ := by
  rw [deserialize_of_not_set hset, hcandidates, ask_of_found hbefore hc]
  simp [Traced.andThen, Traced.done]

lemma deserialize_of_thrown (hset : setOfScalarsType? type = none)
    (hcandidates : r.candidates type type.token? = before ++ c :: after) (hbefore : ∀ b ∈ before, b.NotMine data)
    {f : Failure} (hc : c.answer data = .error f) :
    r.deserialize data type = ⟨(before ++ [c]).map Candidate.call, .error f⟩ := by
  rw [deserialize_of_not_set hset, hcandidates, ask_of_thrown hbefore hc]
  rfl

lemma deserialize_of_notMine (hset : setOfScalarsType? type = none) (hcandidates : r.candidates type type.token? = cs)
    (hcs : ∀ c ∈ cs, c.NotMine data) :
    r.deserialize data type = ⟨cs.map Candidate.call ++ (r.unanswered data type type.token?).calls,
      (r.unanswered data type type.token?).result⟩ := by
  rw [deserialize_of_not_set hset, hcandidates, ask_of_notMine hcs]
  rfl

/-- Decoding is a run if the decoding of elements is. -/
lemma run_deserialize_of_elements (helements : ∀ t, type.token? = some t →
    ∀ g ∈ t.generics, ∀ v, Run r v (.text g.text) (r.deserialize v (.text g.text))) (data : Value) :
    Run r data type (r.deserialize data type) := by
  have horder := candidateOrder_candidates r type
  cases hset : setOfScalarsType? type with
  | some found =>
    obtain ⟨scalar, nullable⟩ := found
    obtain ⟨t, htoken, hscalars⟩ := Option.bind_eq_some_iff.mp hset
    cases type with
    | «class» id => cases htoken
    | text s =>
      rw [deserialize_of_set htoken hscalars]
      exact .set htoken hscalars
  | none =>
    rcases notMine_or_exists_first data (r.candidates type type.token?) with
      hcs | ⟨before, c, after, hcandidates, hbefore, hc⟩
    · rw [deserialize_of_notMine hset rfl hcs]
      cases htoken : type.token? with
      | none =>
        rw [htoken] at horder hcs
        have hunanswered : r.unanswered data type none = .fail (.unknownType type.describe) := by
          cases type <;> rfl
        rw [hunanswered, Traced.fail, List.append_nil]
        exact .unknown htoken horder hcs
      | some t =>
        cases type with
        | «class» id => cases htoken
        | text s =>
          have hnamed := (TypeToken.named_of_read? htoken).1.generics
          rw [htoken] at horder hcs
          rw [setOfScalarsType?, htoken, Option.bind_some] at hset
          rw [unanswered, decoders_eq_map hnamed]
          exact .builtIn htoken hset horder hcs (helements t htoken)
    · rw [hcandidates] at horder
      rcases hanswer : c.answer data with f | _ | v
      · rw [deserialize_of_thrown hset hcandidates hbefore hanswer]
        exact .thrown hset horder hbefore hanswer
      · exact absurd hanswer hc
      · rw [deserialize_of_found hset hcandidates hbefore hanswer]
        exact .found hset horder hbefore hanswer

/-- Decoding data as a type argument is a run.  The induction is on the argument, whose own arguments are read
from their texts again. -/
lemma run_deserialize_of_named (h : t.Named) (data : Value) :
    Run r data (.text t.text) (r.deserialize data (.text t.text)) := by
  induction h generalizing data with
  | @mk name nullable generics hname hgenerics ih =>
    refine run_deserialize_of_elements (fun t htoken g hg v => ?_) data
    obtain rfl := Option.some.inj ((TypeToken.read?_text (.mk hname hgenerics)).symm.trans htoken)
    exact ih g hg v

/-- Decoding is a run. -/
lemma run_deserialize (r : Registry) (data : Value) (type : RequestedType) :
    Run r data type (r.deserialize data type) := by
  refine run_deserialize_of_elements (fun t htoken g hg v => ?_) data
  cases type with
  | «class» id => cases htoken
  | text s => exact run_deserialize_of_named ((TypeToken.named_of_read? htoken).1.generics g hg) v

/-- A run is how data is decoded. -/
lemma Run.eq_deserialize (hnames : (r.modules.map (·.moduleName)).Nodup) {x : Traced Value}
    (h : Run r data type x) : x = r.deserialize data type := by
  induction h with
  | set hread hset => rw [deserialize_of_set hread hset]
  | found hset horder hbefore hc =>
    rw [deserialize_of_found hset (horder.eq_candidates hnames).symm hbefore hc]
  | thrown hset horder hbefore hc =>
    rw [deserialize_of_thrown hset (horder.eq_candidates hnames).symm hbefore hc]
  | @builtIn data s t cs decode hread hset horder hcs helements ih =>
    have htoken : RequestedType.token? (.text s) = some t := hread
    have hdecode : t.generics.map decode = decoders r t.generics := by
      rw [decoders_eq_map (TypeToken.named_of_read? hread).1.generics]
      exact List.map_congr_left fun g hg => funext fun v => ih g hg v
    rw [deserialize_of_notMine (by rw [setOfScalarsType?, htoken, Option.bind_some, hset])
      (horder.eq_candidates hnames).symm hcs, hdecode, htoken]
    rfl
  | @unknown data type cs htoken horder hcs =>
    have hunanswered : r.unanswered data type none = .fail (.unknownType type.describe) := by
      cases type <;> rfl
    rw [deserialize_of_notMine (by rw [setOfScalarsType?, htoken, Option.bind_none])
      (horder.eq_candidates hnames).symm hcs, htoken, hunanswered, Traced.fail, List.append_nil]

/-- Decoding data as a type is the run for them, with all its questions, and there is no other run.  The
candidates for a type have different names, so nobody is asked twice.  The token that a routed module is asked
for has the rest of the name, where that is a name, and the arguments and the mark of the token itself. -/
theorem deserialize_run {root : Serializer} {modules : List Serializer} (hbuild : build root modules = .ok r)
    (data : Value) (type : RequestedType) :
    (∀ x, r.deserialize data type = x ↔ Run r data type x) ∧
      (∃! cs, CandidateOrder r type cs) ∧
      (∀ cs, CandidateOrder r type cs → (cs.map (·.serializer.moduleName)).Nodup) ∧
      ∀ t name, type.token? = some t → TypeToken.IsName name →
        TypeToken.read? (TypeToken.text { t with name }) = some { t with name } := by
  obtain ⟨rfl, hnames⟩ := build_eq_ok_iff.mp hbuild
  have hmodules : (modules.map (·.moduleName)).Nodup := (List.nodup_cons.mp hnames).2
  refine ⟨fun x => ⟨?_, fun h => (h.eq_deserialize hmodules).symm⟩, ?_, fun cs h => h.nodup hnames, ?_⟩
  · rintro rfl
    exact run_deserialize _ data type
  · exact ⟨_, candidateOrder_candidates _ type, fun cs h => h.eq_candidates hmodules⟩
  · intro t name htoken hname
    cases type with
    | «class» id => cases htoken
    | text s => exact TypeToken.read?_text (.mk hname (TypeToken.named_of_read? htoken).1.generics)

/-- A list of two targets is decoded by five questions: two for the list, and for the first target as for the
second one the root before the module. -/
theorem deserialize_run_list :
    ∃ r, build (stub "root" []) [stub "one" ["Target"]] = .ok r ∧
      Run r (.list [.null, .bool true]) (.text "List<Target>")
        ⟨["root", "one"].map (fun m => .deserialize m (.text "List<Target>")) ++
            (["root", "one"].map (fun m => .deserialize m (.text "Target")) ++
              ["root", "one"].map (fun m => .deserialize m (.text "Target"))),
          .ok (.list [.list [.string "one", .null], .list [.string "one", .bool true]])⟩ := by
  have hbuild : build (stub "root" []) [stub "one" ["Target"]] = .ok ⟨_, _⟩ :=
    build_eq_ok_iff.mpr ⟨rfl, by decide⟩
  have hread : TypeToken.read? "List<Target>" = some ⟨"List", false, [⟨"Target", false, []⟩]⟩ :=
    TypeToken.read?_text (t := ⟨"List", false, [⟨"Target", false, []⟩]⟩)
      (.mk (by decide) (by simpa using TypeToken.IsName.named (by decide) false))
  refine ⟨_, hbuild, ((deserialize_run hbuild _ _).1 _).mp ?_⟩
  rw [deserialize_of_read hread]
  rfl

/-- A text that is no type expression is asked for in the modules first, although the root would answer for it
and no module stands in front of it. -/
theorem unread_text_order :
    ∃ r, build (stub "root" ["my-type"]) [stub "one" ["my-type"]] = .ok r ∧
      Unrouted r.modules "my-type" ∧ setOfScalarsType? (.text "my-type") = none ∧
      r.deserialize .null (.text "my-type") =
        ⟨[.deserialize "one" (.text "my-type")], .ok (.list [.string "one", .null])⟩ ∧
      Candidate.answer ⟨r.root, .text "my-type"⟩ .null = .ok (some (.list [.string "root", .null])) := by
  have hbuild : build (stub "root" ["my-type"]) [stub "one" ["my-type"]] = .ok ⟨_, _⟩ :=
    build_eq_ok_iff.mpr ⟨rfl, by decide⟩
  have hread : RequestedType.token? (.text "my-type") = none :=
    TypeToken.read?_eq_none_of_mem (show '-' ∈ "my-type".toList by decide) (by decide) (by decide)
  refine ⟨_, hbuild, moduleOf?_eq_none_iff.mp (moduleOf?_eq_none _ (by decide)), ?_, ?_, rfl⟩
  · rw [setOfScalarsType?, hread, Option.bind_none]
  · rw [deserialize_of_not_read hread]
    rfl

end Registry

end EntitySchema
