import Mathlib.Data.List.Forall2
import Mathlib.Tactic.Common
import EntitySchema.Proofs.Reading
import EntitySchema.Proofs.Types.Pass

/-!
# Types among entities in another order

Where the keys of entities are unique, a lookup finds the same entity in every order of the entities
(`EntityIndex.Permuted.find?_eq`), though at another position; only the candidates of an ambiguous name are
listed in the order of the modules (`TypeResolution.lookup_permuted`), and these are an error.  Defaults are checked
against the same enums.  So types and defaults are resolved in the same way in every order, with the same
diagnostics but for the modules that an ambiguous name lists (`TypeResolution.resolve_permuted`).  The keys are
unique because a class name that is read from a document has no colon; names with colons may share a key, and then
the first of them in the order is found (`TypeResolution.resolve_colons`).
-/

namespace EntitySchema

/-- A search that only one element can answer finds it in every list with the same elements. -/
lemma find?_eq_of_mem_iff {α : Type} {p : α → Bool} {l l' : List α} (hmem : ∀ a, a ∈ l' ↔ a ∈ l)
    (hunique : ∀ a ∈ l, ∀ b ∈ l, p a = true → p b = true → a = b) : l'.find? p = l.find? p := by
  cases hl : l.find? p with
  | none =>
    rw [List.find?_eq_none] at hl ⊢
    exact fun a ha => hl a ((hmem a).mp ha)
  | some a =>
    have ha := List.mem_of_find?_eq_some hl
    obtain ⟨b, hb⟩ := Option.isSome_iff_exists.mp
      (List.find?_isSome.mpr ⟨a, (hmem a).mpr ha, List.find?_some hl⟩)
    have hbl := (hmem b).mp (List.mem_of_find?_eq_some hb)
    rw [hb, hunique b hbl a ha (List.find?_some hb) (List.find?_some hl)]

/-- The same entities, whose keys are unique, and the same modules in two orders. -/
structure EntityIndex.Permuted (index index' : EntityIndex) : Prop where
  entities : index.entities.Perm index'.entities
  aliases : index.aliases.Perm index'.aliases
  keys : index.entities.Pairwise fun e e' => e.key ≠ e'.key

namespace EntityIndex.Permuted

variable {index index' : EntityIndex}

protected lemma symm (h : index.Permuted index') : index'.Permuted index where
  entities := h.entities.symm
  aliases := h.aliases.symm
  keys := (h.entities.pairwise_iff fun hne => hne.symm).mp h.keys

/-- Every entity has a place in the other order. -/
lemma exists_place (h : index.Permuted index') {i : Nat} {e : Entity} (he : index.entities[i]? = some e) :
    ∃ i' : Nat, index'.entities[i']? = some e :=
  List.mem_iff_getElem?.mp (h.entities.mem_iff.mp (List.mem_of_getElem? he))

/-- A lookup that only one entity can answer finds the same one in both orders. -/
lemma first_eq (h : index.Permuted index') {p : Entity → Bool}
    (hunique : index'.entities.Pairwise fun e e' => ¬ (p e = true ∧ p e' = true)) {l : Located}
    (hl : index.first p = some l) : ∃ i', index'.first p = some ⟨i', l.entity⟩ := by
  obtain ⟨hget, hp, -⟩ := first_eq_some_iff.mp hl
  obtain ⟨i', hi'⟩ := h.exists_place hget
  refine ⟨i', first_eq_some_of_unique hi' hp fun j e he hpe => ?_⟩
  exact RelationResolution.eq_of_pairwise hunique he hi' (fun hne => hne ⟨hpe, hp⟩) fun hne => hne ⟨hp, hpe⟩

/-- The entity with a name in a module is the same in both orders. -/
lemma find?_eq (h : index.Permuted index') {a n : String} {l : Located} (hl : index.find? a n = some l) :
    ∃ i', index'.find? a n = some ⟨i', l.entity⟩ := by
  rw [find?_eq_first] at hl ⊢
  refine h.first_eq (h.symm.keys.imp fun hne hp => hne ?_) hl
  simp only [beq_iff_eq] at hp
  exact hp.1.trans hp.2.symm

/-- The same, without positions. -/
lemma entity_find? (h : index.Permuted index') (a n : String) :
    (index'.find? a n).map (·.entity) = (index.find? a n).map (·.entity) := by
  cases hl : index.find? a n with
  | some l =>
    obtain ⟨i', hi'⟩ := h.find?_eq hl
    rw [hi', Option.map_some, Option.map_some]
  | none =>
    cases hl' : index'.find? a n with
    | none => rfl
    | some l =>
      obtain ⟨i, hi⟩ := h.symm.find?_eq hl'
      rw [hi] at hl
      cases hl

/-- The class that a type stands for is the same in both orders. -/
lemma findClass?_eq (h : index.Permuted index') {t : TypeDef} {l : Located}
    (hl : index.findClass? t = some l) : ∃ i', index'.findClass? t = some ⟨i', l.entity⟩ := by
  unfold findClass? at hl ⊢
  split at hl
  · rename_i hcategory
    obtain ⟨hfind, hkind⟩ := Option.filter_eq_some_iff.mp hl
    obtain ⟨a, ha, hfind⟩ := Option.bind_eq_some_iff.mp hfind
    obtain ⟨i', hi'⟩ := h.find?_eq hfind
    refine ⟨i', ?_⟩
    rw [if_pos hcategory, ha, Option.bind_some]
    exact Option.filter_eq_some_iff.mpr ⟨hi', hkind⟩
  · cases hl

/-- The same modules take part in both orders. -/
lemma hasModule_eq (h : index.Permuted index') (a : String) : index'.hasModule a = index.hasModule a := by
  rw [hasModule, hasModule, Bool.eq_iff_iff, List.contains_iff_mem, List.contains_iff_mem]
  exact h.aliases.mem_iff.symm

/-- The candidates in other modules are the same in another order. -/
lemma elsewhere_perm (h : index.Permuted index') (n a : String) :
    ((index.elsewhere n a).map (·.entity)).Perm ((index'.elsewhere n a).map (·.entity)) := by
  unfold elsewhere
  rw [List.map_filterMap, List.map_filterMap]
  simp only [h.entity_find?]
  exact (h.aliases.filter _).filterMap _

end EntityIndex.Permuted

/-! ### Diagnostics that list modules -/

/-- The message about a name in the type of a field that several modules declare. -/
def TypeResolution.ambiguity (name field : String) (aliases : List String) : String :=
  "The type \"" ++ name ++ "\" used by field \"" ++ field ++ "\" is declared by several modules (" ++
    String.intercalate ", " aliases ++ "). Use a \"module:<alias>:\" prefix."

/-- The same diagnostic, except that a message about an ambiguous name may list the modules in another order. -/
inductive Diagnostic.Relisted : Diagnostic → Diagnostic → Prop
  | refl (d : Diagnostic) : Relisted d d
  | relist {d : Diagnostic} {name field : String} {aliases aliases' : List String}
      (hcode : d.code = some Code.ambiguousType.name)
      (hmessage : d.message = TypeResolution.ambiguity name field aliases) (horder : aliases.Perm aliases') :
      Relisted d { d with message := TypeResolution.ambiguity name field aliases' }

/-- The same of issues. -/
def Issue.Relisted (i i' : Issue) : Prop :=
  ∀ source, (i.toDiagnostic source).Relisted (i'.toDiagnostic source)

lemma Issue.Relisted.refl (i : Issue) : i.Relisted i :=
  fun _ => .refl _

/-! ### Types -/

namespace TypeResolution

variable {index index' : EntityIndex} {e : Entity} {f : FieldDraft}

/-- Both lookups find the same entity, or both report the same, except for the order of modules. -/
inductive LookupsAgree : Except Issue Entity → Except Issue Entity → Prop
  | found (e : Entity) : LookupsAgree (.ok e) (.ok e)
  | refused {i i' : Issue} (h : i.Relisted i') : LookupsAgree (.error i) (.error i')

/-- Both results are the same, and so are the issues, except for the order of modules. -/
def ResultsAgree {α : Type} (r r' : α × List Issue) : Prop :=
  r'.1 = r.1 ∧ List.Forall₂ Issue.Relisted r.2 r'.2

lemma ResultsAgree.refl {α : Type} (r : α × List Issue) : ResultsAgree r r :=
  ⟨rfl, List.forall₂_same.mpr fun i _ => Issue.Relisted.refl i⟩

/-- A name without a module that is not declared in the own one is looked for in the others. -/
lemma lookup_elsewhere_permuted (h : index.Permuted index') {n : String}
    (hl : index.find? e.moduleAlias n = none) :
    LookupsAgree (Site.lookup ⟨index, e, f⟩ none n) (Site.lookup ⟨index', e, f⟩ none n) := by
  have hl' := h.entity_find? e.moduleAlias n
  rw [hl, Option.map_none, Option.map_eq_none_iff] at hl'
  have hperm := h.elsewhere_perm n e.moduleAlias
  have hlength := hperm.length_eq
  rw [List.length_map, List.length_map] at hlength
  unfold Site.lookup
  simp only [hl, hl']
  match hcs : index.elsewhere n e.moduleAlias, hcs' : index'.elsewhere n e.moduleAlias with
  | [], [] => exact .refused (Issue.Relisted.refl _)
  | [c], [c'] =>
    rw [hcs, hcs', List.map_singleton, List.map_singleton, List.singleton_perm_singleton] at hperm
    dsimp only
    rw [hperm]
    exact .found _
  | c :: d :: cs, c' :: d' :: cs' =>
    rw [hcs, hcs'] at hperm
    refine .refused fun source => .relist rfl rfl ?_
    simpa [List.map_map, Function.comp_def] using hperm.map Entity.moduleAlias
  | [], _ :: _ | _ :: _, [] | [_], _ :: _ :: _ | _ :: _ :: _, [_] =>
    rw [hcs, hcs'] at hlength
    simp at hlength

/-- A name is looked up alike in both orders. -/
lemma lookup_permuted (h : index.Permuted index') (a : Option String) (n : String) :
    LookupsAgree (Site.lookup ⟨index, e, f⟩ a n) (Site.lookup ⟨index', e, f⟩ a n) := by
  cases a with
  | some a =>
    have hfind := h.entity_find? a n
    unfold Site.lookup
    simp only [h.hasModule_eq]
    split
    · exact .refused (Issue.Relisted.refl _)
    cases hl : index.find? a n with
    | some l =>
      obtain ⟨i', hi'⟩ := h.find?_eq hl
      rw [hi']
      exact .found _
    | none =>
      rw [hl, Option.map_none, Option.map_eq_none_iff] at hfind
      rw [hfind]
      exact .refused (Issue.Relisted.refl _)
  | none =>
    cases hl : index.find? e.moduleAlias n with
    | some l =>
      obtain ⟨i', hi'⟩ := h.find?_eq hl
      unfold Site.lookup
      simp only [hl, hi']
      exact .found _
    | none => exact lookup_elsewhere_permuted h hl

mutual

/-- A type is resolved alike in both orders. -/
lemma resolveType_permuted (h : index.Permuted index') (t : TypeDef) :
    ResultsAgree (Site.resolve ⟨index, e, f⟩ t) (Site.resolve ⟨index', e, f⟩ t) := by
  obtain ⟨name, nullable, generics, category, moduleAlias, entityKind, dimension, enumSerialization⟩ := t
  cases category with
  | container =>
    obtain ⟨hgenerics, hissues⟩ := resolveTypes_permuted h generics
    rw [Site.resolve, Site.resolve]
    dsimp only
    rw [hgenerics]
    exact ⟨rfl, hissues⟩
  | unresolved =>
    have hlookup := lookup_permuted (e := e) (f := f) h moduleAlias name
    rw [Site.resolve, Site.resolve]
    generalize Site.lookup ⟨index, e, f⟩ moduleAlias name = r at hlookup
    generalize Site.lookup ⟨index', e, f⟩ moduleAlias name = r' at hlookup
    cases hlookup with
    | found e => exact ResultsAgree.refl _
    | refused hissue => exact ⟨rfl, .cons hissue .nil⟩
  | scalar | vector | entity =>
    rw [Site.resolve, Site.resolve]
    exact ResultsAgree.refl _

lemma resolveTypes_permuted (h : index.Permuted index') (ts : List TypeDef) :
    ResultsAgree (Site.resolveAll ⟨index, e, f⟩ ts) (Site.resolveAll ⟨index', e, f⟩ ts) := by
  cases ts with
  | nil =>
    rw [Site.resolveAll, Site.resolveAll]
    exact ResultsAgree.refl _
  | cons t ts =>
    obtain ⟨htype, hissues⟩ := resolveType_permuted h t
    obtain ⟨htypes, hmore⟩ := resolveTypes_permuted h ts
    rw [Site.resolveAll, Site.resolveAll]
    dsimp only
    rw [htype, htypes]
    exact ⟨rfl, List.rel_append hissues hmore⟩

end

/-- The values of an enum are the same in both orders. -/
lemma enumValues?_of_permuted (h : index.Permuted index') (t : TypeDef) :
    enumValues? index' t = enumValues? index t := by
  have hentity := h.entity_find? (t.moduleAlias.getD "") t.name
  unfold enumValues?
  cases hl : index.find? (t.moduleAlias.getD "") t.name with
  | none =>
    rw [hl, Option.map_none, Option.map_eq_none_iff] at hentity
    rw [hentity]
  | some l =>
    rw [hl, Option.map_some, Option.map_eq_some_iff] at hentity
    obtain ⟨l', hl', heq⟩ := hentity
    obtain ⟨i, found⟩ := l
    obtain ⟨i', found'⟩ := l'
    obtain rfl : found' = found := heq
    rw [hl']
    obtain ⟨header, nameSpan, body⟩ := found'
    cases body <;> rfl

/-- Defaults are checked in the same way in both orders. -/
lemma checkDefaults_of_permuted (h : index.Permuted index') (t : TypeDef) (d : DraftDefaults) :
    Site.checkDefaults ⟨index', e, f⟩ t d = Site.checkDefaults ⟨index, e, f⟩ t d := by
  unfold Site.checkDefaults
  rw [enumValues?_of_permuted h]
  rfl

/-- A field is resolved alike in both orders. -/
lemma resolveField_permuted (h : index.Permuted index') :
    ResultsAgree (Site.resolveField ⟨index, e, f⟩) (Site.resolveField ⟨index', e, f⟩) := by
  obtain ⟨htype, hissues⟩ := resolveType_permuted (e := e) (f := f) h f.type
  unfold Site.resolveField
  dsimp only
  rw [htype, checkDefaults_of_permuted h]
  exact ⟨rfl, List.rel_append hissues (ResultsAgree.refl _).2⟩

/-- The diagnostics about the types and defaults of an entity. -/
def typeDiagnostics (index : EntityIndex) (e : Entity) : List Diagnostic :=
  (resolveEntity index e).2

/-- An entity is resolved alike in both orders. -/
lemma resolveEntity_permuted (h : index.Permuted index') (e : Entity) :
    typedEntity index' e = typedEntity index e ∧
      List.Forall₂ Diagnostic.Relisted (typeDiagnostics index e) (typeDiagnostics index' e) := by
  have hfields : e.fields.map (fun f => (Site.resolveField ⟨index', e, f⟩).1) =
      e.fields.map fun f => (Site.resolveField ⟨index, e, f⟩).1 :=
    List.map_congr_left fun f _ => (resolveField_permuted h).1
  have hissues : List.Forall₂ Issue.Relisted (e.fields.flatMap fun f => (Site.resolveField ⟨index, e, f⟩).2)
      (e.fields.flatMap fun f => (Site.resolveField ⟨index', e, f⟩).2) := by
    refine List.rel_flatMap (R := Eq) (List.forall₂_same.mpr fun _ _ => rfl) ?_
    rintro f _ rfl
    exact (resolveField_permuted h).2
  constructor
  · simp only [typedEntity, resolveEntity, List.map_map, Function.comp_def, hfields]
  · simp only [typeDiagnostics, resolveEntity, List.flatMap_map]
    exact List.rel_map (fun _ _ hrelisted => hrelisted _) hissues

/-- An entity that is resolved without errors is resolved in the same way in both orders. -/
lemma resolveEntity_of_permuted (h : index.Permuted index')
    (hno : Diagnostic.hasErrors (resolveEntity index e).2 = false) :
    resolveEntity index' e = resolveEntity index e := by
  obtain ⟨hentity, hdiagnostics⟩ := resolveEntity_permuted h e
  have hnone : (resolveEntity index e).2 = [] := by
    simp only [resolveEntity, List.flatMap_map, List.map_eq_nil_iff, List.flatMap_eq_nil_iff]
    exact fun f hf => fieldIssues_of_hasErrors hf hno
  rw [typeDiagnostics, hnone, List.forall₂_nil_left_iff] at hdiagnostics
  exact Prod.ext hentity (hdiagnostics.trans hnone.symm)

/-- Types and defaults of entities that are read from documents are resolved in the same way in every order of the
entities and of the modules, if no class is declared twice in its module.  Every entity has the same diagnostics in
the same order, except for the order in which the modules of an ambiguous name are listed. -/
theorem resolve_permuted {entities entities' : List Entity} {aliases aliases' : List String}
    (hentities : entities.Perm entities') (haliases : aliases.Perm aliases')
    (hread : ∀ e ∈ entities, ∃ input, (Entity.ofDocument input).1 = some e)
    (honce : (entities.map fun e => (e.moduleAlias, e.className)).Nodup) :
    (resolve ⟨entities, aliases⟩).1 = entities.map (typedEntity ⟨entities, aliases⟩) ∧
      (resolve ⟨entities', aliases'⟩).1 = entities'.map (typedEntity ⟨entities, aliases⟩) ∧
      (resolve ⟨entities, aliases⟩).2 = entities.flatMap (typeDiagnostics ⟨entities, aliases⟩) ∧
      (resolve ⟨entities', aliases'⟩).2 = entities'.flatMap (typeDiagnostics ⟨entities', aliases'⟩) ∧
      ∀ e ∈ entities, List.Forall₂ Diagnostic.Relisted (typeDiagnostics ⟨entities, aliases⟩ e)
        (typeDiagnostics ⟨entities', aliases'⟩ e) := by
  have hnames : ∀ e ∈ entities, HasNoColon e.className := by
    intro e he
    obtain ⟨input, hinput⟩ := hread e he
    exact (Entity.declared_ofDocument hinput).className
  have hkeys : entities.Pairwise fun e e' => e.key ≠ e'.key := by
    refine (List.pairwise_map.mp honce).imp_of_mem fun he he' hne hkey => hne ?_
    obtain ⟨halias, hname⟩ := entityKey_inj (hnames _ he) (hnames _ he') hkey
    rw [halias, hname]
  have hpermuted : EntityIndex.Permuted ⟨entities, aliases⟩ ⟨entities', aliases'⟩ := ⟨hentities, haliases, hkeys⟩
  have htyped : typedEntity ⟨entities', aliases'⟩ = typedEntity ⟨entities, aliases⟩ :=
    funext fun e => (resolveEntity_permuted hpermuted e).1
  have hdiagnostics : ∀ index : EntityIndex, (resolve index).2 = index.entities.flatMap (typeDiagnostics index) := by
    intro index
    simp only [resolve, List.flatMap_map]
    rfl
  refine ⟨resolve_entities, ?_, hdiagnostics _, hdiagnostics _, fun e _ => (resolveEntity_permuted hpermuted e).2⟩
  rw [resolve_entities, htyped]

/-- Cards of two games, and a table on which neither a card nor a color can be told. -/
def games : List Entity :=
  [("skat", "class: Card\n"), ("poker", "class: Card\n"), ("poker", "enum: Color\nvalues:\n  - red\n"),
    ("club", "class: Table\nfields:\n  cards: List<Card>\n  color: Color?, default=green\n")].flatMap fun (a, text) =>
      (Entity.ofDocument ⟨text, "games.spy.yaml", "games", [], some a⟩).1.toList

/-- The games can be given the other way round, and the modules too: only the list of the modules changes. -/
theorem resolve_permuted_games :
    (resolve ⟨games.reverse, ["poker", "skat", "club"]⟩).1 =
        games.reverse.map (typedEntity ⟨games, ["skat", "poker", "club"]⟩) ∧
      (resolve ⟨games, ["skat", "poker", "club"]⟩).2.map (·.message) =
        ["The type \"Card\" used by field \"cards\" is declared by several modules (skat, poker). Use a " ++
            "\"module:<alias>:\" prefix.",
          "The default value \"green\" is not a value of the enum \"Color\"."] ∧
      (resolve ⟨games.reverse, ["poker", "skat", "club"]⟩).2.map (·.message) =
        ["The type \"Card\" used by field \"cards\" is declared by several modules (poker, skat). Use a " ++
            "\"module:<alias>:\" prefix.",
          "The default value \"green\" is not a value of the enum \"Color\"."] := by
  have hread : ∀ e ∈ games, ∃ input, (Entity.ofDocument input).1 = some e := by
    intro e he
    obtain ⟨input, -, hinput⟩ := List.mem_flatMap.mp he
    exact ⟨_, Option.mem_toList.mp hinput⟩
  have haliases : ["skat", "poker", "club"].Perm ["poker", "skat", "club"] := by decide
  have hresolved := resolve_permuted (List.reverse_perm games).symm haliases hread (by decide +kernel)
  exact ⟨hresolved.2.1, by decide +kernel, by decide +kernel⟩

/-- A class of another name and module, and a class with a field of this class. -/
def colonNames : List Entity :=
  [("a:b", "class: C\n"), ("a:b", "class: User\nfields:\n  c: C\n")].flatMap fun (a, text) =>
    (Entity.ofDocument ⟨text, "c.spy.yaml", "c", [], some a⟩).1.toList.flatMap fun e =>
      if e.className = "C" then
        [{ e with header := { e.header with moduleAlias := "a", className := "b:C" } }, e]
      else [e]

/-- The class `b:C` of the module `a` and the class `C` of the module `a:b` have one key.  Though no class is declared
twice in a module, the type of the field stands for the one that comes first. -/
theorem resolve_colons :
    (colonNames.map fun e => (e.moduleAlias, e.className)).Nodup ∧
      (resolve ⟨colonNames, ["a", "a:b"]⟩).1.map (fun e => e.fields.map fun f => (f.type.moduleAlias, f.type.name)) =
        [[], [], [(some "a", "b:C")]] ∧
      (resolve ⟨colonNames.reverse, ["a", "a:b"]⟩).1.map
          (fun e => e.fields.map fun f => (f.type.moduleAlias, f.type.name)) =
        [[(some "a:b", "C")], [], []] := by
  decide +kernel

end TypeResolution

end EntitySchema
