import Mathlib.Data.List.Basic
import Mathlib.Tactic.Common
import EntitySchema.Proofs.Compilation

/-!
# Relations of definitions

What has been proved of the workspace, said of the definitions of a compilation without errors.  Every
relation is linked to a key (`linked_compile`), and every field that declares a relation has one
(`related_compile`).  Both need that a field that declares a relation is the first one of its name, because
a relation is given to the first field with the name of the one that declares it.  Only the texts of
literals are names that two fields can share, so it is enough that fields with these names lead.
-/

namespace EntitySchema

open RelationResolution (TableClass visited Visit)

/-- The field with a name is a key, with the given property. -/
def ModelDef.HasKey (m : ModelDef) (key : String) (p : ForeignKeyRelation → Prop) : Prop :=
  ∃ k r, m.field? key = some k ∧ k.relation = some (.foreignKey r) ∧ p r

/-- Of the fields that are named like a literal, one that declares a relation is the first of its name. -/
def Entity.LiteralsLead (e : Entity) : Prop :=
  FieldDraft.Shadowed (fun f => f.name ∈ literalNames → f.relationOption = none) e.fields

/-- Fields with pairwise different names all lead. -/
lemma Entity.literalsLead_of_nodup {e : Entity} (h : (e.fields.map (·.name)).Nodup) : e.LiteralsLead :=
  (List.pairwise_map.mp h).imp fun hne heq => absurd heq hne

/-- Where fields share only literals as names, it is enough that the literals lead. -/
lemma Entity.NamesApart.relationsLead {e : Entity} (h : e.NamesApart) (hlead : e.LiteralsLead) :
    e.RelationsLead :=
  (h.and hlead).imp fun hfg heq => hfg.2 heq (hfg.1 heq)

namespace Compilation

/-- A nullable field that is not stored holds objects of the class with the given names. -/
structure Holds (c : Compilation) (f : FieldDef) (moduleAlias className table : String)
    (target : ModelDef) : Prop where
  class_eq : c.class? moduleAlias className = some target
  table_eq : target.tableName? = some table
  nullable : f.type.nullable = true
  unpersisted : f.shouldPersist = false

/-- The relation of a field of a definition is linked: an object field has a key in its own class or in the
class of the object, never in both; a list field has a key in the class of its elements; and a key has the
type of the primary key that it refers to. -/
def Linked (c : Compilation) (m : ModelDef) (f : FieldDef) : RelationDef → Prop
  | .object r => ∃ target, c.Holds f r.targetModuleAlias r.targetClass r.targetTable target ∧
      ((∃ key, r.foreignKeyField = some key ∧ r.targetForeignKeyField = none ∧
          m.HasKey key fun k => k.parentTable = r.targetTable ∧ k.referencedField = "id" ∧
            k.relationField = some f.name ∧ k.relationFieldOwner = some m.header.className) ∨
        (∃ key, r.foreignKeyField = none ∧ r.targetForeignKeyField = some key ∧
          target.HasKey key fun k => m.tableName? = some k.parentTable))
  | .list r => ∃ target, c.Holds f r.targetModuleAlias r.targetClass r.targetTable target ∧
      target.HasKey r.foreignKeyField fun k => m.tableName? = some k.parentTable
  | .foreignKey r => r.referencedField = "id" ∧ ∃ parent id, c.classOfTable? r.parentTable = some parent ∧
      parent.field? "id" = some id ∧ f.type.withNullable false = id.type.withNullable false

section Definitions

variable {project : ModuleSource} {dependencies : List ModuleSource} {given : List Diagnostic}

/-- Entities in which the literals lead are ready for their relations. -/
lemma Accepted.prepared (h : Accepted project dependencies)
    (hlead : ∀ e ∈ (declarations project dependencies).entities, e.LiteralsLead) :
    RelationResolution.Prepared (declarations project dependencies).typed :=
  TypeResolution.prepared_resolve h.typed h.keys fun e he =>
    (h.complete.namesApart e he).relationsLead (hlead e he)

/-- A key in the workspace is a key of the definition. -/
lemma hasKey_finished {index : EntityIndex} {c : TableClass} (hc : c.Belongs index)
    {key : String} {p q : ForeignKeyRelation → Prop}
    (h : RelationResolution.HasKey (visited index).1 c.position key p)
    (hpq : ∀ r, p r → q r) : (finished index c.position c.entity).toDefinition.HasKey key q := by
  obtain ⟨k, r, hk, hr, hp⟩ := h
  refine ⟨k.toDefinition, r, ?_, hr, hpq r hp⟩
  rw [field?_finished (by rw [hc.table]; rfl), hk, Option.map_some]

/-- The class whose objects a field of the workspace holds is found among the definitions. -/
lemma holds_finished (h : Accepted project dependencies) {i : Nat} {d : FieldDraft}
    {owner target : TableClass}
    (hd : RelationResolution.Holds (declarations project dependencies).typed i d owner target) :
    (compile project dependencies given).Holds d.toDefinition target.entity.moduleAlias
      target.entity.className target.table
      (finished (declarations project dependencies).typed target.position target.entity).toDefinition where
  class_eq := class?_compile h hd.targetBelongs.entity hd.targetBelongs.table
  table_eq := by simpa using hd.targetBelongs.table
  nullable := hd.nullable
  unpersisted := hd.unpersisted

section Linked

variable {i : Nat} {e : Entity} {d : FieldDraft}

/-- An object field has a key in its own class or in the class of the object. -/
lemma Accepted.linked_object (h : Accepted project dependencies)
    (hlead : ∀ e ∈ (declarations project dependencies).entities, e.LiteralsLead)
    (he : (declarations project dependencies).typed.entities[i]? = some e)
    (hd : d ∈ (visited (declarations project dependencies).typed).1.fieldsAt i) {r : ObjectRelation}
    (hr : d.relation = some (.object r)) :
    (compile project dependencies given).Linked
      (finished (declarations project dependencies).typed i e).toDefinition d.toDefinition (.object r) := by
  obtain ⟨owner, target, hholds, hclass, halias, htable, hkey⟩ :=
    RelationResolution.object_linked (h.prepared hlead) h.linked hd hr
  obtain rfl := hholds.position_eq
  obtain rfl : e = owner.entity := Option.some.inj (he.symm.trans hholds.ownerBelongs.entity)
  refine ⟨_, by rw [hclass, halias, htable]; exact holds_finished h hholds, ?_⟩
  rcases hkey with ⟨key, hown, hother, hkey⟩ | ⟨key, hown, hother, hkey⟩
  · refine Or.inl ⟨key, hown, hother, hasKey_finished hholds.ownerBelongs hkey ?_⟩
    rintro k ⟨hparent, hid, hfield, howner⟩
    refine ⟨hparent.trans htable.symm, hid, hfield, ?_⟩
    rw [howner, Entity.header_toDefinition, header_finished]
    rfl
  · refine Or.inr ⟨key, hown, hother, hasKey_finished hholds.targetBelongs hkey ?_⟩
    intro k hparent
    rw [Entity.tableName?_toDefinition, table?_finished, hholds.ownerBelongs.table, hparent]

/-- A list field has a key in the class of its elements. -/
lemma Accepted.linked_list (h : Accepted project dependencies)
    (hlead : ∀ e ∈ (declarations project dependencies).entities, e.LiteralsLead)
    (he : (declarations project dependencies).typed.entities[i]? = some e)
    (hd : d ∈ (visited (declarations project dependencies).typed).1.fieldsAt i) {r : ListRelation}
    (hr : d.relation = some (.list r)) :
    (compile project dependencies given).Linked
      (finished (declarations project dependencies).typed i e).toDefinition d.toDefinition (.list r) := by
  obtain ⟨owner, target, hholds, hclass, halias, htable, hkey⟩ :=
    RelationResolution.list_linked (h.prepared hlead) h.linked hd hr
  obtain rfl := hholds.position_eq
  obtain rfl : e = owner.entity := Option.some.inj (he.symm.trans hholds.ownerBelongs.entity)
  refine ⟨_, by rw [hclass, halias, htable]; exact holds_finished h hholds, ?_⟩
  refine hasKey_finished hholds.targetBelongs hkey fun k hparent => ?_
  rw [Entity.tableName?_toDefinition, table?_finished, hholds.ownerBelongs.table, hparent]

/-- A key has the type of the primary key that it refers to, whatever leads. -/
lemma Accepted.linked_key (h : Accepted project dependencies) {m : ModelDef}
    (hd : d ∈ (visited (declarations project dependencies).typed).1.fieldsAt i) {r : ForeignKeyRelation}
    (hr : d.relation = some (.foreignKey r)) :
    (compile project dependencies given).Linked m d.toDefinition (.foreignKey r) := by
  obtain ⟨hid, parent, hparent, htable, id, hfind, htype⟩ :=
    RelationResolution.foreignKey_typed h.typed hd hr
  refine ⟨hid, (finished (declarations project dependencies).typed parent.position
    parent.entity).toDefinition, id.toDefinition, ?_, ?_, htype⟩
  · rw [htable]
    exact classOfTable?_compile h hparent.entity hparent.table
  · rw [field?_finished (by rw [hparent.table]; rfl), hfind, Option.map_some]

end Linked

/-- In a compilation without errors every key is linked, and so is every relation if of the fields that are
named like a literal one that declares a relation is the first of its name. -/
theorem linked_compile (hno : (compile project dependencies given).hasErrors = false) :
    ∀ m ∈ (compile project dependencies given).models, ∀ f ∈ m.fields, ∀ r, f.relation = some r →
      (r.foreignKey?.isSome ∨ ∀ e ∈ (declarations project dependencies).entities, e.LiteralsLead) →
        (compile project dependencies given).Linked m f r := by
  intro m hm f hf r hr hlead
  have h := accepted_of_hasErrors hno
  obtain ⟨i, e, he, rfl⟩ := (mem_models_iff h).mp hm
  obtain ⟨d, hd, rfl⟩ := mem_fields_finished hf
  cases r with
  | object r =>
    have hlead := hlead.resolve_left (by simp [RelationDef.foreignKey?])
    exact h.linked_object hlead he hd hr
  | list r =>
    have hlead := hlead.resolve_left (by simp [RelationDef.foreignKey?])
    exact h.linked_list hlead he hd hr
  | foreignKey r => exact h.linked_key hd hr

/-- The lead of an employee is linked to the key that is added for it. -/
theorem linked_compile_staff :
    ∃ m ∈ (compile staff [] []).models, ∃ f ∈ m.fields, f.name = "lead" ∧
      ∃ r, f.relation = some r ∧ (compile staff [] []).Linked m f r := by
  have hlead : ∀ e ∈ (declarations staff []).entities, e.LiteralsLead :=
    fun e he => Entity.literalsLead_of_nodup (nodup_staff e he)
  obtain ⟨m, hm, f, hf, hname, hrelation⟩ : ∃ m ∈ (compile staff [] []).models, ∃ f ∈ m.fields,
      f.name = "lead" ∧ f.relation.isSome = true := by
    decide +kernel
  obtain ⟨r, hr⟩ := Option.isSome_iff_exists.mp hrelation
  exact ⟨m, hm, f, hf, hname, r, hr, linked_compile hasErrors_staff m hm f hf r hr (Or.inr hlead)⟩

/-! ### Relations that are declared -/

/-- An entity that has been read is there with its types resolved. -/
lemma exists_typed {e : Entity} (he : e ∈ (declarations project dependencies).entities) :
    ∃ i : Nat, (declarations project dependencies).typed.entities[i]? =
      some (TypeResolution.typedEntity (declarations project dependencies).index e) := by
  obtain ⟨i, hi⟩ := List.mem_iff_getElem?.mp he
  refine ⟨i, ?_⟩
  rw [Reading.typed, TypeResolution.resolve_entities, List.getElem?_map, Reading.index, hi, Option.map_some]

/-- A field that is visited has a relation in the definition of its class. -/
lemma exists_related (h : Accepted project dependencies)
    (hlead : ∀ e ∈ (declarations project dependencies).entities, e.LiteralsLead)
    {v : Visit} (hv : v ∈ Visit.ofIndex (declarations project dependencies).typed) :
    ∃ m f, (compile project dependencies given).class? v.owner.entity.moduleAlias v.owner.entity.className =
        some m ∧ m.field? v.declared.name = some f ∧ f.relation.isSome = true := by
  have hbelongs := Visit.belongs hv
  obtain ⟨r, hr⟩ := RelationResolution.related_of_visit (h.prepared hlead) h.linked hv
  refine ⟨(finished (declarations project dependencies).typed v.owner.position v.owner.entity).toDefinition,
    (v.declared.relate r).toDefinition, class?_compile h hbelongs.entity hbelongs.table, ?_, rfl⟩
  rw [field?_finished (by rw [hbelongs.table]; rfl), hr, Option.map_some]

/-- Two fields that hold objects of each other's classes, under one relation name. -/
structure OneToOne (index : EntityIndex) (e e' : Entity) (f f' : FieldDraft) : Prop where
  mem : e ∈ index.entities
  mem_other : e' ∈ index.entities
  field : f ∈ e.fields
  field_other : f' ∈ e'.fields
  apart : e.key = e'.key → f.name ≠ f'.name
  named : ∃ name, f.relationName? = some name ∧ f'.relationName? = some name
  points : f.type.pointsTo e' = true
  points_back : f'.type.pointsTo e = true

/-- A field under a relation name is visited. -/
lemma exists_visit (h : Accepted project dependencies) {e : Entity} {f : FieldDraft} {name : String}
    (he : e ∈ (declarations project dependencies).typed.entities) (hf : f ∈ e.fields)
    (hname : f.relationName? = some name) :
    ∃ v ∈ Visit.ofIndex (declarations project dependencies).typed,
      v.owner.entity = e ∧ v.declared = f ∧ v.option.name.map (·.value) = some name := by
  obtain ⟨o, ho, honame⟩ := Option.bind_eq_some_iff.mp hname
  obtain ⟨i, hi⟩ := List.mem_iff_getElem?.mp he
  cases htable : e.table? with
  | none =>
    -- Without a table the field would have no relation option.
    rw [Reading.typed, TypeResolution.resolve_entities] at he
    obtain ⟨e₀, he₀, rfl⟩ := List.mem_map.mp he
    rw [TypeResolution.fields_typedEntity] at hf
    obtain ⟨f₀, hf₀, rfl⟩ := List.mem_map.mp hf
    rw [TypeResolution.table?_typedEntity] at htable
    rw [TypeResolution.typedField_relationOption, (h.complete.declared e₀ he₀).option htable f₀ hf₀] at ho
    cases ho
  | some table =>
    exact ⟨⟨⟨i, e, table⟩, f, o⟩, Visit.mem_ofIndex.mpr ⟨hi, htable, hf, ho⟩, rfl, rfl, honame⟩

/-- Where the fields of every class have pairwise different names, the literals lead: other entities have no
fields that declare relations. -/
lemma Accepted.literalsLead (h : Accepted project dependencies)
    (hnames : ∀ e ∈ (declarations project dependencies).entities, e.kind = .class →
      (e.fields.map (·.name)).Nodup) :
    ∀ e ∈ (declarations project dependencies).entities, e.LiteralsLead := by
  intro e he
  cases hkind : e.kind with
  | «class» => exact Entity.literalsLead_of_nodup (hnames e he hkind)
  | exception | enum =>
    have htable : e.table? = none := by
      by_contra hsome
      obtain ⟨table, htable⟩ := Option.ne_none_iff_exists'.mp hsome
      rw [Entity.kind_of_table? htable] at hkind
      cases hkind
    have hoption := (h.complete.declared e he).option htable
    exact FieldDraft.shadowed_of_forall fun f hf _ => hoption f hf

/-- A field that a document declares with a relation clause has a relation in the definition of its class. -/
lemma exists_related_of_declares (h : Accepted project dependencies)
    (hlead : ∀ e ∈ (declarations project dependencies).entities, e.LiteralsLead) {s : ModuleSource}
    (hs : s ∈ project :: dependencies) {d : DocumentInput} (hd : d ∈ s.documents) {p : ParsedDocument}
    {className field : String} (hp : (readDocument (s.input d)).1 = some p)
    (hdeclares : Entity.DeclaresRelation p className field) :
    ∃ m f, (compile project dependencies given).class? s.knownAs className = some m ∧
      m.field? field = some f ∧ f.relation.isSome = true := by
  obtain ⟨e, he, rfl, htable, f, hf, rfl, ho⟩ :=
    Entity.exists_relation_ofDocument hp hdeclares (h.complete.documents s hs d hd)
  obtain ⟨table, htable⟩ := Option.isSome_iff_exists.mp htable
  obtain ⟨o, ho⟩ := Option.ne_none_iff_exists'.mp ho
  have hmem : e ∈ (declarations project dependencies).entities :=
    (h.complete.entities e).mpr ⟨s, hs, d, hd, he⟩
  obtain ⟨i, hi⟩ := exists_typed hmem
  -- The field with its type resolved is visited.
  have hv : (⟨⟨i, TypeResolution.typedEntity (declarations project dependencies).index e, table⟩,
      TypeResolution.typedField (declarations project dependencies).index e f, o⟩ : Visit) ∈
        Visit.ofIndex (declarations project dependencies).typed := by
    refine Visit.mem_ofIndex.mpr ⟨hi, (TypeResolution.table?_typedEntity e).trans htable, ?_, ho⟩
    rw [TypeResolution.fields_typedEntity]
    exact List.mem_map_of_mem hf
  obtain ⟨m, g, hm, hg, hrelation⟩ :
      ∃ m g, (compile project dependencies given).class?
          (TypeResolution.typedEntity (declarations project dependencies).index e).moduleAlias
          (TypeResolution.typedEntity (declarations project dependencies).index e).className = some m ∧
        m.field? f.name = some g ∧ g.relation.isSome = true := exists_related h hlead hv
  rw [TypeResolution.moduleAlias_typedEntity, TypeResolution.className_typedEntity,
    Entity.moduleAlias_ofDocument he] at hm
  exact ⟨m, g, hm, hg, hrelation⟩

/-- Exactly one side of a one-to-one relation names the key. -/
lemma OneToOne.key_decided (h : Accepted project dependencies)
    (hlead : ∀ e ∈ (declarations project dependencies).entities, e.LiteralsLead) {e e' : Entity}
    {f f' : FieldDraft} (hpair : OneToOne (declarations project dependencies).typed e e' f f') :
    f.keyFieldName?.isSome ≠ f'.keyFieldName?.isSome := by
  obtain ⟨name, hname, hname'⟩ := hpair.named
  obtain ⟨v, hv, rfl, rfl, hvname⟩ := exists_visit h hpair.mem hpair.field hname
  obtain ⟨v', hv', rfl, rfl, hvname'⟩ := exists_visit h hpair.mem_other hpair.field_other hname'
  have hapart : v'.Apart v := by
    -- At one position there is one entity.
    intro hposition heq
    have hentity : v'.owner.entity = v.owner.entity := by
      have hget := (Visit.belongs hv').entity
      rw [hposition, (Visit.belongs hv).entity] at hget
      exact (Option.some.inj hget).symm
    exact hpair.apart (by rw [hentity]) heq.symm
  have hnamed : v.option.name ≠ none := by
    intro hnone
    rw [hnone] at hvname
    cases hvname
  have hdecided := RelationResolution.key_decided (h.prepared hlead) h.linked hv hv' hapart
    (hvname.trans hvname'.symm) hnamed hpair.points hpair.points_back
  rw [Visit.keyFieldName?_declared hv, Visit.keyFieldName?_declared hv']
  simpa using hdecided

/-- Where the fields of every class have pairwise different names, no relation is lost: without errors every
field that is declared with a relation clause in the document of a class with a table has a relation, and a
one-to-one relation of which both sides or neither side names the key gives an error. -/
theorem related_compile
    (hnames : ∀ e ∈ (declarations project dependencies).entities, e.kind = .class →
      (e.fields.map (·.name)).Nodup) :
    ((compile project dependencies given).hasErrors = false →
      ∀ s ∈ project :: dependencies, ∀ d ∈ s.documents, ∀ p className field,
        (readDocument (s.input d)).1 = some p → Entity.DeclaresRelation p className field →
          ∃ m f, (compile project dependencies given).class? s.knownAs className = some m ∧
            m.field? field = some f ∧ f.relation.isSome = true) ∧
      ∀ e e' f f', OneToOne (declarations project dependencies).typed e e' f f' →
        f.keyFieldName?.isSome = f'.keyFieldName?.isSome →
          (compile project dependencies given).hasErrors = true := by
  constructor
  · intro hno s hs d hd p className field hp hdeclares
    have h := accepted_of_hasErrors hno
    exact exists_related_of_declares h (h.literalsLead hnames) hs hd hp hdeclares
  · intro e e' f f' hpair hboth
    by_contra hno
    rw [Bool.not_eq_true] at hno
    have h := accepted_of_hasErrors hno
    exact hpair.key_decided h (h.literalsLead hnames) hboth

/-- Persons in pairs both sides of which name a key. -/
def pairs : ModuleSource :=
  sampleModule "pairs"
    ["class: Person", "table: person", "fields:",
      "  a: Person?, relation(name=pair, field=x)",
      "  b: Person?, relation(name=pair, field=y)"]

/-- The team of an employee has its relation, and the pairs of persons give an error. -/
theorem related_compile_staff :
    (∃ m f, (compile staff [] []).class? "staff" "Employee" = some m ∧ m.field? "team" = some f ∧
      f.relation.isSome = true) ∧
    (compile pairs [] []).hasErrors = true := by
  constructor
  · obtain ⟨d, hd, hdeclares⟩ : ∃ d ∈ staff.documents,
        ((readDocument (staff.input d)).1.any fun p => Entity.DeclaresRelation p "Employee" "team") = true := by
      decide +kernel
    obtain ⟨p, hp, hdeclares⟩ := Option.any_eq_true _ _ |>.mp hdeclares
    exact (related_compile fun e he _ => nodup_staff e he).1 hasErrors_staff staff List.mem_cons_self d hd p
      "Employee" "team" hp (of_decide_eq_true hdeclares)
  · have hnames : ∀ e ∈ (declarations pairs []).entities, e.kind = .class →
        (e.fields.map (·.name)).Nodup := by
      decide +kernel
    obtain ⟨e, he, f, hf, f', hf', hne, hname, hname', hpoints, hpoints', hboth⟩ :
        ∃ e ∈ (declarations pairs []).typed.entities, ∃ f ∈ e.fields, ∃ f' ∈ e.fields, f.name ≠ f'.name ∧
          f.relationName? = some "pair" ∧ f'.relationName? = some "pair" ∧ f.type.pointsTo e = true ∧
            f'.type.pointsTo e = true ∧ f.keyFieldName?.isSome = f'.keyFieldName?.isSome := by
      decide +kernel
    exact (related_compile hnames).2 e e f f'
      ⟨he, he, hf, hf', fun _ => hne, ⟨_, hname, hname'⟩, hpoints, hpoints'⟩ hboth

end Definitions

end Compilation

end EntitySchema
