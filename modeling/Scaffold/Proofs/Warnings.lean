import Scaffold.Model.Lint
import Scaffold.Proofs.Storage.References
import Scaffold.Rest.Schema

/-! # Warnings say what is generated

A list that no field leads back from is warned of exactly when its relation has no field on the
many side, and that is exactly when a plan keeps it as a column that no field stands for. An entity
without a key is warned of exactly when its records can be listed and created, and no more. -/
namespace Scaffold

open Scaffold.Check Scaffold.Build Scaffold.Model
open Scaffold.Text (snake pascal)

/-! ## Warnings of a model -/

namespace Model

/-- Whether there is a warning that no field leads back from the list `f` of `e`. -/
def Application.WarnsOfList (a : Application) (e : Entity) (f : Field) : Prop :=
  ∃ target, Warning.listWithoutInverse e.name f.name target ∈ a.warnings

/-- The records of relations that a field is a side of. -/
def Application.recordsOf (a : Application) (e : Entity) (f : Field) : List Relation :=
  a.relations.filter fun r => (e.name, f.name) ∈ r.ends

/-- A list of a one-to-many relation that no field leads back from. -/
def Field.IsUnanswered (f : Field) : Prop :=
  ∃ r, f.relation = some r ∧ f.type.list = true ∧ r.inverse = "" ∧ r.cardinality = .oneToMany

theorem mem_field_warnings {entity name field target : String} {f : Field} :
    .listWithoutInverse name field target ∈ f.warnings entity ↔
      name = entity ∧ field = f.name ∧ target = f.type.ref ∧ f.IsUnanswered := by
  cases hr : f.relation with
  | none => simp [Field.warnings, Field.IsUnanswered, hr]
  | some r =>
    by_cases hlist : (f.type.list && r.inverse = "" && r.cardinality = .oneToMany) = true
    · simp only [Bool.and_eq_true, decide_eq_true_eq] at hlist
      obtain ⟨⟨hl, hi⟩, hc⟩ := hlist
      simp [Field.warnings, Field.IsUnanswered, hr, hl, hi, hc]
    · have hnot : ¬ f.IsUnanswered := by
        rintro ⟨q, hq, hl, hi, hc⟩
        obtain rfl : r = q := Option.some.inj (hr.symm.trans hq)
        exact hlist (by simp [hl, hi, hc])
      simp [Field.warnings, hr, hlist, hnot]

/-- What the warnings say of entities is what they say of each one. -/
theorem mem_warnings {a : Application} {w : Warning} (hw : w.block = "entity") :
    w ∈ a.warnings ↔ ∃ e ∈ a.entities, w ∈ e.warnings := by
  have hpages : w ∉ if a.config.auth.isNone then
      (a.pages.filter (!·.isPublic)).map fun p => Warning.permissionsWithoutAuth p.name
      else [] := by
    intro hmem
    split at hmem
    · obtain ⟨p, -, rfl⟩ := List.mem_map.mp hmem
      exact absurd hw (by simp [Warning.block])
    · cases hmem
  simp only [Application.warnings, List.mem_append, hpages, or_false, List.mem_flatMap]

theorem mem_entity_warnings {e : Entity} {entity field target : String} :
    .listWithoutInverse entity field target ∈ e.warnings ↔ entity = e.name ∧
      ∃ f ∈ e.fields, field = f.name ∧ target = f.type.ref ∧ f.IsUnanswered := by
  have hkey : .listWithoutInverse entity field target ∉
      if e.primaryKey = "" then [Warning.entityWithoutKey e.name] else [] := by
    split <;> simp
  simp only [Entity.warnings, List.mem_append, hkey, false_or, List.mem_flatMap, mem_field_warnings]
  constructor
  · rintro ⟨f, hf, hname, hrest⟩
    exact ⟨hname, f, hf, hrest⟩
  · rintro ⟨hname, f, hf, hrest⟩
    exact ⟨f, hf, hname, hrest⟩

theorem key_mem_entity_warnings {e : Entity} {entity : String} :
    .entityWithoutKey entity ∈ e.warnings ↔ entity = e.name ∧ e.primaryKey = "" := by
  have hfields : .entityWithoutKey entity ∉ e.fields.flatMap (Field.warnings e.name) := by
    simp only [List.mem_flatMap, not_exists, not_and]
    intro f _
    unfold Field.warnings
    cases f.relation with
    | none => split <;> simp
    | some r => split <;> split <;> simp
  simp only [Entity.warnings, List.mem_append, hfields, or_false]
  split
  next hkey => simp [hkey]
  next hkey => simp [hkey]

section Closed

variable {a : Application} {given : List String}

/-- Names tell entities and fields apart, so a warning is about one field. -/
theorem warnsOfList_iff (ha : a.Closed given) {e : Entity} (he : e ∈ a.entities) {f : Field}
    (hf : f ∈ e.fields) : a.WarnsOfList e f ↔ f.IsUnanswered := by
  constructor
  · rintro ⟨target, h⟩
    obtain ⟨d, hd, h⟩ := (mem_warnings rfl).mp h
    obtain ⟨hname, g, hg, hfield, -, hun⟩ := mem_entity_warnings.mp h
    obtain rfl : e = d := List.inj_on_of_nodup_map ha.entity_names he hd hname
    rwa [List.inj_on_of_nodup_map (ha.field_names e he) hf hg hfield]
  · intro h
    refine ⟨f.type.ref, (mem_warnings rfl).mpr ⟨e, he, ?_⟩⟩
    exact mem_entity_warnings.mpr ⟨rfl, f, hf, rfl, rfl, h⟩

theorem warnsOfKey_iff (ha : a.Closed given) {e : Entity} (he : e ∈ a.entities) :
    .entityWithoutKey e.name ∈ a.warnings ↔ e.primaryKey = "" := by
  rw [mem_warnings rfl]
  constructor
  · rintro ⟨d, hd, h⟩
    obtain ⟨hname, hkey⟩ := key_mem_entity_warnings.mp h
    rwa [List.inj_on_of_nodup_map ha.entity_names he hd hname]
  · exact fun h => ⟨e, he, key_mem_entity_warnings.mpr ⟨rfl, h⟩⟩

end Closed

/-! ## The record of a field -/

/-- What occurs once in lists put together occurs in one of them. -/
theorem filter_eq_singleton {α β : Type} [BEq β] [LawfulBEq β] {g : α → List β} {k : β}
    {xs : List α} (h : (xs.flatMap g).count k = 1) : ∃ x, xs.filter (k ∈ g ·) = [x] := by
  have hle (ys : List α) : (ys.filter (k ∈ g ·)).length ≤ (ys.flatMap g).count k := by
    induction ys with
    | nil => simp
    | cons y ys ih =>
      rw [List.flatMap_cons, List.count_append]
      by_cases hy : k ∈ g y
      · have hpos := List.count_pos_iff.mpr hy
        rw [List.filter_cons_of_pos (by simpa using hy), List.length_cons]
        omega
      · rw [List.filter_cons_of_neg (by simpa using hy)]
        omega
  have hmem : k ∈ xs.flatMap g := List.count_pos_iff.mp (by omega)
  obtain ⟨x, hx, hk⟩ := List.mem_flatMap.mp hmem
  have hpos : 0 < (xs.filter (k ∈ g ·)).length :=
    List.length_pos_of_mem (List.mem_filter.mpr ⟨hx, by simpa using hk⟩)
  exact List.length_eq_one_iff.mp (Nat.le_antisymm (h ▸ hle xs) hpos)

theorem mem_relationFields {a : Application} {k : String × String} : k ∈ a.relationFields ↔
    ∃ e ∈ a.entities, ∃ f ∈ e.fields, f.relation.isSome = true ∧ (e.name, f.name) = k := by
  simp only [Application.relationFields, List.mem_flatMap, List.mem_map, List.mem_filter, and_assoc]

/-- A relation field is a side of one record. -/
theorem recordsOf_relation {a : Application} (ha : a.RelationsPaired) {e : Entity}
    (he : e ∈ a.entities) {f : Field} (hf : f ∈ e.fields) (hr : f.relation.isSome = true) :
    ∃ r, a.recordsOf e f = [r] := by
  have hmem : (e.name, f.name) ∈ a.relationFields :=
    mem_relationFields.mpr ⟨e, he, f, hf, hr, rfl⟩
  exact filter_eq_singleton (g := Relation.ends) (ha.once _ hmem)

end Model

namespace Build

open Scaffold.Source

variable {s : Symbols} {extra : List String}

theorem inverse?_named (hn : EntitiesNamed s) {owner : EntityDecl} {f g : FieldDecl}
    (h : inverse? s owner f = some g) : g.name ≠ "" := by
  obtain ⟨t, ht, hg⟩ := Option.bind_eq_some_iff.mp h
  exact (hn t (Symbols.entity?_eq_some ht).1).2 g (List.mem_of_find?_eq_some hg)

/-- A field is an unanswered list when it is a list without another side. -/
theorem isUnanswered_build (hn : EntitiesNamed s) (e : EntityDecl) (f : FieldDecl) :
    (buildField s e f).IsUnanswered ↔
      leadsTo s f.type.name f = true ∧ f.type.list = true ∧ inverse? s e f = none := by
  by_cases hl : leadsTo s f.type.name f = true
  · simp only [Field.IsUnanswered, relation_buildField, hl, if_true, Option.some.injEq,
      exists_eq_left', list_buildField hl, true_and, relationRef]
    cases hi : inverse? s e f with
    | none =>
      cases hlist : f.type.list <;> simp [cardinality, hlist]
    | some g => simp [inverse?_named hn hi]
  · simp [Field.IsUnanswered, relation_buildField, hl]

/-- The record of an end has no field on the many side when the end is a list without another
side. -/
theorem manyField_record (hn : EntitiesNamed s) {r : RelationEnd} (hr : r ∈ relationEnds s) :
    (record s r).manyField = "" ↔
      r.field.type.list = true ∧ inverse? s r.owner r.field = none := by
  obtain ⟨ho, hf, -⟩ := mem_relationEnds.mp hr
  rcases record_cases s r with ⟨hlist, -, -, -, -, -, hmany⟩ | ⟨hlist, -, -, -, -, hmany⟩
  · simp [hmany, hlist, (hn r.owner ho).2 r.field hf]
  · cases hi : inverse? s r.owner r.field with
    | none => simp [hmany, hlist, hi]
    | some g => simp [hmany, hi, inverse?_named hn hi]

/-- The records that an end is a side of are its own, if it has no other side. -/
theorem isUnanswered_iff (hs : s.Accepted extra) (hn : EntitiesNamed s) {e : EntityDecl}
    (he : e ∈ s.entities) {f : FieldDecl} (hf : f ∈ e.fields) (name : String) :
    (buildField s e f).IsUnanswered ↔
      ∃ r, (build s name).recordsOf (buildEntity s e) (buildField s e f) = [r] ∧
        r.manyField = "" := by
  have hfield : (e.name, f.name).2 ≠ "" := (hn e he).2 f hf
  rw [isUnanswered_build hn]
  constructor
  · rintro ⟨hl, hlist, hnone⟩
    have hend : (⟨e, f⟩ : RelationEnd) ∈ relationEnds s := mem_relationEnds.mpr ⟨he, hf, hl⟩
    obtain ⟨r, hr⟩ := recordsOf_relation (relationsPaired_build hs hn name)
      (List.mem_map_of_mem he) (List.mem_map_of_mem hf)
      (by rw [relation_buildField, if_pos hl]; rfl)
    refine ⟨r, hr, ?_⟩
    obtain ⟨hmem, hside⟩ := List.mem_filter.mp (hr ▸ List.mem_singleton_self r)
    obtain ⟨q, hq, rfl⟩ := mem_recordsFrom hmem
    -- the record is not made from another side, since there is none
    have hown : (e.name, f.name) = q.key := by
      refine ((mem_ends_record hfield).mp (of_decide_eq_true hside)).resolve_right fun hp => ?_
      have hback := partner?_comm hs hend hq hp
      simp [partner?, hnone] at hback
    obtain rfl : (⟨e, f⟩ : RelationEnd) = q := eq_of_key hs hend hq hown
    exact (manyField_record hn hend).mpr ⟨hlist, hnone⟩
  · rintro ⟨r, hr, hmany⟩
    obtain ⟨hmem, hside⟩ := List.mem_filter.mp (hr ▸ List.mem_singleton_self r)
    obtain ⟨q, hq, rfl⟩ := mem_recordsFrom hmem
    obtain ⟨hlist, hnone⟩ := (manyField_record hn hq).mp hmany
    have hown : (e.name, f.name) = q.key := by
      refine ((mem_ends_record hfield).mp (of_decide_eq_true hside)).resolve_right fun hp => ?_
      simp [partner?, hnone] at hp
    obtain ⟨ho, hqf, hl⟩ := mem_relationEnds.mp hq
    obtain rfl : e = q.owner :=
      List.inj_on_of_nodup_map hs.distinct.entities he ho (congrArg Prod.fst hown)
    obtain rfl : f = q.field :=
      List.inj_on_of_nodup_map (hs.entity he).names hf hqf (congrArg Prod.snd hown)
    exact ⟨hl, hlist, hnone⟩

theorem compile_unanswered {path : String} {source : List Text.Rune} {opts : CompileOptions}
    {app : Application} (h : compile path source opts = .ok app) :
    ∀ e ∈ app.entities, ∀ f ∈ e.fields,
      (f.IsUnanswered ↔ ∃ r, app.recordsOf e f = [r] ∧ r.manyField = "") := by
  obtain ⟨file, -, hnamed, haccepted, rfl⟩ := compile_ok h
  refine List.forall_mem_map.mpr fun e he => List.forall_mem_map.mpr fun f hf => ?_
  exact isUnanswered_iff haccepted (entitiesNamed_of_named hnamed) he hf opts.name

end Build

/-! ## Hidden columns -/

namespace Storage

variable {a : Application} {given : List String}

/-- The name of the hidden column of a list. -/
def hiddenName (e : Entity) (f : Field) : String := snake e.name ++ "_" ++ snake f.name ++ "_id"

/-- A plan keeps the relation `r` of the list `f` as a column of the target's table, and no field
but the list itself is a side of the relation. -/
structure KeptHidden (a : Application) (tables : List Table) (e : Entity) (f : Field)
    (r : Relation) : Prop where
  alone : ∀ k ∈ a.relationFields, k ∈ r.ends → k = (e.name, f.name)
  stored : ∃ t ∈ tables, t.entity = f.type.ref ∧ ∃ c k, IsReference a r (c, k) ∧
    c ∈ t.columns ∧ k ∈ t.foreignKeys ∧ c.name = hiddenName e f ∧ k.column = c.name ∧
    k.refTable = tableName e.name ∧ c.notNull = false

/-- The reference of a relation without a field on the many side. -/
theorem reference_hidden {r : Relation} (h : r.manyField = "") (key : Field) :
    (reference a r key).1.name = snake r.one ++ "_" ++ snake r.oneField ++ "_id" ∧
      (reference a r key).2.refTable = tableName r.one ∧
      (reference a r key).1.notNull = false := by
  simp [reference, h]

theorem reference_shown {r : Relation} (h : r.manyField ≠ "") (key : Field) :
    (reference a r key).1.name = snake r.manyField ++ "_id" := by
  simp [reference, h]

/-- The hidden column of a field is not named like the column of that field. -/
theorem hiddenName_ne (e : Entity) (f : Field) : hiddenName e f ≠ snake f.name ++ "_id" := by
  intro h
  have hlength := congrArg String.length h
  simp only [hiddenName, String.length_append] at hlength
  have hbar : "_".length = 1 := rfl
  omega

/-- The field on the one side of a relation has the type of the entity on the many side. -/
theorem target_lister (ha : Plannable a given) {e : Entity} (he : e ∈ a.entities) {f : Field}
    (hf : f ∈ e.fields) {r : Relation} (hr : r.Closed a)
    (hside : (e.name, f.name) = (r.one, r.oneField)) (hlister : r.oneField ≠ "") :
    f.type.ref = r.many := by
  obtain ⟨g, q, hg, htarget⟩ := hr.lister hlister
  simp only [Application.relation?, Option.bind_eq_bind, Option.bind_eq_some_iff] at hg
  obtain ⟨d, hd, g', hg', q', hq', heq⟩ := hg
  obtain ⟨rfl, rfl⟩ : g' = g ∧ q' = q := by simpa using heq
  obtain ⟨hdmem, hdname⟩ := entity?_eq_some hd
  obtain ⟨hgmem, hgname⟩ := field?_eq_some hg'
  obtain rfl : e = d := List.inj_on_of_nodup_map ha.closed.entity_names he hdmem
    ((congrArg Prod.fst hside).trans hdname.symm)
  obtain rfl : f = g' := List.inj_on_of_nodup_map (ha.closed.field_names e he) hf hgmem
    ((congrArg Prod.snd hside).trans hgname.symm)
  exact ((ha.closed.fields e he f hf).target q' hq').1.symm.trans htarget

/-- A plan hides the column of a relation that has no field on the many side, and no other. -/
theorem keptHidden_iff (ha : Plannable a given) {tables : List Table} (hplan : plan a = .ok tables)
    {e : Entity} (he : e ∈ a.entities) {f : Field} (hf : f ∈ e.fields) {r : Relation}
    (hr : r ∈ a.relations) (hside : (e.name, f.name) ∈ r.ends) :
    KeptHidden a tables e f r ↔ r.manyField = "" := by
  constructor
  · rintro ⟨halone, t, -, -, c, k, ⟨key, -, hq⟩, -, -, hname, -⟩
    by_contra hmany
    obtain ⟨g, q, hg, -⟩ := (ha.relations r hr).keeper hmany
    simp only [Application.relation?, Option.bind_eq_bind, Option.bind_eq_some_iff] at hg
    obtain ⟨d, hd, g', hg', q', hq', -⟩ := hg
    obtain ⟨hdmem, hdname⟩ := entity?_eq_some hd
    obtain ⟨hgmem, hgname⟩ := field?_eq_some hg'
    have hkey : (r.many, r.manyField) ∈ a.relationFields :=
      mem_relationFields.mpr ⟨d, hdmem, g', hgmem, by rw [hq']; rfl, by rw [hdname, hgname]⟩
    have hsame := halone _ hkey (by simp [Relation.ends])
    have hfield : r.manyField = f.name := congrArg Prod.snd hsame
    have hcolumn : c.name = snake f.name ++ "_id" := by
      rw [← hfield, ← reference_shown hmany key, ← hq]
    exact hiddenName_ne e f (hname.symm.trans hcolumn)
  · intro hmany
    have hclosed := ha.relations r hr
    obtain ⟨hkind, hlister⟩ := hclosed.hidden hmany
    have hends : (e.name, f.name) = (r.one, r.oneField) := by
      simpa [Relation.ends, hmany, ha.named e he f hf] using hside
    obtain ⟨hone, hfield⟩ := Prod.mk.inj hends
    refine ⟨fun k hk hends => ?_, ?_⟩
    · obtain ⟨d, hd, g, hg, -, rfl⟩ := mem_relationFields.mp hk
      simpa [Relation.ends, hmany, ha.named d hd g hg, ← hone, ← hfield] using hends
    · obtain ⟨own, joins, rfl, hown, -⟩ := plan_filled ha hplan
      obtain ⟨d, hd, hkept, -⟩ := kept_once ha hr (.inl hkind)
      obtain ⟨t, ht, hfilled⟩ := exists_of_mem_left hown hd
      obtain ⟨refs, hrefs, hcolumns, hkeys⟩ := hfilled.references
      obtain ⟨⟨c, k⟩, hq, key, hkey, heq⟩ := exists_of_mem_left hrefs hkept
      obtain ⟨hname, htable, hnull⟩ := reference_hidden hmany key
      rw [← heq, ← hone, ← hfield] at hname
      rw [← heq, ← hone] at htable
      rw [← heq] at hnull
      refine ⟨t, List.mem_append_left _ ht, ?_, c, k, ⟨key, hkey, heq⟩, ?_, ?_, hname, ?_, htable,
        hnull⟩
      · rw [hfilled.table.entity, ← (mem_referring.mp hkept).2.2]
        exact (target_lister ha he hf hclosed hends hlister).symm
      · rw [hcolumns]
        exact List.mem_append_right _ (List.mem_map_of_mem hq)
      · rw [hkeys]
        exact List.mem_map_of_mem hq
      · have hcolumn := reference_column a r key
        rwa [← heq] at hcolumn

end Storage

/-! ## Operations of the interface -/

namespace Rest

/-- Records of an entity without a key can be listed and created, and no more. -/
theorem operationsOf_eq_iff (e : Entity) :
    operationsOf e = [⟨"list" ++ pascal e.name, "GET", resourcePath e.name⟩,
      ⟨"create" ++ pascal e.name, "POST", resourcePath e.name⟩] ↔ e.primaryKey = "" := by
  unfold operationsOf
  split
  next hkey => simp [hkey]
  next hkey => simp [hkey]

/-- An entity has one resource. -/
theorem filter_resources {a : Application} {given : List String} (ha : a.Closed given) {e : Entity}
    (he : e ∈ a.entities) (o : Generator.Options) :
    (schemaOf a o).resources.filter (·.name == e.name) = [resourceOf e] := by
  have hnames : ((schemaOf a o).resources.map (·.name)).Nodup := by
    rw [schemaOf, List.map_map]
    exact ha.entity_names
  exact Check.filter_name Resource.name (x := resourceOf e) hnames
    (List.mem_map_of_mem he)

end Rest

open Scaffold.Storage Scaffold.Rest

/-- The warnings about a compiled application are true of what is generated from it. A field is
named as a list that no field leads back from exactly when the one record of its relation has no
field on the many side, and that is exactly when a plan keeps it as a hidden column of the target's
table. An entity is named as one without a key exactly when its one resource has the operations to
list and to create, and no more. -/
theorem compile_warnings {path : String} {source : List Text.Rune} {opts : CompileOptions}
    {app : Application} (h : compile path source opts = .ok app) :
    ∀ e ∈ app.entities,
      (∀ f ∈ e.fields,
        (app.WarnsOfList e f ↔ ∃ r, app.recordsOf e f = [r] ∧ r.manyField = "") ∧
        ∀ tables, plan app = .ok tables →
          (app.WarnsOfList e f ↔
            ∃ r, app.recordsOf e f = [r] ∧ KeptHidden app tables e f r)) ∧
      ∀ o, .entityWithoutKey e.name ∈ app.warnings ↔
        ((schemaOf app o).resources.filter (·.name == e.name)).map (·.operations) =
          [[⟨"list" ++ pascal e.name, "GET", resourcePath e.name⟩,
            ⟨"create" ++ pascal e.name, "POST", resourcePath e.name⟩]] := by
  have hplannable := compile_plannable h
  have hclosed := hplannable.closed
  intro e he
  have hlist : ∀ f ∈ e.fields,
      (app.WarnsOfList e f ↔ ∃ r, app.recordsOf e f = [r] ∧ r.manyField = "") := by
    intro f hf
    rw [warnsOfList_iff hclosed he hf]
    exact compile_unanswered h e he f hf
  refine ⟨fun f hf => ⟨hlist f hf, fun tables hplan => ?_⟩, fun o => ?_⟩
  · rw [hlist f hf]
    refine exists_congr fun r => and_congr_right fun hrecord => ?_
    obtain ⟨hr, hside⟩ := List.mem_filter.mp (hrecord ▸ List.mem_singleton_self r)
    exact (keptHidden_iff hplannable hplan he hf hr (of_decide_eq_true hside)).symm
  · rw [warnsOfKey_iff hclosed he, filter_resources hclosed he o, ← operationsOf_eq_iff]
    simp [resourceOf]

/-- A tree, whose two fields lead back to each other, with a list that no field leads back from,
and an entity without a key. -/
def shelf : List Text.Rune := Text.runes
  "entity Shelf \x7b id: Int primaryKey up: Shelf @relation(name: \"T\")
  down: Shelf[] @relation(name: \"T\") books: Book[] \x7d
  entity Book \x7b isbn: String primaryKey \x7d entity Note \x7b title: String \x7d"

theorem shelf_warnings : ∃ app tables, compile "" shelf ⟨[], ""⟩ = .ok app ∧
    plan app = .ok tables ∧ ∃ e ∈ app.entities, ∃ f ∈ e.fields,
      (e.name, f.name) = ("Shelf", "books") ∧ app.WarnsOfList e f ∧
      ∃ r, app.recordsOf e f = [r] ∧ KeptHidden app tables e f r := by
  obtain ⟨app, tables, hcompile, hplan, e, he, f, hf, hname, hwarning⟩ := planned?_any shelf
    (p := fun app _ => ∃ e ∈ app.entities, ∃ f ∈ e.fields, (e.name, f.name) = ("Shelf", "books") ∧
      Warning.listWithoutInverse "Shelf" "books" "Book" ∈ app.warnings)
    (by rw [shelf, Text.runes_ofList]; decide +kernel)
  obtain ⟨hentity, hfield⟩ := Prod.mk.inj hname
  have hwarns : app.WarnsOfList e f := ⟨"Book", by rw [hentity, hfield]; exact hwarning⟩
  exact ⟨app, tables, hcompile, hplan, e, he, f, hf, hname, hwarns,
    (((compile_warnings hcompile e he).1 f hf).2 tables hplan).mp hwarns⟩

end Scaffold
