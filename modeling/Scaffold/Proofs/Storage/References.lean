import Scaffold.Proofs.Build.Record
import Scaffold.Proofs.Check.GeneratedNames
import Scaffold.Proofs.Storage.Plan

/-! # Where the references of a plan lead

A run over the relations fills the table of each entity with the references that its relations ask
for, in order. The checks see to it that a reference leads to the key of a table of the plan, with
the type of that key, and that it can be null where a removal sets it to null. -/
namespace Scaffold.Storage

open Scaffold.Build Scaffold.Model
open Scaffold.Text (snake)

/-! ## What the checks guarantee -/

/-- What a plan relies on. -/
structure Plannable (a : Application) (given : List String) : Prop where
  closed : a.Closed given
  named : ∀ e ∈ a.entities, ∀ f ∈ e.fields, f.name ≠ ""
  columns : ∀ e ∈ a.entities, (e.fields.map (snake ·.name)).Nodup
  relations : ∀ r ∈ a.relations, r.Closed a
  policies : ∀ e ∈ a.entities, ∀ f ∈ e.fields, ∀ q, f.relation = some q →
    q.onDelete = .setNull → f.optional = true ∨ f.type.list = true

theorem compile_plannable {path : String} {source : List Text.Rune} {opts : CompileOptions}
    {app : Application} (h : compile path source opts = .ok app) : Plannable app opts.roles := by
  have hclosed := closed_of_compile h
  obtain ⟨f, -, hnamed, haccepted, rfl⟩ := compile_ok h
  have hn := entitiesNamed_of_named hnamed
  refine ⟨hclosed, ?_, ?_, relations_closed haccepted hn opts.name, ?_⟩
  · exact List.forall_mem_map.mpr fun e he => List.forall_mem_map.mpr fun f hf => (hn e he).2 f hf
  · refine List.forall_mem_map.mpr fun e he => ?_
    rw [buildEntity, List.map_map]
    exact haccepted.claimed.2.2 e he
  · refine List.forall_mem_map.mpr fun e he => List.forall_mem_map.mpr fun f hf q hq hnull => ?_
    obtain ⟨-, rfl⟩ : _ ∧ relationRef ⟨_⟩ e f = q := by simpa [relation_buildField] using hq
    exact setNull_accepted haccepted he hf hnull

theorem entity?_eq_some {a : Application} {name : String} {e : Entity}
    (h : a.entity? name = some e) : e ∈ a.entities ∧ e.name = name :=
  ⟨List.mem_of_find?_eq_some h, by simpa using List.find?_some h⟩

theorem field?_eq_some {e : Entity} {name : String} {f : Field} (h : e.field? name = some f) :
    f ∈ e.fields ∧ f.name = name :=
  ⟨List.mem_of_find?_eq_some h, by simpa using List.find?_some h⟩

/-- The key that a relation refers to is the field of its entity that is marked as the key. -/
theorem keyField_ok {a : Application} {given : List String} (ha : Plannable a given)
    {entity relation : String} {key : Field} (h : keyField a entity relation = .ok key) :
    ∃ e ∈ a.entities, e.name = entity ∧ key ∈ e.fields ∧ key.primaryKey = true := by
  unfold keyField at h
  split at h
  next f hf =>
    cases h
    obtain ⟨e, he, hf⟩ := Option.bind_eq_some_iff.mp hf
    obtain ⟨hmem, hname⟩ := entity?_eq_some he
    obtain ⟨hfield, hfname⟩ := field?_eq_some hf
    refine ⟨e, hmem, hname, hfield, ?_⟩
    have hkeys := ha.closed.keys e hmem
    -- Without a marked field the key would have the empty name, which no field has.
    by_cases hany : ∀ g ∈ e.fields, g.primaryKey = false
    · exact absurd (hfname.trans (hkeys.absent hany)) (ha.named e hmem key hfield)
    · push Not at hany
      obtain ⟨g, hg, hmark⟩ := hany
      have hmark : g.primaryKey = true := by simpa using hmark
      have hsame : key.name = g.name := hfname.trans (hkeys.named g hg hmark)
      rw [List.inj_on_of_nodup_map (ha.closed.field_names e hmem) hfield hg hsame]
      exact hmark
  next => cases h

/-! ## Filling the tables -/

/-- The relations that are columns of an entity's table. -/
def referring (rs : List Relation) (e : Entity) : List Relation :=
  rs.filter fun r => (r.kind = .oneToMany ∨ r.kind = .oneToOne) ∧ r.many = e.name

/-- The name of the column of a relation. -/
def referenceName (r : Relation) : String :=
  if r.manyField = "" then snake r.one ++ "_" ++ snake r.oneField ++ "_id"
  else snake r.manyField ++ "_id"

/-- The column and the foreign key of a relation. -/
def IsReference (a : Application) (r : Relation) (q : Column × ForeignKey) : Prop :=
  ∃ key, keyField a r.one r.name = .ok key ∧ q = reference a r key

/-- The table of a relation between the keys of both sides. -/
def IsJoin (a : Application) (r : Relation) (t : Table) : Prop :=
  ∃ left right, keyField a r.one r.name = .ok left ∧ keyField a r.many r.name = .ok right ∧
    t = joinTable r left right

/-- The table of an entity after the relations in `done`. -/
structure Filled (a : Application) (done : List Relation) (e : Entity) (t : Table) : Prop where
  table : EntityTable e t
  references : ∃ refs, List.Forall₂ (IsReference a) (referring done e) refs ∧
    t.columns = (plainFields e).map fieldColumn ++ refs.map (·.1) ∧
    t.foreignKeys = refs.map (·.2)

theorem addColumns_eq {t t' : Table} {cs : List Column} (h : addColumns t cs = .ok t') :
    t' = { t with columns := t.columns ++ cs } := by
  induction cs generalizing t with
  | nil =>
    cases h
    simp
  | cons c cs ih =>
    obtain ⟨u, hu, h⟩ := bind_eq_ok.mp h
    obtain ⟨rfl, -⟩ := add_ok hu
    simpa using ih h

theorem entityTable_filled (a : Application) {e : Entity} {t : Table}
    (h : entityTable e = .ok t) : Filled a [] e t := by
  refine ⟨entityTable_ok h, [], .nil, ?_, ?_⟩
  · rw [addColumns_eq h]
    simp [plainFields]
  · rw [addColumns_eq h]
    rfl

section Step

variable {a : Application} {done : List Relation} {e : Entity} {t : Table} {r : Relation}

theorem referring_concat :
    referring (done ++ [r]) e = if (r.kind = .oneToMany ∨ r.kind = .oneToOne) ∧ r.many = e.name
      then referring done e ++ [r] else referring done e := by
  rw [referring, List.filter_append]
  split
  next hr => rw [List.filter_cons_of_pos (by simpa using hr)]; rfl
  next hr => rw [List.filter_cons_of_neg (by simpa using hr), List.filter_nil, List.append_nil]; rfl

/-- A relation of another entity leaves the table as it is. -/
theorem Filled.keep (h : Filled a done e t) (hr : r.kind = .manyToMany ∨ r.many ≠ e.name) :
    Filled a (done ++ [r]) e t := by
  refine ⟨h.table, ?_⟩
  have hno : ¬ ((r.kind = .oneToMany ∨ r.kind = .oneToOne) ∧ r.many = e.name) := by
    rintro ⟨hk, hm⟩
    rcases hr with hjoin | hother
    · simp [hjoin] at hk
    · exact hother hm
  rw [referring_concat, if_neg hno]
  exact h.references

/-- A relation of the entity is one more column and one more foreign key. -/
theorem Filled.refer (h : Filled a done e t) (hk : r.kind = .oneToMany ∨ r.kind = .oneToOne)
    (hm : r.many = e.name) {key : Field} (hkey : keyField a r.one r.name = .ok key) {u : Table}
    (hu : t.add (reference a r key).1 = .ok u) :
    Filled a (done ++ [r]) e { u with foreignKeys := u.foreignKeys ++ [(reference a r key).2] } := by
  refine ⟨h.table.refer (reference_column a r key) hu, ?_⟩
  obtain ⟨refs, hrefs, hcolumns, hkeys⟩ := h.references
  obtain ⟨rfl, -⟩ := add_ok hu
  rw [referring_concat, if_pos ⟨hk, hm⟩]
  refine ⟨refs ++ [reference a r key], ?_, ?_, ?_⟩
  · exact List.rel_append hrefs (.cons ⟨key, hkey, rfl⟩ .nil)
  · simp [hcolumns]
  · simp [hkeys]

end Step

theorem addReference_filled {a : Application} {done : List Relation} {r : Relation} {key : Field}
    (hk : r.kind = .oneToMany ∨ r.kind = .oneToOne) (hkey : keyField a r.one r.name = .ok key)
    {es : List Entity} {ts ts' : List Table} (hnames : (es.map (·.name)).Nodup)
    (h : addReference r.many (reference a r key).1 (reference a r key).2 ts = .ok ts')
    (hts : List.Forall₂ (Filled a done) es ts) : List.Forall₂ (Filled a (done ++ [r])) es ts' := by
  induction hts generalizing ts' with
  | nil =>
    cases h
    exact .nil
  | @cons e t es ts ht hts ih =>
    rw [List.map_cons, List.nodup_cons] at hnames
    unfold addReference at h
    split at h
    next hentity =>
      obtain ⟨u, hu, h⟩ := bind_eq_ok.mp h
      cases h
      have hm : r.many = e.name := hentity.symm.trans ht.table.entity
      -- No other entity has this name, so the other tables stay as they are.
      have hrest : List.Forall₂ (Filled a (done ++ [r])) es ts := by
        refine forall₂_imp_of_mem hts fun d hd u _ hu => hu.keep (.inr fun he => hnames.1 ?_)
        rw [← hm, he]
        exact List.mem_map_of_mem hd
      exact .cons (ht.refer hk hm hkey hu) hrest
    next hentity =>
      obtain ⟨us, hus, h⟩ := bind_eq_ok.mp h
      cases h
      refine .cons (ht.keep (.inr fun hm => hentity ?_)) (ih hnames.2 hus)
      rw [ht.table.entity, hm]

/-- What is no relation of many to many is kept in a column, as none is of many to one. -/
theorem oneTo_of_ne {k : Cardinality} (hjoin : k ≠ .manyToMany) (hone : k ≠ .manyToOne) :
    k = .oneToMany ∨ k = .oneToOne := by
  cases k <;> simp at hjoin hone ⊢

/-- A run over the relations fills the tables with every reference. -/
theorem planRelations_filled {a : Application} {done rs : List Relation} {es : List Entity}
    {ts ts' joins : List Table} (hnames : (es.map (·.name)).Nodup)
    (hkinds : ∀ r ∈ rs, r.kind ≠ .manyToOne) (h : planRelations a ts rs = .ok (ts', joins))
    (hts : List.Forall₂ (Filled a done) es ts) :
    List.Forall₂ (Filled a (done ++ rs)) es ts' ∧
      List.Forall₂ (IsJoin a) (joined rs) joins := by
  induction rs generalizing done ts joins with
  | nil =>
    cases h
    rw [List.append_nil]
    exact ⟨hts, .nil⟩
  | cons r rs ih =>
    obtain ⟨hkind, hkinds⟩ := List.forall_mem_cons.mp hkinds
    have hcons : done ++ r :: rs = (done ++ [r]) ++ rs := by simp
    rw [hcons]
    unfold planRelations at h
    split at h
    next hjoin =>
      obtain ⟨left, hleft, h⟩ := bind_eq_ok.mp h
      obtain ⟨right, hright, h⟩ := bind_eq_ok.mp h
      obtain ⟨⟨ts₁, joins₁⟩, hrs, h⟩ := bind_eq_ok.mp h
      cases h
      obtain ⟨hes, hjoins⟩ := ih hkinds hrs (hts.imp fun _ _ ht => ht.keep (.inl hjoin))
      rw [joined, List.filter_cons_of_pos (by simpa using hjoin)]
      exact ⟨hes, .cons ⟨left, right, hleft, hright, rfl⟩ hjoins⟩
    next hjoin =>
      obtain ⟨key, hkey, h⟩ := bind_eq_ok.mp h
      obtain ⟨ts₁, hadd, h⟩ := bind_eq_ok.mp h
      have hreferring := oneTo_of_ne hjoin hkind
      rw [joined, List.filter_cons_of_neg (by simpa using hjoin)]
      exact ih hkinds h (addReference_filled hreferring hkey hnames hadd hts)

theorem plan_filled {a : Application} {given : List String} (ha : Plannable a given)
    {tables : List Table} (h : plan a = .ok tables) :
    ∃ own joins, tables = own ++ joins ∧ List.Forall₂ (Filled a a.relations) a.entities own ∧
      List.Forall₂ (IsJoin a) (joined a.relations) joins := by
  obtain ⟨ts, hts, h⟩ := bind_eq_ok.mp h
  obtain ⟨⟨own, joins⟩, hrel, h⟩ := bind_eq_ok.mp h
  cases h
  have hstart : List.Forall₂ (Filled a []) a.entities ts :=
    (mapM_ok hts).imp fun _ _ => entityTable_filled a
  obtain ⟨hown, hjoins⟩ := planRelations_filled ha.closed.entity_names
    (fun r hr => (ha.relations r hr).kind) hrel hstart
  exact ⟨own, joins, rfl, hown, hjoins⟩

/-! ## Columns -/

theorem relation_eq_none {a : Application} {f : Field} (h : f.Closed a)
    (hk : f.type.kind ≠ .relation) : f.relation = none := by
  cases hr : f.relation with
  | none => rfl
  | some q => exact absurd (h.relation.mp (by simp [hr])) hk

/-- The one key column of a table is the key of its entity. -/
theorem Filled.key {a : Application} {done : List Relation} {e : Entity} {t : Table}
    (h : Filled a done e t) (he : e.KeySound) (hfields : ∀ f ∈ e.fields, f.Closed a)
    {key : Field} (hkey : key ∈ e.fields) (hmark : key.primaryKey = true) :
    t.columns.filter (·.primaryKey) = [fieldColumn key] := by
  obtain ⟨refs, hrefs, hcolumns, -⟩ := h.references
  have hplain := he.plain key hkey hmark
  have hnone : key.relation = none := relation_eq_none (hfields key hkey) hplain.1
  have hown : (plainFields e).filter (·.primaryKey) = [key] := by
    have hmem : key ∈ (plainFields e).filter (·.primaryKey) := by
      simp [plainFields, Entity.storedFields, hkey, hmark, hnone, hplain.2.1, hplain.2.2.1]
    have hsub : ((plainFields e).filter (·.primaryKey)).length ≤ 1 := by
      have hsublist : (plainFields e).Sublist e.fields :=
        List.filter_sublist.trans List.filter_sublist
      exact Nat.le_trans (hsublist.filter _).length_le he.single
    have hone := Nat.le_antisymm hsub (List.length_pos_of_mem hmem)
    obtain ⟨g, hg⟩ := List.length_eq_one_iff.mp hone
    rw [hg, List.mem_singleton] at hmem
    rw [hg, hmem]
  have hothers : (refs.map (·.1)).filter (·.primaryKey) = [] := by
    refine List.filter_eq_nil_iff.mpr (List.forall_mem_map.mpr fun q hq => ?_)
    obtain ⟨r, -, key, -, rfl⟩ := exists_of_mem_right hrefs hq
    simp [reference]
  rw [hcolumns, List.filter_append, hothers, List.append_nil, List.filter_map]
  change List.map fieldColumn ((plainFields e).filter (·.primaryKey)) = _
  rw [hown, List.map_singleton]

/-! ## References -/

/-- The foreign key `k` of `t` leads from the column `c` to the key of the table `u`. -/
structure Refers (tables : List Table) (r : Relation) (t : Table) (k : ForeignKey) (c : Column)
    (u : Table) (target : Column) : Prop where
  column : t.columns.filter (·.name == k.column) = [c]
  planned : u ∈ tables
  entity : u.entity = r.one
  key : u.columns.filter (·.primaryKey) = [target]
  refTable : k.refTable = u.name
  refColumn : k.refColumn = target.name
  kind : c.kind = target.kind
  enum : c.enum = target.enum
  unique : r.kind = .oneToOne → c.unique = true

/-- A table of an entity: a column for each plain field, and a reference for each relation that the
entity keeps. -/
structure Holds (a : Application) (tables : List Table) (e : Entity) (t : Table) : Prop where
  name : t.name = tableName e.name
  entity : t.entity = e.name
  fields : ∀ f ∈ e.fields, f.virtual = none → f.type.list = false → f.type.kind ≠ .relation →
    t.columns.filter (·.name == snake f.name) = [fieldColumn f]
  references : List.Forall₂ (fun r k => ∃ c u target, Refers tables r t k c u target)
    (referring a.relations e) t.foreignKeys

section Plan

variable {a : Application} {given : List String} {own joins : List Table}

theorem refers_reference (ha : Plannable a given)
    (hown : List.Forall₂ (Filled a a.relations) a.entities own) {e : Entity} {t : Table}
    (ht : EntityTable e t) {r : Relation} {key : Field}
    (hkey : keyField a r.one r.name = .ok key) (hc : (reference a r key).1 ∈ t.columns) :
    ∃ c u target, Refers (own ++ joins) r t (reference a r key).2 c u target := by
  obtain ⟨d, hd, hname, hfield, hmark⟩ := keyField_ok ha hkey
  obtain ⟨u, hu, hfilled⟩ := exists_of_mem_left hown hd
  refine ⟨(reference a r key).1, u, fieldColumn key, ?_, ?_, ?_, ?_, ?_, rfl, rfl, rfl, ?_⟩
  · exact Check.filter_name Column.name ht.distinct hc
  · exact List.mem_append_left _ hu
  · rw [hfilled.table.entity, hname]
  · exact hfilled.key (ha.closed.keys d hd) (ha.closed.fields d hd) hfield hmark
  · simp only [reference, hfilled.table.name, hname]
  · intro hkind
    simp [reference, hkind]

theorem filled_holds (ha : Plannable a given)
    (hown : List.Forall₂ (Filled a a.relations) a.entities own) {e : Entity} (he : e ∈ a.entities)
    {t : Table} (ht : Filled a a.relations e t) : Holds a (own ++ joins) e t := by
  obtain ⟨refs, hrefs, hcolumns, hkeys⟩ := ht.references
  refine ⟨ht.table.name, ht.table.entity, fun f hf hvirtual hlist hkind => ?_, ?_⟩
  · have hnone := relation_eq_none (ha.closed.fields e he f hf) hkind
    refine Check.filter_name Column.name (x := fieldColumn f) ht.table.distinct ?_
    rw [hcolumns]
    refine List.mem_append_left _ (List.mem_map_of_mem ?_)
    simp [plainFields, Entity.storedFields, hf, hvirtual, hlist, hnone]
  · rw [hkeys, List.forall₂_map_right_iff]
    refine forall₂_imp_of_mem hrefs ?_
    rintro r - q hq ⟨key, hkey, rfl⟩
    refine refers_reference ha hown ht.table hkey ?_
    rw [hcolumns]
    exact List.mem_append_right _ (List.mem_map_of_mem hq)

end Plan

/-- A reference that a removal sets to null can be null. -/
theorem reference_nullable {a : Application} {given : List String} (ha : Plannable a given)
    {r : Relation} (hr : r.Closed a) (hk : r.kind = .oneToMany ∨ r.kind = .oneToOne) (key : Field)
    (hnull : (reference a r key).2.onDelete = .setNull) :
    (reference a r key).1.notNull = false := by
  by_cases hhidden : r.manyField = ""
  · simp [reference, hhidden]
  · obtain ⟨f, q, hf, -, hlist⟩ := hr.keeper hhidden
    simp only [Application.relation?, Option.bind_eq_bind, Option.bind_eq_some_iff] at hf
    obtain ⟨e, he, f', hf', q', hq, heq⟩ := hf
    obtain ⟨rfl, rfl⟩ : f' = f ∧ q' = q := by simpa using heq
    have howner : ((a.entity? r.many).bind (·.field? r.manyField)) = some f' := by
      simp [he, hf']
    have hpolicy : q'.onDelete = .setNull := by
      simpa [reference, hhidden, howner, policyOf, hq] using hnull
    have hplain : f'.type.list ≠ true := fun hl => by
      have := hlist.mp hl
      rcases hk with hk | hk <;> simp [hk] at this
    rcases ha.policies e (entity?_eq_some he).1 f' (field?_eq_some hf').1 q' hq hpolicy with ho | hl
    · simp [reference, hhidden, howner, ho]
    · exact absurd hl hplain

theorem mem_referring {rs : List Relation} {e : Entity} {r : Relation} :
    r ∈ referring rs e ↔ r ∈ rs ∧ (r.kind = .oneToMany ∨ r.kind = .oneToOne) ∧ r.many = e.name := by
  simp [referring]

theorem Filled.nullable {a : Application} {given : List String} (ha : Plannable a given)
    {e : Entity} {t : Table} (h : Filled a a.relations e t) :
    ∀ k ∈ t.foreignKeys, ∀ c ∈ t.columns, c.name = k.column →
      ¬ (c.notNull = true ∧ k.onDelete = .setNull) := by
  obtain ⟨refs, hrefs, hcolumns, hkeys⟩ := h.references
  rw [hkeys]
  refine List.forall_mem_map.mpr fun q hq c hc hname ⟨hrequired, hnull⟩ => ?_
  obtain ⟨r, hr, key, -, rfl⟩ := exists_of_mem_right hrefs hq
  obtain ⟨hrel, hkind, -⟩ := mem_referring.mp hr
  have hmem : (reference a r key).1 ∈ t.columns := by
    rw [hcolumns]
    exact List.mem_append_right _ (List.mem_map_of_mem hq)
  obtain rfl : c = (reference a r key).1 :=
    List.inj_on_of_nodup_map h.table.distinct hc hmem hname
  rw [reference_nullable ha (ha.relations r hrel) hkind key hnull] at hrequired
  cases hrequired

/-- A relation that is no join is kept by one entity. -/
theorem kept_once {a : Application} {given : List String} (ha : Plannable a given) {r : Relation}
    (hr : r ∈ a.relations) (hk : r.kind = .oneToMany ∨ r.kind = .oneToOne) :
    ∃ e ∈ a.entities, r ∈ referring a.relations e ∧
      ∀ d ∈ a.entities, r ∈ referring a.relations d → d = e := by
  obtain ⟨e, he⟩ := (ha.relations r hr).many
  obtain ⟨hmem, hname⟩ := entity?_eq_some he
  refine ⟨e, hmem, mem_referring.mpr ⟨hr, hk, hname.symm⟩, fun d hd hkept => ?_⟩
  have hsame : d.name = e.name := (mem_referring.mp hkept).2.2.symm.trans hname.symm
  exact List.inj_on_of_nodup_map ha.closed.entity_names hd hmem hsame

/-- A plan of a compiled application has the table of each entity in order, then a table for each
many-to-many relation. Every plain field has one column. Every other relation has one foreign key,
in the table of its many side; it leads to the key of the other side and has the type of that key.
No foreign key is set to null that cannot be. -/
theorem compile_plan_references {path : String} {source : List Text.Rune} {opts : CompileOptions}
    {app : Application} (hcompile : compile path source opts = .ok app) {tables : List Table}
    (hplan : plan app = .ok tables) :
    (∃ own joins, tables = own ++ joins ∧
      List.Forall₂ (Holds app tables) app.entities own ∧
      List.Forall₂ (IsJoin app) (joined app.relations) joins) ∧
    (∀ r ∈ app.relations, r.kind = .oneToMany ∨ r.kind = .oneToOne →
      ∃ e ∈ app.entities, r ∈ referring app.relations e ∧
        ∀ d ∈ app.entities, r ∈ referring app.relations d → d = e) ∧
    (∀ r ∈ app.relations, r.kind ≠ .manyToOne) ∧
    ∀ t ∈ tables, ∀ k ∈ t.foreignKeys, ∀ c ∈ t.columns, c.name = k.column →
      ¬ (c.notNull = true ∧ k.onDelete = .setNull) := by
  have ha := compile_plannable hcompile
  obtain ⟨own, joins, rfl, hown, hjoins⟩ := plan_filled ha hplan
  refine ⟨⟨own, joins, rfl, ?_, hjoins⟩, fun r hr => kept_once ha hr,
    fun r hr => (ha.relations r hr).kind, fun t ht => ?_⟩
  · exact forall₂_imp_of_mem hown fun e he t _ ht => filled_holds ha hown he ht
  · rcases List.mem_append.mp ht with ht | ht
    · obtain ⟨e, -, hfilled⟩ := exists_of_mem_right hown ht
      exact hfilled.nullable ha
    · obtain ⟨r, -, left, right, -, -, rfl⟩ := exists_of_mem_right hjoins ht
      simp [joinTable]

/-- A one-to-one relation, a list without a field that leads back, a tree, a reference that is set
to null, and a relation with a table of its own. -/
def circles : List Text.Rune := [
  "entity User \x7b id: UUID primaryKey ",
  "profile: Profile optional groups: Group[] \x7d ",
  "entity Profile \x7b id: UUID primaryKey user: User notes: Note[] \x7d ",
  "entity Note \x7b id: Int primaryKey ",
  "reviewer: User optional @relation(name: \"Reviewed\", onDelete: setNull) \x7d ",
  "entity Group \x7b id: Int primaryKey members: User[] ",
  "parent: Group optional @relation(name: \"Tree\") ",
  "children: Group[] @relation(name: \"Tree\") \x7d"].flatMap Text.runes

theorem circles_references : ∃ app tables, compile "" circles ⟨[], ""⟩ = .ok app ∧
    plan app = .ok tables ∧
    app.relations.map (·.kind) = [.oneToOne, .manyToMany, .oneToMany, .oneToMany, .oneToMany] ∧
    (∃ own joins, tables = own ++ joins ∧
      List.Forall₂ (Holds app tables) app.entities own ∧
      List.Forall₂ (IsJoin app) (joined app.relations) joins) := by
  obtain ⟨app, tables, hcompile, hplan, hkinds⟩ := planned?_any circles
    (p := fun app _ => app.relations.map (·.kind) =
      [.oneToOne, .manyToMany, .oneToMany, .oneToMany, .oneToMany])
    (by simp only [circles, List.flatMap_cons]; repeat rw [Text.runes_ofList]
        decide +kernel)
  exact ⟨app, tables, hcompile, hplan, hkinds, (compile_plan_references hcompile hplan).1⟩

end Scaffold.Storage
