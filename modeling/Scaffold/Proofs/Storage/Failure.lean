import Scaffold.Proofs.Storage.References
import Scaffold.Server.Files

/-! # When there is no plan

A plan fails at the first relation that finds no key to refer to, or whose column is there already.
The checks rule out the first for every relation that has a field on its many side. They compare
the columns of fields only, so a field can still take the name of a reference. -/
namespace Scaffold.Storage

open Scaffold.Model
open Scaffold.Text (snake)

/-! ## Columns -/

/-- The columns that the fields and relations of an entity ask for. -/
def askedColumns (rs : List Relation) (e : Entity) : List String :=
  (plainFields e).map (snake ·.name) ++ (referring rs e).map referenceName

theorem reference_name (a : Application) (r : Relation) (key : Field) :
    (reference a r key).1.name = referenceName r := rfl

theorem Filled.names {a : Application} {done : List Relation} {e : Entity} {t : Table}
    (h : Filled a done e t) : t.columnNames = askedColumns done e := by
  obtain ⟨refs, hrefs, hcolumns, -⟩ := h.references
  have hnames : refs.map (·.1.name) = (referring done e).map referenceName := by
    refine map_eq_of_forall₂ (hrefs.imp ?_)
    rintro r q ⟨key, -, rfl⟩
    exact reference_name a r key
  rw [Table.columnNames, hcolumns, askedColumns, List.map_append, List.map_map, List.map_map,
    ← hnames]
  rfl

theorem add_error {t : Table} {c : Column} {err : PlanError} :
    t.add c = .error err ↔ err = .columnTwice t.name c.name ∧ c.name ∈ t.columnNames := by
  have hmem : (t.column? c.name).isSome = true ↔ c.name ∈ t.columnNames := by
    simp [Table.column?, Table.columnNames, List.find?_isSome]
  unfold Table.add
  split
  next hc => simp [hmem.mp hc, eq_comm]
  next hc => simp [← hmem, hc]

theorem add_of_notMem {t : Table} {c : Column} (h : c.name ∉ t.columnNames) :
    t.add c = .ok { t with columns := t.columns ++ [c] } := by
  cases hadd : t.add c with
  | error err => exact absurd (add_error.mp hadd).2 h
  | ok t' => rw [(add_ok hadd).1]

theorem addColumns_of_nodup {t : Table} {cs : List Column}
    (h : (t.columnNames ++ cs.map (·.name)).Nodup) : ∃ t', addColumns t cs = .ok t' := by
  induction cs generalizing t with
  | nil => exact ⟨t, rfl⟩
  | cons c cs ih =>
    rw [List.map_cons, List.append_cons] at h
    have hc : c.name ∉ t.columnNames := by
      rw [List.append_assoc, List.nodup_append] at h
      exact fun hm => h.2.2 _ hm _ (List.mem_cons_self) rfl
    obtain ⟨t', ht'⟩ := ih (t := { t with columns := t.columns ++ [c] })
      (by simpa [Table.columnNames] using h)
    refine ⟨t', ?_⟩
    rw [addColumns, add_of_notMem hc]
    exact ht'

/-- The fields of an entity never meet. -/
theorem entityTable_of_nodup {e : Entity} (h : (e.fields.map (snake ·.name)).Nodup) :
    ∃ t, entityTable e = .ok t := by
  refine addColumns_of_nodup ?_
  have hsub : (plainFields e).Sublist e.fields := List.filter_sublist.trans List.filter_sublist
  rw [List.map_map]
  exact h.sublist (hsub.map _)

/-! ## Keys -/

section Keys

variable {a : Application} {given : List String}

theorem entity?_of_mem (ha : a.Closed given) {e : Entity} (he : e ∈ a.entities) :
    a.entity? e.name = some e := Check.find?_name ha.entity_names he

/-- A relation field leads to an entity with a key. -/
theorem target_hasKey (ha : a.Closed given) {entity field : String} {f : Field} {q : RelationRef}
    (h : a.relation? entity field = some (f, q)) :
    ∃ t, a.entity? q.target = some t ∧ t.HasKey := by
  simp only [Application.relation?, Option.bind_eq_bind, Option.bind_eq_some_iff] at h
  obtain ⟨e, he, f', hf, q', hq, heq⟩ := h
  obtain ⟨rfl, rfl⟩ : f' = f ∧ q' = q := by simpa using heq
  have hclosed := ha.fields e (entity?_eq_some he).1 f' (field?_eq_some hf).1
  have hkind := hclosed.relation.mp (by simp [hq])
  have htarget := (hclosed.target q' hq).1
  have htype := hclosed.type
  generalize f'.type = type at htype hkind htarget
  cases htype with
  | scalar known => exact absurd (hkind ▸ known) Check.relation_notMem_scalars
  | enum declared => cases hkind
  | @relation t list declared key =>
    rw [htarget]
    exact ⟨t, entity?_of_mem ha declared, key⟩

theorem keyField_isOk (ha : Plannable a given) {entity : String} {e : Entity}
    (he : a.entity? entity = some e) (relation : String) :
    (∃ key, keyField a entity relation = .ok key) ↔ e.HasKey := by
  constructor
  · rintro ⟨key, hkey⟩
    obtain ⟨d, hd, hname, hfield, hmark⟩ := keyField_ok ha hkey
    obtain ⟨hmem, hename⟩ := entity?_eq_some he
    obtain rfl : d = e := List.inj_on_of_nodup_map ha.closed.entity_names hd hmem
      (hname.trans hename.symm)
    have hkeyname := (ha.closed.keys d hd).named key hfield hmark
    exact ⟨hkeyname ▸ ha.named d hd key hfield, key, hfield, hmark, hkeyname.symm⟩
  · rintro ⟨-, f, hf, -, hname⟩
    have hfind : e.field? e.primaryKey = some f := by
      rw [← hname]
      exact Check.find?_name (ha.closed.field_names e (entity?_eq_some he).1) hf
    exact ⟨f, by simp [keyField, he, hfind]⟩

theorem keyField_error {entity relation : String} {err : PlanError}
    (h : keyField a entity relation = .error err) : err = .noKey relation entity := by
  unfold keyField at h
  split at h
  · cases h
  · cases h
    rfl

/-- Where a key is missing, the relation is a list that no field leads back from. -/
theorem keyless (ha : Plannable a given) {r : Relation} (hr : r ∈ a.relations) {err : PlanError}
    (h : keyField a r.one r.name = .error err ∨
      r.kind = .manyToMany ∧ keyField a r.many r.name = .error err) :
    ∃ e, a.entity? r.one = some e ∧ r.manyField = "" ∧ ¬ e.HasKey ∧
      err = .noKey r.name e.name := by
  have hclosed := ha.relations r hr
  have hfails {entity : String} {e : Entity} (he : a.entity? entity = some e)
      (herr : keyField a entity r.name = .error err) : ¬ e.HasKey := by
    intro hkey
    obtain ⟨key, hok⟩ := (keyField_isOk ha he r.name).mpr hkey
    rw [herr] at hok
    cases hok
  rcases h with herr | ⟨hjoin, herr⟩
  · obtain ⟨e, he⟩ := hclosed.one
    refine ⟨e, he, ?_, hfails he herr, ?_⟩
    · by_contra hfield
      obtain ⟨f, q, hf, htarget, -⟩ := hclosed.keeper hfield
      obtain ⟨t, ht, hkey⟩ := target_hasKey ha.closed hf
      rw [htarget] at ht
      exact hfails ht herr hkey
    · rw [(entity?_eq_some he).2]
      exact keyField_error herr
  · obtain ⟨f, q, hf, htarget⟩ := hclosed.lister (hclosed.joined hjoin)
    obtain ⟨t, ht, hkey⟩ := target_hasKey ha.closed hf
    rw [htarget] at ht
    exact absurd hkey (hfails ht herr)

end Keys

/-! ## The run -/

theorem addReference_error {entity : String} {c : Column} {k : ForeignKey} {ts : List Table}
    {err : PlanError} (h : addReference entity c k ts = .error err) :
    ∃ t ∈ ts, t.entity = entity ∧ t.add c = .error err := by
  induction ts with
  | nil => cases h
  | cons t ts ih =>
    unfold addReference at h
    split at h
    next hentity =>
      rcases bind_eq_error.mp h with hadd | ⟨u, -, h⟩
      · exact ⟨t, .head _, hentity, hadd⟩
      · cases h
    next =>
      rcases bind_eq_error.mp h with hrest | ⟨us, -, h⟩
      · obtain ⟨u, hu, hfound⟩ := ih hrest
        exact ⟨u, .tail _ hu, hfound⟩
      · cases h

/-- A run stops at the relation `r` after those in `done`: a key is missing, or the column of `r`
is there already. -/
def StopsAt (a : Application) (es : List Entity) (done : List Relation) (r : Relation)
    (err : PlanError) : Prop :=
  (keyField a r.one r.name = .error err ∨
      r.kind = .manyToMany ∧ keyField a r.many r.name = .error err) ∨
    ∃ e ∈ es, (r.kind = .oneToMany ∨ r.kind = .oneToOne) ∧ r.many = e.name ∧
      referenceName r ∈ askedColumns done e ∧ err = .columnTwice (tableName e.name) (referenceName r)

theorem planRelations_error {a : Application} {done rs : List Relation} {es : List Entity}
    {ts : List Table} {err : PlanError} (hnames : (es.map (·.name)).Nodup)
    (hkinds : ∀ r ∈ rs, r.kind ≠ .manyToOne) (h : planRelations a ts rs = .error err)
    (hts : List.Forall₂ (Filled a done) es ts) :
    ∃ before r after, rs = before ++ r :: after ∧ StopsAt a es (done ++ before) r err := by
  induction rs generalizing done ts with
  | nil => cases h
  | cons r rs ih =>
    obtain ⟨hkind, hkinds⟩ := List.forall_mem_cons.mp hkinds
    -- What the rest of the run stops at, once this relation is done.
    have hlater {us : List Table} (hus : List.Forall₂ (Filled a (done ++ [r])) es us)
        (h : planRelations a us rs = .error err) : ∃ before q after,
          r :: rs = before ++ q :: after ∧ StopsAt a es (done ++ before) q err := by
      obtain ⟨before, q, after, hsplit, hstop⟩ := ih hkinds h hus
      rw [List.append_assoc] at hstop
      exact ⟨r :: before, q, after, by rw [hsplit]; rfl, hstop⟩
    have hhere (hcause : StopsAt a es done r err) : ∃ before q after,
        r :: rs = before ++ q :: after ∧ StopsAt a es (done ++ before) q err :=
      ⟨[], r, rs, rfl, by rwa [List.append_nil]⟩
    unfold planRelations at h
    split at h
    next hjoin =>
      rcases bind_eq_error.mp h with hleft | ⟨left, -, h⟩
      · exact hhere (.inl (.inl hleft))
      rcases bind_eq_error.mp h with hright | ⟨right, -, h⟩
      · exact hhere (.inl (.inr ⟨hjoin, hright⟩))
      rcases bind_eq_error.mp h with hrest | ⟨us, -, h⟩
      · exact hlater (hts.imp fun _ _ ht => ht.keep (.inl hjoin)) hrest
      · cases h
    next hjoin =>
      have hreferring := oneTo_of_ne hjoin hkind
      rcases bind_eq_error.mp h with hkey | ⟨key, hkey, h⟩
      · exact hhere (.inl (.inl hkey))
      rcases bind_eq_error.mp h with hadd | ⟨us, hadd, h⟩
      · obtain ⟨t, ht, hentity, hadd⟩ := addReference_error hadd
        obtain ⟨e, he, hfilled⟩ := exists_of_mem_right hts ht
        obtain ⟨herr, hmem⟩ := (add_error (c := (reference a r key).1)).mp hadd
        rw [hfilled.table.name, reference_name] at herr
        rw [hfilled.names, reference_name] at hmem
        exact hhere (.inr ⟨e, he, hreferring, hentity.symm.trans hfilled.table.entity, hmem, herr⟩)
      · exact hlater (addReference_filled hreferring hkey hnames hadd hts) h

/-- A column that is there before its relation comes is asked for twice. -/
theorem askedColumns_twice {before after : List Relation} {r : Relation} {e : Entity}
    (hk : r.kind = .oneToMany ∨ r.kind = .oneToOne) (hm : r.many = e.name)
    (h : referenceName r ∈ askedColumns before e) :
    2 ≤ (askedColumns (before ++ r :: after) e).count (referenceName r) := by
  have hsplit : askedColumns (before ++ r :: after) e =
      askedColumns before e ++ referenceName r :: (referring after e).map referenceName := by
    rw [askedColumns, askedColumns, referring, List.filter_append,
      List.filter_cons_of_pos (by simp [hk, hm])]
    simp [referring]
  have hfirst := List.count_pos_iff.mpr h
  rw [hsplit, List.count_append, List.count_cons_self]
  omega

theorem plan_error {a : Application} {given : List String} (ha : Plannable a given)
    {err : PlanError} (h : plan a = .error err) :
    (∃ r ∈ a.relations, ∃ e, a.entity? r.one = some e ∧ r.manyField = "" ∧ ¬ e.HasKey ∧
      err = .noKey r.name e.name) ∨
    ∃ e ∈ a.entities, ∃ r ∈ referring a.relations e,
      2 ≤ (askedColumns a.relations e).count (referenceName r) ∧
        err = .columnTwice (tableName e.name) (referenceName r) := by
  obtain ⟨ts, hts⟩ := mapM_of_ok fun e he => entityTable_of_nodup (ha.columns e he)
  have hstart : List.Forall₂ (Filled a []) a.entities ts :=
    (mapM_ok hts).imp fun _ _ => entityTable_filled a
  rw [plan, hts, ok_bind] at h
  rcases bind_eq_error.mp h with hrun | ⟨us, -, h⟩
  · obtain ⟨before, r, after, hsplit, hcause⟩ := planRelations_error ha.closed.entity_names
      (fun r hr => (ha.relations r hr).kind) hrun hstart
    have hr : r ∈ a.relations := by
      rw [hsplit]
      exact List.mem_append_right _ List.mem_cons_self
    rcases hcause with hkey | ⟨e, he, hk, hm, hmem, herr⟩
    · exact .inl ⟨r, hr, keyless ha hr hkey⟩
    · rw [List.nil_append] at hmem
      refine .inr ⟨e, he, r, mem_referring.mpr ⟨hr, hk, hm⟩, ?_, herr⟩
      rw [hsplit]
      exact askedColumns_twice hk hm hmem
  · cases h

theorem plan_needs {a : Application} {given : List String} (ha : Plannable a given)
    {tables : List Table} (h : plan a = .ok tables) :
    (∀ r ∈ a.relations, ∀ e, a.entity? r.one = some e → e.HasKey) ∧
      ∀ e ∈ a.entities, (askedColumns a.relations e).Nodup := by
  obtain ⟨own, joins, rfl, hown, hjoins⟩ := plan_filled ha h
  constructor
  · intro r hr e he
    by_cases hjoin : r.kind = .manyToMany
    · have hmem : r ∈ joined a.relations := by simp [joined, hr, hjoin]
      obtain ⟨t, -, left, right, hleft, -⟩ := exists_of_mem_left hjoins hmem
      exact (keyField_isOk ha he r.name).mp ⟨left, hleft⟩
    · have hkind := (ha.relations r hr).kind
      have hreferring := oneTo_of_ne hjoin hkind
      obtain ⟨d, hd, hkept, -⟩ := kept_once ha hr hreferring
      obtain ⟨t, -, hfilled⟩ := exists_of_mem_left hown hd
      obtain ⟨refs, hrefs, -⟩ := hfilled.references
      obtain ⟨q, -, key, hkey, -⟩ := exists_of_mem_left hrefs hkept
      exact (keyField_isOk ha he r.name).mp ⟨key, hkey⟩
  · intro e he
    obtain ⟨t, -, hfilled⟩ := exists_of_mem_left hown he
    rw [← hfilled.names]
    exact hfilled.table.distinct

theorem ddl_error {a : Application} {db : Database} {err : PlanError} :
    ddl a db = .error err ↔ plan a = .error err := by
  rw [ddl, bind_eq_error]
  simp

theorem files_error {a : Application} {o : Generator.Options} {err : PlanError} :
    Server.files a o = .error (.storage err) ↔ plan a = .error err := by
  have hcode (path : String) (l : Code.Listing) :
      Server.code path l ≠ .error (.storage err) := by
    unfold Server.code
    split <;> simp
  cases hplan : plan a with
  | error e =>
    simp [Server.files, hplan, Except.mapError, bind, Except.bind]
  | ok tables =>
    refine iff_of_false (fun h => ?_) (by simp)
    -- None of the later steps fails with an error of the plan.
    simp only [Server.files, hplan, Except.mapError, ok_bind] at h
    split at h
    · rcases bind_eq_error.mp h with h | ⟨records, -, h⟩
      · exact hcode _ _ h
      rcases bind_eq_error.mp h with h | ⟨resolvers, -, h⟩
      · exact hcode _ _ h
      rcases bind_eq_error.mp h with h | ⟨workflows, -, h⟩
      · exact hcode _ _ h
      · cases h
    · cases h

/-- A compiled application has a plan exactly when every entity that a relation refers to has a key
and no column is asked for twice. When there is none, the error names a list that no field leads
back from, or a reference whose column is taken; there is no schema and no server either. -/
theorem compile_plan_fails {path : String} {source : List Text.Rune} {opts : CompileOptions}
    {app : Application} (hcompile : compile path source opts = .ok app) :
    ((∃ tables, plan app = .ok tables) ↔
      (∀ r ∈ app.relations, ∀ e, app.entity? r.one = some e → e.HasKey) ∧
        ∀ e ∈ app.entities, (askedColumns app.relations e).Nodup) ∧
    (∀ err, plan app = .error err →
      (∃ r ∈ app.relations, ∃ e, app.entity? r.one = some e ∧ r.manyField = "" ∧ ¬ e.HasKey ∧
        err = .noKey r.name e.name) ∨
      ∃ e ∈ app.entities, ∃ r ∈ referring app.relations e,
        2 ≤ (askedColumns app.relations e).count (referenceName r) ∧
          err = .columnTwice (tableName e.name) (referenceName r)) ∧
    ∀ err, (∀ db, ddl app db = .error err ↔ plan app = .error err) ∧
      ∀ o, Server.files app o = .error (.storage err) ↔ plan app = .error err := by
  have ha := compile_plannable hcompile
  refine ⟨⟨fun ⟨tables, h⟩ => plan_needs ha h, fun ⟨hkeys, hcolumns⟩ => ?_⟩,
    fun err h => plan_error ha h, fun err => ⟨fun db => ddl_error, fun o => files_error⟩⟩
  cases hplan : plan app with
  | ok tables => exact ⟨tables, rfl⟩
  | error err =>
    rcases plan_error ha hplan with ⟨r, hr, e, he, -, hkey, -⟩ | ⟨e, he, r, -, htwice, -⟩
    · exact absurd (hkeys r hr e he) hkey
    · have honce := List.nodup_iff_count_le_one.mp (hcolumns e he) (referenceName r)
      omega

/-- The application of a source that has no plan, and why. -/
def refused? (source : List Text.Rune) : Option (Application × PlanError) :=
  match compile "" source ⟨[], ""⟩ with
  | .error _ => none
  | .ok app => match plan app with
    | .error err => some (app, err)
    | .ok _ => none

theorem refused?_any (source : List Text.Rune) {p : Application → PlanError → Prop}
    [∀ app err, Decidable (p app err)]
    (h : (refused? source).any (fun q => decide (p q.1 q.2)) = true) :
    ∃ app err, compile "" source ⟨[], ""⟩ = .ok app ∧ plan app = .error err ∧ p app err := by
  unfold refused? at h
  split at h
  · cases h
  next app hcompile =>
    split at h
    next err hplan => exact ⟨app, err, hcompile, hplan, of_decide_eq_true h⟩
    next => cases h

/-- A list of books on a shelf without a key. -/
def shelves : List Text.Rune := [
  "entity Shelf \x7b label: String books: Book[] \x7d ",
  "entity Book \x7b id: Int primaryKey \x7d"].flatMap Text.runes

theorem shelves_fail : ∃ app err, compile "" shelves ⟨[], ""⟩ = .ok app ∧
    plan app = .error err ∧ err = .noKey "BookToShelf" "Shelf" ∧
    Server.files app ⟨.sqlite, "", []⟩ = .error (.storage err) := by
  obtain ⟨app, err, hcompile, hplan, herr⟩ := refused?_any shelves
    (p := fun _ err => err = .noKey "BookToShelf" "Shelf")
    (by simp only [shelves, List.flatMap_cons]; repeat rw [Text.runes_ofList]
        decide +kernel)
  exact ⟨app, err, hcompile, hplan, herr, (((compile_plan_fails hcompile).2.2 err).2 _).mpr hplan⟩

/-- A field that is spelled like the column of a reference. -/
def owners : List Text.Rune := [
  "entity User \x7b id: Int primaryKey \x7d ",
  "entity Note \x7b id: Int primaryKey ",
  "owner: User ownerId: Int \x7d"].flatMap Text.runes

/-- Every entity has a key, and yet there is no plan. -/
theorem owners_fail : ∃ app err, compile "" owners ⟨[], ""⟩ = .ok app ∧ plan app = .error err ∧
    err = .columnTwice "notes" "owner_id" ∧ ∀ e ∈ app.entities, e.primaryKey ≠ "" :=
  refused?_any owners
    (by simp only [owners, List.flatMap_cons]; repeat rw [Text.runes_ofList]
        decide +kernel)

end Scaffold.Storage
