import Mathlib.Data.List.Nodup
import Mathlib.Tactic.Common
import Scaffold.Build.Application
import Scaffold.Proofs.Lists
import Scaffold.Proofs.Outcome
import Scaffold.Storage.Plan

/-! # What a storage plan holds

A plan has the table of each entity in order, then the table of each many-to-many relation. The
columns of an entity's table are its stored fields followed by its references, and no column occurs
twice. -/
namespace Scaffold.Storage

open Scaffold.Model
open Scaffold.Text (snake)

/-! ## Columns -/

def Table.columnNames (t : Table) : List String := t.columns.map (·.name)

theorem add_ok {t t' : Table} {c : Column} (h : t.add c = .ok t') :
    t' = { t with columns := t.columns ++ [c] } ∧ c.name ∉ t.columnNames := by
  unfold Table.add at h
  split at h
  · cases h
  next hc =>
    cases h
    refine ⟨rfl, fun hm => hc ?_⟩
    obtain ⟨d, hd, he⟩ := List.mem_map.mp hm
    simp only [Table.column?, List.find?_isSome]
    exact ⟨d, hd, by simpa using he⟩

theorem add_distinct {t t' : Table} {c : Column} (h : t.add c = .ok t')
    (ht : t.columnNames.Nodup) :
    t'.columnNames = t.columnNames ++ [c.name] ∧ t'.columnNames.Nodup := by
  obtain ⟨rfl, hc⟩ := add_ok h
  have hnames : Table.columnNames { t with columns := t.columns ++ [c] } =
      t.columnNames ++ [c.name] := by simp [Table.columnNames]
  rw [hnames]
  refine ⟨rfl, ?_⟩
  rw [← List.concat_eq_append]
  exact ht.concat hc

theorem addColumns_ok {t t' : Table} {cs : List Column} (h : addColumns t cs = .ok t')
    (ht : t.columnNames.Nodup) :
    t'.name = t.name ∧ t'.entity = t.entity ∧ t'.foreignKeys = t.foreignKeys ∧
      t'.columnNames = t.columnNames ++ cs.map (·.name) ∧ t'.columnNames.Nodup := by
  induction cs generalizing t with
  | nil =>
    cases h
    simpa using ht
  | cons c cs ih =>
    obtain ⟨u, hu, h⟩ := bind_eq_ok.mp h
    obtain ⟨hnames, hnodup⟩ := add_distinct hu ht
    obtain ⟨hname, hentity, hkeys, hcolumns, hdistinct⟩ := ih h hnodup
    obtain ⟨rfl, -⟩ := add_ok hu
    refine ⟨hname, hentity, hkeys, ?_, hdistinct⟩
    rw [hcolumns, hnames, List.append_assoc, List.map_cons, List.singleton_append]

/-! ## Entities -/

/-- The fields of an entity that are columns by themselves. -/
def plainFields (e : Entity) : List Field := e.storedFields.filter (·.relation.isNone)

/-- The table that a plan keeps for an entity. -/
structure EntityTable (e : Entity) (t : Table) : Prop where
  name : t.name = tableName e.name
  entity : t.entity = e.name
  columns : t.columnNames =
    (plainFields e).map (snake ·.name) ++ t.foreignKeys.map (·.column)
  distinct : t.columnNames.Nodup

theorem entityTable_ok {e : Entity} {t : Table} (h : entityTable e = .ok t) : EntityTable e t := by
  obtain ⟨hname, hentity, hkeys, hcolumns, hdistinct⟩ :=
    addColumns_ok h (by simp [Table.columnNames])
  dsimp only at hname hentity hkeys
  refine ⟨hname, hentity, ?_, hdistinct⟩
  rw [hcolumns, hkeys]
  simp [Table.columnNames, plainFields, fieldColumn, Function.comp_def]

/-! ## References -/

/-- A reference is one more column and one more foreign key. -/
theorem EntityTable.refer {e : Entity} {t u : Table} (ht : EntityTable e t) {c : Column}
    {k : ForeignKey} (hk : k.column = c.name) (hu : t.add c = .ok u) :
    EntityTable e { u with foreignKeys := u.foreignKeys ++ [k] } := by
  obtain ⟨hnames, hnodup⟩ := add_distinct hu ht.distinct
  obtain ⟨rfl, -⟩ := add_ok hu
  constructor
  · exact ht.name
  · exact ht.entity
  · rw [List.map_append, ← List.append_assoc, ← ht.columns, List.map_singleton, hk]
    exact hnames
  · exact hnodup

theorem addReference_ok {entity : String} {c : Column} {k : ForeignKey} {es : List Entity}
    {ts ts' : List Table} (hk : k.column = c.name)
    (h : addReference entity c k ts = .ok ts') (hts : List.Forall₂ EntityTable es ts) :
    List.Forall₂ EntityTable es ts' := by
  induction hts generalizing ts' with
  | nil =>
    cases h
    exact .nil
  | @cons e t es ts ht hts ih =>
    unfold addReference at h
    split at h
    · obtain ⟨u, hu, h⟩ := bind_eq_ok.mp h
      cases h
      exact .cons (ht.refer hk hu) hts
    · obtain ⟨us, hus, h⟩ := bind_eq_ok.mp h
      cases h
      exact .cons ht (ih hus)

/-- The relations that have a table of their own. -/
def joined (rs : List Relation) : List Relation := rs.filter (·.kind = .manyToMany)

theorem reference_column (a : Application) (r : Relation) (key : Field) :
    (reference a r key).2.column = (reference a r key).1.name := rfl

/-- A run over the relations keeps the tables of the entities, and adds a table for each relation
that has one. -/
theorem planRelations_ok {a : Application} {es : List Entity} {ts ts' joins : List Table}
    {rs : List Relation} (h : planRelations a ts rs = .ok (ts', joins))
    (hts : List.Forall₂ EntityTable es ts) :
    List.Forall₂ EntityTable es ts' ∧
      List.Forall₂ (fun r t => ∃ left right, t = joinTable r left right) (joined rs) joins := by
  induction rs generalizing ts joins with
  | nil =>
    cases h
    exact ⟨hts, .nil⟩
  | cons r rs ih =>
    unfold planRelations at h
    split at h
    next hkind =>
      obtain ⟨left, -, h⟩ := bind_eq_ok.mp h
      obtain ⟨right, -, h⟩ := bind_eq_ok.mp h
      obtain ⟨⟨ts₁, joins₁⟩, hrs, h⟩ := bind_eq_ok.mp h
      cases h
      obtain ⟨hes, hjoins⟩ := ih hrs hts
      rw [joined, List.filter_cons_of_pos (by simpa using hkind)]
      exact ⟨hes, .cons ⟨left, right, rfl⟩ hjoins⟩
    next hkind =>
      obtain ⟨key, -, h⟩ := bind_eq_ok.mp h
      obtain ⟨ts₁, hadd, h⟩ := bind_eq_ok.mp h
      rw [joined, List.filter_cons_of_neg (by simpa using hkind)]
      exact ih h (addReference_ok (reference_column a r key) hadd hts)

/-- A plan is the tables of the entities, in order, and the tables of relations. -/
theorem plan_ok {a : Application} {tables : List Table} (h : plan a = .ok tables) :
    ∃ own joins, tables = own ++ joins ∧ List.Forall₂ EntityTable a.entities own ∧
      List.Forall₂ (fun r t => ∃ left right, t = joinTable r left right)
        (joined a.relations) joins := by
  obtain ⟨ts, hts, h⟩ := bind_eq_ok.mp h
  obtain ⟨⟨own, joins⟩, hrel, h⟩ := bind_eq_ok.mp h
  cases h
  have hstart : List.Forall₂ EntityTable a.entities ts :=
    (mapM_ok hts).imp fun _ _ => entityTable_ok
  obtain ⟨hown, hjoins⟩ := planRelations_ok hrel hstart
  exact ⟨own, joins, rfl, hown, hjoins⟩

/-! ## Sources -/

/-- The application of a source and its tables, when there are any. -/
def planned? (source : List Text.Rune) : Option (Application × List Table) :=
  match compile "" source ⟨[], ""⟩ with
  | .error _ => none
  | .ok app => (plan app).toOption.map (app, ·)

theorem planned?_any (source : List Text.Rune) {p : Application → List Table → Prop}
    [∀ app tables, Decidable (p app tables)]
    (h : (planned? source).any (fun q => decide (p q.1 q.2)) = true) :
    ∃ app tables, compile "" source ⟨[], ""⟩ = .ok app ∧ plan app = .ok tables ∧
      p app tables := by
  unfold planned? at h
  split at h
  · cases h
  next app hc =>
    cases hp : plan app with
    | error e =>
      rw [hp] at h
      cases h
    | ok tables =>
      rw [hp] at h
      exact ⟨app, tables, hc, hp, of_decide_eq_true h⟩

/-- Texts can be told apart by their characters, which are cheaper to compare. -/
theorem nodup_chars (texts : List String) : (texts.map String.toList).Nodup ↔ texts.Nodup :=
  List.nodup_map_iff fun _ _ => String.toList_inj.mp

end Scaffold.Storage
