import Scaffold.Proofs.Build.Closed
import Scaffold.Proofs.Check.GeneratedNames
import Scaffold.Proofs.Storage.Plan
import Scaffold.Proofs.Text.Search
import Scaffold.Proofs.Text.Words
import Scaffold.Server.Records

/-! # Records and their members

Each entity has one record, made from its own table; the tables of relations have none. A record has a member for each column and each computed field of its entity, or for each field of
its view. The checks tell the fields of an entity apart by the names of their columns, and nothing
else: a computed field can be spelled like a reference, two columns like one member, and the fields
of a view like each other. -/
namespace Scaffold.Server

open Scaffold.Source Scaffold.Check Scaffold.Model Scaffold.Build Scaffold.Storage
open Scaffold.Text (snake pascal endsWith isLettered capitals uncapital)

/-! ## Entities by name -/

theorem build_entity? {s : Symbols} (hs : s.Distinct) (name : String) :
    ∀ e ∈ (build s name).entities, (build s name).entity? e.name = some e :=
  List.forall_mem_map.mpr fun _ he => find?_buildEntity hs he

/-- The empty text is the mark of a table without an entity. -/
theorem build_entity?_empty {s : Symbols} (hn : EntitiesNamed s) (name : String) :
    (build s name).entity? "" = none := by
  refine List.find?_eq_none.mpr (List.forall_mem_map.mpr fun e he => ?_)
  have hne : (buildEntity s e).name ≠ "" := (hn e he).1
  simpa using hne

/-! ## Records -/

/-- The records of the entities, each with the columns of its table. -/
theorem entityRecords_own {a : Application} {es : List Entity} {own : List Table}
    (hown : List.Forall₂ EntityTable es own) (hes : ∀ e ∈ es, a.entity? e.name = some e) :
    entityRecords a own = List.zipWith (fun e t => entityRecord e t.columns) es own := by
  induction hown with
  | nil => rfl
  | @cons e t es own ht hown ih =>
    obtain ⟨he, hes⟩ := List.forall_mem_cons.mp hes
    have hrest := ih hes
    simp only [entityRecords] at hrest ⊢
    rw [List.filterMap_cons_some (by rw [ht.entity, he]; rfl), hrest, List.zipWith_cons_cons]

theorem entityRecords_joins {a : Application} {rs : List Relation} {joins : List Table}
    (hjoins : List.Forall₂ (fun r t => ∃ left right, t = joinTable r left right) rs joins)
    (hnone : a.entity? "" = none) : entityRecords a joins = [] := by
  induction hjoins with
  | nil => rfl
  | @cons r t rs joins ht hjoins ih =>
    obtain ⟨left, right, rfl⟩ := ht
    simp only [entityRecords] at ih ⊢
    rw [List.filterMap_cons_none (by simp [joinTable, hnone]), ih]

/-- The records of a plan. -/
theorem records_plan {a : Application} (hnames : ∀ e ∈ a.entities, a.entity? e.name = some e)
    (hnone : a.entity? "" = none) {tables : List Table} (h : plan a = .ok tables) :
    ∃ own, List.Forall₂ EntityTable a.entities own ∧
      records a tables = List.zipWith (fun e t => entityRecord e t.columns) a.entities own ++
        a.views.map (viewRecord a) := by
  obtain ⟨own, joins, rfl, hown, hjoins⟩ := plan_ok h
  refine ⟨own, hown, ?_⟩
  have happend : entityRecords a (own ++ joins) = entityRecords a own ++ entityRecords a joins :=
    List.filterMap_append
  rw [records, happend, entityRecords_own hown hnames, entityRecords_joins hjoins hnone,
    List.append_nil]

theorem map_name_zipWith {es : List Entity} {own : List Table}
    (hown : List.Forall₂ EntityTable es own) :
    (List.zipWith (fun e t => entityRecord e t.columns) es own).map (·.name) =
      es.map (typeName ·.name) := by
  induction hown with
  | nil => rfl
  | cons ht hown ih => rw [List.zipWith_cons_cons, List.map_cons, List.map_cons, ih]; rfl

/-! ## Spelling -/

/-- Different names of the list have different members. -/
def ToldApart (names : List String) : Prop :=
  ∀ x ∈ names, ∀ y ∈ names, memberName x = memberName y → x = y

theorem nodup_memberName_iff (names : List String) :
    (names.map memberName).Nodup ↔ names.Nodup ∧ ToldApart names := by
  constructor
  · intro h
    have hnames : names.Nodup := h.of_map memberName
    exact ⟨hnames, fun x hx y hy he => List.inj_on_of_nodup_map h hx hy he⟩
  · rintro ⟨hnames, htold⟩
    exact hnames.map_on htold

/-- Each word starts with a letter, and the last two are not `i` and `d`: these would be spelled
like the word `id`. -/
def Regular (name : String) : Prop :=
  isLettered ('_' :: name.toList) = true ∧ ¬ "_i_d".toList <:+ '_' :: name.toList

instance (name : String) : Decidable (Regular name) := inferInstanceAs (Decidable (_ ∧ _))

/-- The member for a column: its spelling, unless that ends with `Id`. -/
theorem memberName_cases (x : String) :
    (∃ start, (pascal x).toList = start ++ ['I', 'd'] ∧
      (memberName x).toList = start ++ ['I', 'D']) ∨ memberName x = pascal x := by
  cases hend : endsWith (pascal x) "Id" with
  | false => exact .inr (by simp [memberName, hend])
  | true =>
    obtain ⟨start, hstart⟩ := Text.endsWith_iff.mp hend
    refine .inl ⟨start, hstart, ?_⟩
    simp [memberName, hend, hstart, ← String.length_toList]

/-- A name whose spelling ends with the words `i` and `d` is not regular. -/
theorem not_regular {x : String} {start : List Char}
    (h : (pascal x).toList = start ++ ['I', 'D']) : ¬ Regular x := by
  rintro ⟨hx, hend⟩
  rw [Text.toList_pascal hx] at h
  refine hend ⟨start.flatMap uncapital, ?_⟩
  rw [← Text.flatMap_uncapital hx, h, List.flatMap_append]
  rfl

theorem pascal_inj {x y : String} (hx : Regular x) (hy : Regular y)
    (h : (pascal x).toList = (pascal y).toList) : x = y := by
  rw [Text.toList_pascal hx.1, Text.toList_pascal hy.1] at h
  have hchars := congrArg (List.flatMap uncapital) h
  rw [Text.flatMap_uncapital hx.1, Text.flatMap_uncapital hy.1] at hchars
  exact String.toList_inj.mp (List.cons_inj_right _ |>.mp hchars)

/-- Regular names are told apart. -/
theorem toldApart_of_regular {names : List String} (h : ∀ x ∈ names, Regular x) :
    ToldApart names := by
  intro x hx y hy he
  replace hx := h x hx
  replace hy := h y hy
  have hchars := congrArg String.toList he
  -- A capital `D` at the end of a spelling starts a word, so the mixed cases need the words `i`, `d`.
  rcases memberName_cases x with ⟨p, hp, hmx⟩ | hmx
  · rcases memberName_cases y with ⟨q, hq, hmy⟩ | hmy
    · rw [hmx, hmy] at hchars
      have hstart : p = q := List.append_cancel_right hchars
      exact pascal_inj hx hy (by rw [hp, hq, hstart])
    · rw [hmx, hmy] at hchars
      exact absurd hy (not_regular hchars.symm)
  · rcases memberName_cases y with ⟨q, hq, hmy⟩ | hmy
    · rw [hmx, hmy] at hchars
      exact absurd hx (not_regular hchars)
    · rw [hmx, hmy] at hchars
      exact pascal_inj hx hy hchars

/-! ## Names behind the members -/

/-- The computed fields of an entity, spelled like columns. -/
def computedNames (e : Entity) : List String :=
  (e.fields.filter (·.virtual.isSome)).map (snake ·.name)

/-- The names behind the members of an entity's record. -/
def heldNames (e : Entity) (t : Table) : List String := t.columnNames ++ computedNames e

/-- The names behind the members of a view's record. -/
def shownNames (v : View) : List String := v.fields.map (snake ·.name)

theorem entityRecord_members (e : Entity) (t : Table) :
    (entityRecord e t.columns).members.map (·.name) = (heldNames e t).map memberName := by
  simp [entityRecord, heldNames, Table.columnNames, computedNames, columnMember, virtualMember,
    fieldMember, Function.comp_def]

theorem viewRecord_members (a : Application) (v : View) :
    (viewRecord a v).members.map (·.name) = (shownNames v).map memberName := by
  simp [viewRecord, shownNames, viewMember, fieldMember, Function.comp_def]

/-- The fields of an entity have columns of their own, so only a reference can be spelled like a
computed field. -/
theorem heldNames_nodup_iff {e : Entity} {t : Table} (ht : EntityTable e t)
    (hfields : (e.fields.map (snake ·.name)).Nodup) :
    (heldNames e t).Nodup ↔ (computedNames e).Disjoint (t.foreignKeys.map (·.column)) := by
  have hcomputed : (computedNames e).Nodup := hfields.sublist (List.filter_sublist.map _)
  have hplain : ((plainFields e).map (snake ·.name)).Disjoint (computedNames e) := by
    intro name hstored hvirtual
    obtain ⟨f, hf, rfl⟩ := List.mem_map.mp hstored
    obtain ⟨g, hg, he⟩ := List.mem_map.mp hvirtual
    simp only [plainFields, Entity.storedFields, List.mem_filter, Bool.and_eq_true] at hf hg
    have heq : g = f := List.inj_on_of_nodup_map hfields hg.1 hf.1.1 he
    simp [← heq, Option.isSome_iff_ne_none.mp hg.2] at hf
  rw [heldNames, List.nodup_append', and_iff_right ht.distinct, and_iff_right hcomputed,
    ht.columns, List.disjoint_append_left, and_iff_right hplain, List.disjoint_comm]

/-! ## Records -/

/-- The names behind the members of each record. -/
def nameLists (a : Application) (tables : List Table) : List (List String) :=
  (tables.filterMap fun t => (a.entity? t.entity).map (heldNames · t)) ++ a.views.map shownNames

theorem map_members (a : Application) (tables : List Table) :
    (records a tables).map (fun r => r.members.map (·.name)) =
      (nameLists a tables).map (List.map memberName) := by
  simp [records, entityRecords, nameLists, List.map_filterMap, Function.comp_def,
    entityRecord_members, viewRecord_members]

theorem members_nodup_iff (a : Application) (tables : List Table) :
    (∀ r ∈ records a tables, (r.members.map (·.name)).Nodup) ↔
      (∀ names ∈ nameLists a tables, names.Nodup) ∧
        ∀ names ∈ nameLists a tables, ToldApart names := by
  have hlists : (∀ r ∈ records a tables, (r.members.map (·.name)).Nodup) ↔
      ∀ names ∈ nameLists a tables, (names.map memberName).Nodup := by
    rw [← List.forall_mem_map (P := List.Nodup), map_members, List.forall_mem_map]
  simp only [hlists, nodup_memberName_iff, forall₂_and]

theorem forall_mem_nameLists {a : Application} {tables : List Table} {p : List String → Prop} :
    (∀ names ∈ nameLists a tables, p names) ↔
      (∀ t ∈ tables, ∀ e ∈ a.entity? t.entity, p (heldNames e t)) ∧
        ∀ v ∈ a.views, p (shownNames v) := by
  rw [nameLists, List.forall_mem_append, List.forall_mem_map]
  simp only [List.mem_filterMap, Option.map_eq_some_iff, Option.mem_def]
  constructor
  · rintro ⟨hentities, hviews⟩
    exact ⟨fun t ht e he => hentities _ ⟨t, ht, e, he, rfl⟩, hviews⟩
  · rintro ⟨hentities, hviews⟩
    refine ⟨?_, hviews⟩
    rintro names ⟨t, ht, e, he, rfl⟩
    exact hentities t ht e he

/-- No computed field is spelled like a reference of its entity, and no two fields of a view are
spelled alike. -/
def SpelledApart (a : Application) (tables : List Table) : Prop :=
  (∀ t ∈ tables, ∀ e ∈ a.entity? t.entity,
    (computedNames e).Disjoint (t.foreignKeys.map (·.column))) ∧
  ∀ v ∈ a.views, (shownNames v).Nodup

/-- A table of a plan that is some entity's is the one kept for it. -/
theorem plan_entityTable {a : Application} (hnames : ∀ e ∈ a.entities, a.entity? e.name = some e)
    (hnone : a.entity? "" = none) {tables : List Table} (h : plan a = .ok tables) {t : Table}
    (ht : t ∈ tables) {e : Entity} (he : e ∈ a.entity? t.entity) : EntityTable e t := by
  obtain ⟨own, joins, rfl, hown, hjoins⟩ := plan_ok h
  rcases List.mem_append.mp ht with ht | ht
  · obtain ⟨d, hd, htable⟩ := exists_of_mem_right hown ht
    rw [htable.entity, hnames d hd] at he
    cases he
    exact htable
  · obtain ⟨r, -, left, right, rfl⟩ := exists_of_mem_right hjoins ht
    simp [joinTable, hnone] at he

end Scaffold.Server

namespace Scaffold

open Scaffold.Source Scaffold.Model Scaffold.Build Scaffold.Storage Scaffold.Server

/-- The checks tell the fields of an entity apart, and the plan its columns. -/
theorem nameLists_nodup_iff {path : String} {source : List Text.Rune} {opts : CompileOptions}
    {app : Application} (h : compile path source opts = .ok app) {tables : List Table}
    (hplan : plan app = .ok tables) :
    (∀ names ∈ nameLists app tables, names.Nodup) ↔ SpelledApart app tables := by
  obtain ⟨f, -, hnamed, haccepted, rfl⟩ := compile_ok h
  have hfields : ∀ e ∈ (build ⟨f.decls⟩ opts.name).entities,
      (e.fields.map (Text.snake ·.name)).Nodup := by
    refine List.forall_mem_map.mpr fun d hd => ?_
    have hclaimed := haccepted.claimed.2.2 d hd
    rwa [buildEntity, List.map_map]
  rw [forall_mem_nameLists, SpelledApart]
  refine and_congr_left' (forall₂_congr fun t ht => forall₂_congr fun e he => ?_)
  have htable := plan_entityTable (build_entity? haccepted.distinct opts.name)
    (build_entity?_empty (entitiesNamed_of_named hnamed) opts.name) hplan ht he
  exact heldNames_nodup_iff htable (hfields e (List.mem_of_find?_eq_some he))

/-- No record of an accepted source has two members of one name, exactly when no computed field is
spelled like a reference, no two fields of a view are spelled alike, and different names have
different members. Where all names are regular, the last holds by itself. -/
theorem compile_members_iff {path : String} {source : List Text.Rune} {opts : CompileOptions}
    {app : Application} (h : compile path source opts = .ok app) {tables : List Table}
    (hplan : plan app = .ok tables) :
    ((∀ r ∈ records app tables, (r.members.map (·.name)).Nodup) ↔
      SpelledApart app tables ∧ ∀ names ∈ nameLists app tables, ToldApart names) ∧
    ((∀ names ∈ nameLists app tables, ∀ x ∈ names, Regular x) →
      ((∀ r ∈ records app tables, (r.members.map (·.name)).Nodup) ↔
        SpelledApart app tables)) := by
  have hiff : (∀ r ∈ records app tables, (r.members.map (·.name)).Nodup) ↔
      SpelledApart app tables ∧ ∀ names ∈ nameLists app tables, ToldApart names := by
    rw [members_nodup_iff, nameLists_nodup_iff h hplan]
  refine ⟨hiff, fun hregular => ?_⟩
  have htold : ∀ names ∈ nameLists app tables, ToldApart names :=
    fun names hn => toldApart_of_regular (hregular names hn)
  rw [hiff, and_iff_left htold]

/-- Notes with an owner, and a view of them. -/
def notes : List Text.Rune := [
  "entity User \x7b id: Int primaryKey \x7d ",
  "entity Note \x7b id: Int primaryKey ",
  "title: String owner: User ",
  "twice: Int @virtual(from: \"id + id\") \x7d ",
  "view Titles \x7b source: Note ",
  "fields: \x7b title: title sum: \"id + id\" \x7d \x7d"].flatMap Text.runes

theorem notes_members : ∃ app tables, compile "" notes ⟨[], ""⟩ = .ok app ∧
    plan app = .ok tables ∧ ∀ r ∈ records app tables, (r.members.map (·.name)).Nodup := by
  obtain ⟨app, tables, hcompile, hplan, hregular, hreferences, hviews⟩ := planned?_any notes
    (p := fun app tables =>
      (∀ names ∈ nameLists app tables, ∀ x ∈ names, Regular x) ∧
      (∀ t ∈ tables, ∀ e ∈ app.entity? t.entity,
        ∀ x ∈ computedNames e, x ∉ t.foreignKeys.map (·.column)) ∧
      ∀ v ∈ app.views, (shownNames v).Nodup)
    (by simp only [notes, List.flatMap_cons]; repeat rw [Text.runes_ofList]
        decide +kernel)
  have hapart : SpelledApart app tables := ⟨hreferences, hviews⟩
  exact ⟨app, tables, hcompile, hplan,
    ((compile_members_iff hcompile hplan).2 hregular).mpr hapart⟩

/-- Two columns that differ in an underscore before a digit, a computed field like a reference, and
two fields of a view that differ in an underscore and a capital. -/
def meetings : List Text.Rune := [
  "entity Item \x7b id: Int primaryKey a1: Int a_1: Int \x7d ",
  "entity Note \x7b id: Int primaryKey owner: Item ",
  "ownerId: Int @virtual(from: \"id + id\") \x7d ",
  "view Items \x7b source: Item ",
  "fields: \x7b a_b: id aB: id \x7d \x7d"].flatMap Text.runes

theorem meetings_members : ∃ app tables, compile "" meetings ⟨[], ""⟩ = .ok app ∧
    plan app = .ok tables ∧ (records app tables).length = 3 ∧
      ∀ r ∈ records app tables, ¬ (r.members.map (·.name)).Nodup := by
  simp only [← nodup_chars]
  refine planned?_any meetings ?_
  simp only [meetings, List.flatMap_cons]
  repeat rw [Text.runes_ofList]
  decide +kernel

end Scaffold
