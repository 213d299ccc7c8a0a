import Mathlib.Data.List.Pairwise
import Scaffold.Build.Application
import Scaffold.Proofs.Storage.Plan
import Scaffold.Proofs.Text.Search
import Scaffold.Proofs.Text.Words
import Scaffold.Rest.Schema
import Scaffold.Storage.Ddl

/-! # Names in the database

Two entities share a resource path exactly when they share a table. Of two tables with different
names, unique indexes share a name exactly when the longer table name takes words from the column
of the other. Nothing checks either, so names that differ in a source can meet in its database. -/
namespace Scaffold.Storage

open Scaffold.Model
open Scaffold.Text (snake kebab rejoin after? endsWith)
open Scaffold.Rest (resourcePath schemaOf)

/-! ## Plurals -/

/-- A character that joins no words. -/
def IsPlainChar (p : Char) : Prop := p ≠ '_' ∧ p ≠ '-'

instance (p : Char) : Decidable (IsPlainChar p) := inferInstanceAs (Decidable (_ ∧ _))

/-- An ending without marks between words. -/
def IsEnding (suffix : String) : Prop := ∀ p ∈ suffix.toList, IsPlainChar p

instance (suffix : String) : Decidable (IsEnding suffix) :=
  List.decidableBAll IsPlainChar suffix.toList

theorem eq_rejoin_iff {sep : Char} (hsep : sep = '_' ∨ sep = '-') {p : Char} (hp : IsPlainChar p)
    (c : Char) : p = rejoin sep c ↔ p = c := by
  unfold rejoin
  split
  next hc =>
    constructor
    · rintro rfl
      exact absurd hsep (by simpa [IsPlainChar] using hp)
    · rintro rfl
      exact absurd hc (by simpa [IsPlainChar] using hp)
  next => rfl

theorem isSome_after?_rejoin {sep : Char} (hsep : sep = '_' ∨ sep = '-') (ps cs : List Char)
    (hps : ∀ p ∈ ps, IsPlainChar p) :
    (after? ps (cs.map (rejoin sep))).isSome = (after? ps cs).isSome := by
  induction ps generalizing cs with
  | nil => simp [after?]
  | cons p ps ih =>
    obtain ⟨hp, hrest⟩ := List.forall_mem_cons.mp hps
    cases cs with
    | nil => rfl
    | cons c cs =>
      simp only [List.map_cons, after?, eq_rejoin_iff hsep hp]
      split
      · exact ih cs hrest
      · rfl

theorem endsWith_rejoin {sep : Char} (hsep : sep = '_' ∨ sep = '-') {suffix : String}
    (hsuffix : IsEnding suffix) (cs : List Char) :
    endsWith (String.ofList (cs.map (rejoin sep))) suffix = endsWith (String.ofList cs) suffix := by
  simp only [endsWith, String.toList_ofList, ← List.map_reverse]
  exact isSome_after?_rejoin hsep _ _ fun p hp => hsuffix p (List.mem_reverse.mp hp)

theorem isVowel_rejoin {sep : Char} (hsep : sep = '_' ∨ sep = '-') (c : Char) :
    isVowel (rejoin sep c) = isVowel c := by
  unfold rejoin
  split
  next hc => rcases hsep with rfl | rfl <;> rcases hc with rfl | rfl <;> rfl
  next => rfl

theorem map_rejoin_append {sep : Char} (cs : List Char) {suffix : String}
    (hsuffix : IsEnding suffix) :
    (String.ofList cs ++ suffix).toList.map (rejoin sep) =
      (String.ofList (cs.map (rejoin sep)) ++ suffix).toList := by
  have hfix : ∀ p ∈ suffix.toList, rejoin sep p = id p := fun p hp =>
    if_neg (by simpa [IsPlainChar] using hsuffix p hp)
  rw [String.toList_append, List.map_append, List.map_congr_left hfix, List.map_id]
  simp

/-- Whether a text, read from the back, ends with a consonant and `y`. -/
def endsConsonantY : List Char → Bool
  | a :: c :: _ => a == 'y' && !isVowel c
  | _ => false

theorem plural_eq (s : String) :
    plural s =
      if ["ss", "x", "z", "ch", "sh"].any (endsWith s) then s ++ "es"
      else if endsWith s "s" then s
      else if endsConsonantY s.toList.reverse then String.ofList s.toList.dropLast ++ "ies"
      else s ++ "s" := by
  unfold plural
  split
  · rfl
  split
  · rfl
  split
  next c rest hrev =>
    have hdrop : s.toList.dropLast = (c :: rest).reverse := by
      rw [← List.reverse_reverse s.toList, hrev, List.reverse_cons, List.dropLast_concat]
    rw [hrev, hdrop]
    cases hv : isVowel c with
    | false => simp [endsConsonantY, hv]
    | true => simp [endsConsonantY, hv]
  next hother =>
    have hno : endsConsonantY s.toList.reverse = false := by
      match hrev : s.toList.reverse with
      | [] | [_] => rfl
      | a :: c :: rest =>
        have ha : a ≠ 'y' := fun he => hother c rest (he ▸ hrev)
        simp [endsConsonantY, ha]
    simp [hno]

/-- A plural has the letters of an ending besides those of its noun. -/
theorem mem_plural {s : String} {c : Char} (h : c ∈ (plural s).toList) :
    c ∈ s.toList ∨ c ∈ ['i', 'e', 's'] := by
  have hending {suffix : String} (hsuffix : suffix.toList ⊆ ['i', 'e', 's'])
      (hc : c ∈ (s ++ suffix).toList) : c ∈ s.toList ∨ c ∈ ['i', 'e', 's'] := by
    rw [String.toList_append, List.mem_append] at hc
    exact hc.imp_right (hsuffix ·)
  rw [plural_eq] at h
  split at h
  · exact hending (by decide) h
  split at h
  · exact .inl h
  split at h
  · rw [String.toList_append, List.mem_append, String.toList_ofList] at h
    exact h.imp (List.dropLast_subset _ ·) fun hc => by simpa using hc
  · exact hending (by decide) h

theorem endsConsonantY_rejoin {sep : Char} (hsep : sep = '_' ∨ sep = '-') (cs : List Char) :
    endsConsonantY (cs.map (rejoin sep)) = endsConsonantY cs := by
  match cs with
  | [] | [_] => rfl
  | a :: c :: rest =>
    have hy : (rejoin sep a == 'y') = (a == 'y') := by
      rw [Bool.eq_iff_iff, beq_iff_eq, beq_iff_eq, eq_comm, eq_rejoin_iff hsep (by decide), eq_comm]
    simp only [List.map_cons, endsConsonantY, hy, isVowel_rejoin hsep]

/-- The plural looks at letters only, so it does not matter what joins the words. -/
theorem plural_rejoin {sep : Char} (hsep : sep = '_' ∨ sep = '-') (cs : List Char) :
    (plural (String.ofList (cs.map (rejoin sep)))).toList =
      (plural (String.ofList cs)).toList.map (rejoin sep) := by
  have hany : ["ss", "x", "z", "ch", "sh"].any (endsWith (String.ofList (cs.map (rejoin sep)))) =
      ["ss", "x", "z", "ch", "sh"].any (endsWith (String.ofList cs)) := by
    simp only [List.any_cons, List.any_nil]
    rw [endsWith_rejoin hsep (by decide), endsWith_rejoin hsep (by decide),
      endsWith_rejoin hsep (by decide), endsWith_rejoin hsep (by decide),
      endsWith_rejoin hsep (by decide)]
  rw [plural_eq, plural_eq, hany, endsWith_rejoin hsep (by decide), String.toList_ofList,
    String.toList_ofList, ← List.map_reverse, endsConsonantY_rejoin hsep, ← List.map_dropLast]
  split
  · exact (map_rejoin_append cs (by decide)).symm
  split
  · simp
  split
  · exact (map_rejoin_append cs.dropLast (by decide)).symm
  · exact (map_rejoin_append cs (by decide)).symm

/-! ## Resource paths -/

/-- Two entities share a resource path exactly when they share a table. -/
theorem resourcePath_eq_iff {d e : String} :
    resourcePath d = resourcePath e ↔ tableName d = tableName e := by
  have hpath (s : String) : (plural (kebab s)).toList = (tableName s).toList.map (rejoin '-') := by
    rw [← String.ofList_toList (s := kebab s), Text.kebab_eq, plural_rejoin (.inr rfl),
      String.ofList_toList, tableName]
  have htable (s : String) : (tableName s).toList = (plural (kebab s)).toList.map (rejoin '_') := by
    rw [tableName, ← String.ofList_toList (s := snake s), Text.snake_eq, plural_rejoin (.inl rfl),
      String.ofList_toList]
  constructor
  · intro h
    have hplural : plural (kebab d) = plural (kebab e) := by
      simpa [resourcePath, String.append_right_inj] using h
    rw [← String.toList_inj, htable, htable, hplural]
  · intro h
    have hplural : plural (kebab d) = plural (kebab e) := by
      rw [← String.toList_inj, hpath, hpath, h]
    rw [resourcePath, resourcePath, hplural]

theorem nodup_map_iff {α β γ : Type} {f : α → β} {g : α → γ} (h : ∀ x y, f x = f y ↔ g x = g y)
    (xs : List α) : (xs.map f).Nodup ↔ (xs.map g).Nodup := by
  simp only [List.Nodup, List.pairwise_map, ne_eq, h]

theorem resources_nodup_iff (a : Application) (o : Generator.Options) :
    ((schemaOf a o).resources.map (·.path)).Nodup ↔
      (a.entities.map (tableName ·.name)).Nodup := by
  have hpaths : (schemaOf a o).resources.map (·.path) =
      a.entities.map (resourcePath ·.name) := by
    rw [schemaOf, List.map_map]
    rfl
  rw [hpaths]
  exact nodup_map_iff (fun d e => resourcePath_eq_iff) a.entities

/-! ## Tables -/

/-- The tables that an application asks for: one for each entity, then one for each relation that
has one. -/
def plannedNames (a : Application) : List String :=
  a.entities.map (tableName ·.name) ++ (joined a.relations).map (snake ·.name)

theorem plan_names {a : Application} {tables : List Table} (h : plan a = .ok tables) :
    tables.map (·.name) = plannedNames a := by
  obtain ⟨own, joins, rfl, hown, hjoins⟩ := plan_ok h
  have hjoin : List.Forall₂ (fun (r : Relation) (t : Table) => t.name = snake r.name)
      (joined a.relations) joins := by
    refine hjoins.imp ?_
    rintro r t ⟨left, right, rfl⟩
    rfl
  rw [List.map_append, map_eq_of_forall₂ (hown.imp fun _ _ ht => ht.name), map_eq_of_forall₂ hjoin,
    plannedNames]

/-! ## Indexes -/

/-- The columns of a table that have an index of their own. -/
def Table.indexed (t : Table) : List Column := t.columns.filter (·.unique)

def indexNames (tables : List Table) : List String :=
  tables.flatMap fun t => t.indexed.map (indexName t)

/-- No table of a plan has two indexed columns of one name. -/
theorem plan_indexed {a : Application} {tables : List Table} (h : plan a = .ok tables) :
    ∀ t ∈ tables, (t.indexed.map (·.name)).Nodup := by
  obtain ⟨own, joins, rfl, hown, hjoins⟩ := plan_ok h
  intro t ht
  rcases List.mem_append.mp ht with ht | ht
  · obtain ⟨e, -, he⟩ := exists_of_mem_right hown ht
    exact he.distinct.sublist (List.filter_sublist.map _)
  · obtain ⟨r, -, left, right, rfl⟩ := exists_of_mem_right hjoins ht
    simp [Table.indexed, joinTable]

/-- The text `longer` is `shorter`, an underscore and the words that `column` has before `word`. -/
def Borrows (shorter column longer word : String) : Prop :=
  ∃ rest, longer = shorter ++ "_" ++ rest ∧ column = rest ++ "_" ++ word

theorem borrows_iff {shorter column longer word : String} :
    Borrows shorter column longer word ↔
      ∃ rest, longer.toList = shorter.toList ++ '_' :: rest ∧
        column.toList = rest ++ '_' :: word.toList := by
  constructor
  · rintro ⟨rest, rfl, rfl⟩
    exact ⟨rest.toList, by simp, by simp⟩
  · rintro ⟨rest, hlonger, hcolumn⟩
    refine ⟨String.ofList rest, ?_, ?_⟩
    · rw [← String.toList_inj, hlonger]
      simp
    · rw [← String.toList_inj, hcolumn]
      simp

instance (shorter column longer word : String) : Decidable (Borrows shorter column longer word) :=
  decidable_of_iff
    ((after? (shorter.toList ++ ['_']) longer.toList).any fun rest =>
      column.toList = rest ++ '_' :: word.toList)
    (by simp [borrows_iff, Option.any_eq_true, Text.after?_eq_some])

theorem borrows_of_append {x y c d : String} (hne : x ≠ y) {rest : List Char}
    (hy : y.toList = x.toList ++ rest) (hc : '_' :: c.toList = rest ++ '_' :: d.toList) :
    Borrows x c y d := by
  cases rest with
  | nil =>
    rw [List.append_nil, String.toList_inj] at hy
    exact absurd hy.symm hne
  | cons r rest =>
    obtain ⟨rfl, hcolumn⟩ := List.cons_eq_cons.mp hc
    exact borrows_iff.mpr ⟨rest, hy, hcolumn⟩

theorem Borrows.append_eq {x y c d : String} (h : Borrows x c y d) :
    x.toList ++ '_' :: c.toList = y.toList ++ '_' :: d.toList := by
  obtain ⟨rest, hy, hc⟩ := borrows_iff.mp h
  rw [hy, hc, List.append_assoc, List.cons_append]

/-- Indexes of tables with different names share a name when one table's name goes on with words
of the other's column. -/
theorem indexName_eq_iff {t u : Table} (hne : t.name ≠ u.name) (c d : Column) :
    indexName t c = indexName u d ↔
      Borrows t.name c.name u.name d.name ∨ Borrows u.name d.name t.name c.name := by
  have hcut : indexName t c = indexName u d ↔
      t.name.toList ++ '_' :: c.name.toList = u.name.toList ++ '_' :: d.name.toList := by
    rw [indexName, indexName, String.append_left_inj, ← String.toList_inj]
    simp
  rw [hcut]
  constructor
  · intro h
    rcases List.append_eq_append_iff.mp h with ⟨rest, hu, hc⟩ | ⟨rest, ht, hd⟩
    · exact .inl (borrows_of_append hne hu hc)
    · exact .inr (borrows_of_append hne.symm ht hd)
  · rintro (h | h)
    · exact h.append_eq
    · exact h.append_eq.symm

/-- An index of `t` has the name of an index of `u`, a table with a longer name. -/
def Overlaps (t u : Table) : Prop :=
  ∃ c ∈ t.indexed, ∃ d ∈ u.indexed, Borrows t.name c.name u.name d.name

instance (t u : Table) : Decidable (Overlaps t u) :=
  inferInstanceAs (Decidable (∃ c ∈ t.indexed, _))

theorem disjoint_iff {t u : Table} (hne : t.name ≠ u.name) :
    List.Disjoint (t.indexed.map (indexName t)) (u.indexed.map (indexName u)) ↔
      ¬ Overlaps t u ∧ ¬ Overlaps u t := by
  constructor
  · intro h
    constructor
    · rintro ⟨c, hc, d, hd, hb⟩
      exact h (List.mem_map_of_mem hc)
        (((indexName_eq_iff hne c d).mpr (.inl hb)) ▸ List.mem_map_of_mem hd)
    · rintro ⟨d, hd, c, hc, hb⟩
      exact h (List.mem_map_of_mem hc)
        (((indexName_eq_iff hne c d).mpr (.inr hb)) ▸ List.mem_map_of_mem hd)
  · intro ⟨htu, hut⟩ name ht hu
    obtain ⟨c, hc, rfl⟩ := List.mem_map.mp ht
    obtain ⟨d, hd, he⟩ := List.mem_map.mp hu
    rcases (indexName_eq_iff hne c d).mp he.symm with hb | hb
    · exact htu ⟨c, hc, d, hd, hb⟩
    · exact hut ⟨d, hd, c, hc, hb⟩

theorem Overlaps.name_ne {t u : Table} (h : Overlaps t u) : t.name ≠ u.name := by
  obtain ⟨c, -, d, -, hb⟩ := h
  obtain ⟨rest, hname, -⟩ := borrows_iff.mp hb
  intro he
  simpa [he] using congrArg List.length hname

theorem Overlaps.not_nodup {t u : Table} (h : Overlaps t u) {tables : List Table}
    (ht : t ∈ tables) (hu : u ∈ tables) : ¬ (indexNames tables).Nodup := by
  intro hnodup
  -- Names of different tables are disjoint in a list without repetition, in either order.
  have hapart := (List.nodup_flatMap.mp hnodup).2
  have hsymm : Std.Symm (Function.onFun List.Disjoint fun t : Table =>
      t.indexed.map (indexName t)) := ⟨fun _ _ hd => List.disjoint_symm hd⟩
  have hne := h.name_ne
  exact ((disjoint_iff hne).mp (hapart.forall ht hu fun he => hne (he ▸ rfl))).1 h

theorem indexNames_nodup_iff {tables : List Table} (hnames : (tables.map (·.name)).Nodup)
    (hcolumns : ∀ t ∈ tables, (t.indexed.map (·.name)).Nodup) :
    (indexNames tables).Nodup ↔ ∀ t ∈ tables, ∀ u ∈ tables, ¬ Overlaps t u := by
  constructor
  · exact fun h t ht u hu hover => hover.not_nodup ht hu h
  · intro h
    refine List.nodup_flatMap.mpr ⟨fun t ht => ?_, ?_⟩
    · refine (nodup_map_iff (fun c d => ?_) t.indexed).mpr (hcolumns t ht)
      simp [indexName, String.append_left_inj, String.append_right_inj]
    · refine (List.pairwise_map.mp hnames).imp_of_mem fun ht hu hne => ?_
      exact (disjoint_iff hne).mpr ⟨h _ ht _ hu, h _ hu _ ht⟩

/-! ## Plans -/

/-- Tables, unique indexes and resource paths are told apart exactly when the tables of entities
and relations are, and no two tables overlap. -/
theorem plan_apart_iff {a : Application} {tables : List Table} (h : plan a = .ok tables)
    (o : Generator.Options) :
    (tables.map (·.name)).Nodup ∧ (indexNames tables).Nodup ∧
        ((schemaOf a o).resources.map (·.path)).Nodup ↔
      (plannedNames a).Nodup ∧ ∀ t ∈ tables, ∀ u ∈ tables, ¬ Overlaps t u := by
  rw [resources_nodup_iff, ← plan_names h]
  constructor
  · rintro ⟨hnames, hindexes, -⟩
    exact ⟨hnames, (indexNames_nodup_iff hnames (plan_indexed h)).mp hindexes⟩
  · rintro ⟨hnames, hapart⟩
    refine ⟨hnames, (indexNames_nodup_iff hnames (plan_indexed h)).mpr hapart, ?_⟩
    rw [plan_names h] at hnames
    exact hnames.of_append_left

/-- One table's name goes on from the other's, and both have a unique code. -/
def orders : List Text.Rune := [
  "entity Order \x7b id: Int primaryKey code: String unique \x7d ",
  "entity OrdersItem \x7b id: Int primaryKey ",
  "code: String unique order: Order \x7d"].flatMap Text.runes

theorem orders_apart : ∃ app tables, compile "" orders ⟨[], ""⟩ = .ok app ∧
    plan app = .ok tables ∧ ∀ o : Generator.Options,
      (tables.map (·.name)).Nodup ∧ (indexNames tables).Nodup ∧
        ((schemaOf app o).resources.map (·.path)).Nodup := by
  obtain ⟨app, tables, hcompile, hplan, hpass⟩ := planned?_any orders
    (p := fun app tables =>
      (plannedNames app).Nodup ∧ ∀ t ∈ tables, ∀ u ∈ tables, ¬ Overlaps t u)
    (by simp only [orders, List.flatMap_cons]; repeat rw [Text.runes_ofList]
        decide +kernel)
  exact ⟨app, tables, hcompile, hplan, fun o => (plan_apart_iff hplan o).mpr hpass⟩

/-- Two entities that are told apart by capitals, and a column with a word of another table. -/
def servers : List Text.Rune := [
  "entity HTTPServer \x7b id: Int primaryKey \x7d ",
  "entity HttpServer \x7b id: Int primaryKey \x7d ",
  "entity Order \x7b id: Int primaryKey ",
  "itemsCode: String unique \x7d ",
  "entity OrdersItem \x7b id: Int primaryKey ",
  "code: String unique \x7d"].flatMap Text.runes

theorem servers_meet : ∃ app tables, compile "" servers ⟨[], ""⟩ = .ok app ∧
    plan app = .ok tables ∧ ¬ (tables.map (·.name)).Nodup ∧ ¬ (indexNames tables).Nodup ∧
      ¬ ((schemaOf app ⟨.sqlite, "", []⟩).resources.map (·.path)).Nodup := by
  simp only [← nodup_chars]
  refine planned?_any servers ?_
  simp only [servers, List.flatMap_cons]
  repeat rw [Text.runes_ofList]
  decide +kernel

end Scaffold.Storage
