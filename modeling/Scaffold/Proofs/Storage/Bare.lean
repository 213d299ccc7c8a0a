import Scaffold.Proofs.Model.Texts
import Scaffold.Proofs.Output.Written
import Scaffold.Proofs.Storage.Script

/-! # The script of a schema has one region

Names and texts are quoted in the script, and none of them has a marker when no text of the
application has one. -/
namespace Scaffold.Storage

open Scaffold.Model Scaffold.Output
open Scaffold.Text (snake replaceChar)

/-! ## Quoting -/

theorem unmarked_replaceChar {q : Char} {by_ : String} (h : IsSeal by_) {s : String}
    (hs : Unmarked s) : Unmarked (replaceChar q by_ s) := by
  refine unmarked_escaped (fun c => ?_) hs
  split
  · exact .inr (by simpa using h)
  · exact .inl rfl

theorem unmarked_sqlName {s : String} (h : Unmarked s) : Unmarked (sqlName s) := by
  have hquote : IsSeal "\"" := by decide
  rw [sqlName, unmarked_before hquote, unmarked_after hquote]
  exact unmarked_replaceChar (by decide) h

theorem unmarked_sqlText {s : String} (h : Unmarked s) : Unmarked (sqlText s) := by
  have hquote : IsSeal "'" := by decide
  rw [sqlText, unmarked_before hquote, unmarked_after hquote]
  exact unmarked_replaceChar (by decide) h

theorem unmarked_sqlNames {names : List String} (h : ∀ s ∈ names, Unmarked s) :
    Unmarked (sqlNames names) := by
  rw [sqlNames, unmarked_intercalate (by decide), List.forall_mem_map]
  exact fun s hs => unmarked_sqlName (h s hs)

theorem unmarked_sqlTexts {values : List String} (h : ∀ s ∈ values, Unmarked s) :
    Unmarked (sqlTexts values) := by
  rw [sqlTexts, unmarked_intercalate (by decide), List.forall_mem_map]
  exact fun s hs => unmarked_sqlText (h s hs)

/-! ## Names of a plan -/

/-- No name in a table has a marker. -/
structure Table.Bare (t : Table) : Prop where
  name : Unmarked t.name
  columns : ∀ c ∈ t.columns, Unmarked c.name
  keys : ∀ k ∈ t.foreignKeys, Unmarked k.column ∧ Unmarked k.refTable ∧ Unmarked k.refColumn
  primaryKey : ∀ c ∈ t.primaryKey, Unmarked c

theorem Table.Bare.add {t u : Table} {c : Column} (ht : t.Bare) (hc : Unmarked c.name)
    (h : t.add c = .ok u) : u.Bare := by
  obtain ⟨rfl, -⟩ := add_ok h
  exact ⟨ht.name, List.forall_mem_append.mpr ⟨ht.columns, List.forall_mem_singleton.mpr hc⟩,
    ht.keys, ht.primaryKey⟩

theorem Table.Bare.addColumns {t u : Table} {cs : List Column} (ht : t.Bare)
    (hcs : ∀ c ∈ cs, Unmarked c.name) (h : addColumns t cs = .ok u) : u.Bare := by
  rw [addColumns_eq h]
  exact ⟨ht.name, List.forall_mem_append.mpr ⟨ht.columns, hcs⟩, ht.keys, ht.primaryKey⟩

theorem bare_entityTable {e : Entity} {t : Table} (h : entityTable e = .ok t) : t.Bare := by
  have hempty (name entity : String) (hname : Unmarked name) :
      Table.Bare ⟨name, entity, [], [], []⟩ := by
    constructor <;> simp [hname]
  unfold entityTable at h
  refine Table.Bare.addColumns (hempty _ _ (unmarked_of_colon (colon_tableName e.name))) ?_ h
  exact List.forall_mem_map.mpr fun f _ => unmarked_snake f.name

theorem bare_joinTable (r : Relation) (left right : Field) : (joinTable r left right).Bare := by
  constructor <;> simp [joinTable, unmarked_of_colon]

theorem colon_reference (a : Application) (r : Relation) (key : Field) :
    ':' ∉ (reference a r key).1.name.toList := by
  simp only [reference]
  split <;> simp

theorem bare_addReference {a : Application} {r : Relation} {key : Field} {entity : String}
    {ts us : List Table} (hts : ∀ t ∈ ts, t.Bare)
    (h : addReference entity (reference a r key).1 (reference a r key).2 ts = .ok us) :
    ∀ u ∈ us, u.Bare := by
  have hname := unmarked_of_colon (colon_reference a r key)
  induction ts generalizing us with
  | nil =>
    cases h
    exact hts
  | cons t ts ih =>
    obtain ⟨ht, hts⟩ := List.forall_mem_cons.mp hts
    unfold addReference at h
    split at h
    · obtain ⟨u, hu, h⟩ := bind_eq_ok.mp h
      cases h
      have hadded := ht.add hname hu
      refine List.forall_mem_cons.mpr ⟨⟨hadded.name, hadded.columns, ?_, hadded.primaryKey⟩, hts⟩
      refine List.forall_mem_append.mpr ⟨hadded.keys, List.forall_mem_singleton.mpr ⟨hname, ?_⟩⟩
      simp [reference, unmarked_of_colon]
    · obtain ⟨vs, hvs, h⟩ := bind_eq_ok.mp h
      cases h
      exact List.forall_mem_cons.mpr ⟨ht, ih hts hvs⟩

theorem bare_planRelations {a : Application} {rs : List Relation} {ts us joins : List Table}
    (hts : ∀ t ∈ ts, t.Bare) (h : planRelations a ts rs = .ok (us, joins)) :
    ∀ t ∈ us ++ joins, t.Bare := by
  induction rs generalizing ts joins with
  | nil =>
    cases h
    simpa using hts
  | cons r rs ih =>
    unfold planRelations at h
    split at h
    · obtain ⟨left, -, h⟩ := bind_eq_ok.mp h
      obtain ⟨right, -, h⟩ := bind_eq_ok.mp h
      obtain ⟨⟨vs, rest⟩, hrest, h⟩ := bind_eq_ok.mp h
      cases h
      obtain ⟨hus, hjoins⟩ := List.forall_mem_append.mp (ih hts hrest)
      exact List.forall_mem_append.mpr ⟨hus, List.forall_mem_cons.mpr ⟨bare_joinTable r left right,
        hjoins⟩⟩
    · obtain ⟨key, -, h⟩ := bind_eq_ok.mp h
      obtain ⟨vs, hvs, h⟩ := bind_eq_ok.mp h
      exact ih (bare_addReference hts hvs) h

/-- The names in a plan are generated names. -/
theorem plan_bare {a : Application} {tables : List Table} (h : plan a = .ok tables) :
    ∀ t ∈ tables, t.Bare := by
  obtain ⟨ts, hts, h⟩ := bind_eq_ok.mp h
  obtain ⟨⟨own, joins⟩, hrel, h⟩ := bind_eq_ok.mp h
  cases h
  refine bare_planRelations (fun t ht => ?_) hrel
  obtain ⟨e, -, he⟩ := exists_of_mem_right (mapM_ok hts) ht
  exact bare_entityTable he

/-! ## Statements -/

theorem unmarked_columnType (db : Database) (c : Column) : Unmarked (columnType db c) := by
  unfold columnType
  split
  case h_1 => split <;> exact unmarked_of_colon (by decide)
  case h_6 => exact unmarked_sqlName (unmarked_snake c.enum)
  all_goals exact unmarked_of_colon (by decide)

theorem unmarked_jsonLiteral {v : Json} (h : v.Bare) : Unmarked (jsonLiteral v) := by
  refine unmarked_sqlText ?_
  unfold Json.text?
  split
  · exact Json.unmarked_compact true h
  · exact unmarked_empty

theorem unmarked_literalClause (db : Database) (kind : TypeKind) {v : Json} (h : v.Bare) :
    Unmarked (literalClause db kind v) := by
  unfold literalClause
  split
  · exact unmarked_jsonLiteral h
  split
  next b => cases db <;> cases b <;> exact unmarked_of_colon (by decide)
  next raw => exact (Json.bare_number raw).mp h
  next text => exact unmarked_sqlText ((Json.bare_string text).mp h)
  · exact unmarked_jsonLiteral h

/-- No text in the default of a column has a marker. -/
def BareDefault (c : Column) : Prop := ∀ v, c.default = some (.literal v) → v.Bare

theorem attachable_defaultClause (db : Database) {c : Column} (h : BareDefault c) :
    Attachable (defaultClause db c) := by
  unfold defaultClause
  split
  · exact attachable_empty
  next v hv =>
    have hdefault : IsSeal " default " := by decide
    exact hdefault.attach (unmarked_literalClause db c.kind (h v hv))
  · split
    case h_5 => exact attachable_empty
    all_goals
      refine IsSeal.attachable ?_
      decide

theorem unmarked_referenceClause {k : ForeignKey}
    (hk : Unmarked k.column ∧ Unmarked k.refTable ∧ Unmarked k.refColumn) :
    Unmarked (referenceClause k) := by
  have hpolicy : Unmarked (onDeleteClause k.onDelete) := by
    cases k.onDelete <;> exact unmarked_of_colon (by decide)
  unfold referenceClause
  simp (disch := with_reducible refine id ?_; refine isSeal_ofList ?_; decide) only
    [unmarked_sealed, unmarked_after]
  exact ⟨⟨unmarked_sqlName hk.2.1, unmarked_sqlName hk.2.2⟩, hpolicy⟩

section Statements

variable {a : Application} (ha : a.Bare)
include ha

theorem unmarked_values {e : Enum} (he : e ∈ a.enums) : ∀ v ∈ e.values, Unmarked v :=
  ((bare_enum e).mp (ha.enums e he)).2

theorem attachable_enumCheck (db : Database) {c : Column} (hc : Unmarked c.name) :
    Attachable (enumCheck db a c) := by
  unfold enumCheck
  split
  next e he =>
    have hvalues := unmarked_sqlTexts (unmarked_values ha (List.mem_of_find?_eq_some he))
    split
    · exact attachable_empty
    · intro t htext
      rw [← String.append_assoc, ← String.append_assoc, ← String.append_assoc,
        ← String.append_assoc]
      simp (disch := with_reducible refine id ?_; refine isSeal_ofList ?_; decide) only
        [unmarked_sealed, unmarked_before]
      exact ⟨⟨htext, unmarked_sqlName hc⟩, hvalues⟩
  · exact attachable_empty

theorem unmarked_columnDef (db : Database) {t : Table} (ht : t.Bare) {c : Column}
    (hc : c ∈ t.columns) (hdefault : BareDefault c) : Unmarked (columnDef db a t c) := by
  have hname := unmarked_sqlName (ht.columns c hc)
  have hblank : IsSeal " " := by decide
  have htype : Unmarked (sqlName c.name ++ " " ++ columnType db c) :=
    (unmarked_sealed hblank _ _).mpr ⟨hname, unmarked_columnType db c⟩
  have hkey : Attachable
      (if c.primaryKey then " primary key" else if c.notNull then " not null" else "") := by
    split
    · exact IsSeal.attachable (by decide)
    split
    · exact IsSeal.attachable (by decide)
    · exact attachable_empty
  have hown : Attachable (if c.autoIncrement then "" else defaultClause db c) := by
    split
    · exact attachable_empty
    · exact attachable_defaultClause db hdefault
  have hreferences : Attachable (if db = .sqlite then
      String.join ((t.foreignKeys.filter (·.column == c.name)).map fun k =>
        " " ++ referenceClause k) else "") := by
    split
    · refine attachable_join (List.forall_mem_map.mpr fun k hk => ?_)
      exact hblank.attach (unmarked_referenceClause (ht.keys k (List.mem_filter.mp hk).1))
    · exact attachable_empty
  unfold columnDef
  split
  · simp (disch := with_reducible refine id ?_; refine isSeal_ofList ?_; decide) only
      [unmarked_before, hname]
  · exact hreferences _ (attachable_enumCheck ha db (ht.columns c hc) _ (hown _ (hkey _ htype)))

theorem unmarked_createTable (db : Database) {t : Table} (ht : t.Bare)
    (hdefaults : ∀ c ∈ t.columns, BareDefault c) : Unmarked (createTable db a t) := by
  have hdefs : ∀ d ∈ t.columns.map (columnDef db a t), Unmarked d :=
    List.forall_mem_map.mpr fun c hc => unmarked_columnDef ha db ht hc (hdefaults c hc)
  have hkey : ∀ d ∈ (if t.primaryKey.isEmpty then []
      else ["primary key (" ++ sqlNames t.primaryKey ++ ")"]), Unmarked d := by
    split
    · simp
    · simp (disch := with_reducible refine id ?_; refine isSeal_ofList ?_; decide) only
        [List.forall_mem_singleton, unmarked_before, unmarked_after]
      exact unmarked_sqlNames ht.primaryKey
  unfold createTable
  simp (disch := with_reducible refine id ?_; refine isSeal_ofList ?_; decide) only
    [unmarked_before, unmarked_sealed, unmarked_after, unmarked_intercalate]
  exact ⟨unmarked_sqlName ht.name, List.forall_mem_append.mpr ⟨hdefs, hkey⟩⟩

omit ha in
theorem unmarked_createIndex {t : Table} (ht : t.Bare) {c : Column} (hc : c ∈ t.columns) :
    Unmarked (createIndex t c) := by
  have hindex : Unmarked (indexName t c) := by
    unfold indexName
    simp (disch := with_reducible refine id ?_; refine isSeal_ofList ?_; decide) only
      [unmarked_before, unmarked_sealed]
    exact ⟨ht.name, ht.columns c hc⟩
  unfold createIndex
  simp (disch := with_reducible refine id ?_; refine isSeal_ofList ?_; decide) only
    [unmarked_before, unmarked_sealed, unmarked_after]
  exact ⟨⟨unmarked_sqlName hindex, unmarked_sqlName ht.name⟩, unmarked_sqlName (ht.columns c hc)⟩

omit ha in
theorem unmarked_addConstraint {t : Table} (ht : t.Bare) {k : ForeignKey}
    (hk : k ∈ t.foreignKeys) : Unmarked (addConstraint t k) := by
  obtain ⟨hcolumn, hreference⟩ := ht.keys k hk
  have hname : Unmarked (t.name ++ "_" ++ k.column ++ "_fk") := by
    simp (disch := with_reducible refine id ?_; refine isSeal_ofList ?_; decide) only
      [unmarked_before, unmarked_sealed]
    exact ⟨ht.name, hcolumn⟩
  unfold addConstraint
  simp (disch := with_reducible refine id ?_; refine isSeal_ofList ?_; decide) only
    [unmarked_before, unmarked_sealed, unmarked_after]
  exact ⟨⟨⟨unmarked_sqlName ht.name, unmarked_sqlName hname⟩, unmarked_sqlName hcolumn⟩,
    unmarked_referenceClause ⟨hcolumn, hreference⟩⟩

theorem unmarked_createType {e : Enum} (he : e ∈ a.enums) : Unmarked (createType e) := by
  unfold createType
  simp (disch := with_reducible refine id ?_; refine isSeal_ofList ?_; decide) only
    [unmarked_before, unmarked_sealed, unmarked_after]
  exact ⟨unmarked_sqlName (unmarked_snake e.name), unmarked_sqlTexts (unmarked_values ha he)⟩

theorem unmarked_statements (db : Database) {tables : List Table}
    (htables : ∀ t ∈ tables, t.Bare)
    (hdefaults : ∀ t ∈ tables, ∀ c ∈ t.columns, BareDefault c) :
    ∀ s ∈ schemaStatements db a tables, Unmarked s := by
  rw [schemaStatements_eq, List.forall_mem_append, List.forall_mem_append]
  refine ⟨⟨?_, ?_⟩, ?_⟩
  · split
    · exact List.forall_mem_map.mpr fun e he => unmarked_createType ha he
    · simp
  · refine List.forall_mem_flatMap.mpr fun t ht => List.forall_mem_cons.mpr ⟨?_, ?_⟩
    · exact unmarked_createTable ha db (htables t ht) (hdefaults t ht)
    · exact List.forall_mem_map.mpr fun c hc =>
        unmarked_createIndex (htables t ht) (List.mem_filter.mp hc).1
  · split
    · exact List.forall_mem_flatMap.mpr fun t ht => List.forall_mem_map.mpr fun k hk =>
        unmarked_addConstraint (htables t ht) hk
    · simp

/-- The script has the region that stands behind its statements. -/
theorem lays_schemaScript (db : Database) {tables : List Table} (htables : ∀ t ∈ tables, t.Bare)
    (hdefaults : ∀ t ∈ tables, ∀ c ∈ t.columns, BareDefault c) :
    Lays (schemaScript db a tables) [.written "--" "schema" ""] := by
  have hheading : Lays ("-- " ++ generatedHeader ++ "\n-- application: " ++ a.name ++
      ", database: " ++ db.name ++ "\n\n") [] := by
    have hdb : Unmarked db.name := by cases db <;> exact unmarked_of_colon (by decide)
    refine lays_unmarked ?_ (.inr ?_)
    · simp (disch := with_reducible refine id ?_; refine isSeal_ofList ?_; decide) only
        [unmarked_before, unmarked_sealed, unmarked_after, unmarked_generatedHeader, hdb, ha.name,
          and_self]
    · exact (Text.endsWith_append _ (by decide)).trans (by decide)
  have hgroups : Lays (String.join ((groups db a tables).map fun g =>
      String.join (g.map fun statement => statement ++ "\n") ++ "\n")) [] := by
    refine lays_joinUnmarked fun g hg => (lays_unlines fun s hs => ?_).append (lays_line unmarked_empty)
    exact unmarked_statements ha db htables hdefaults s (List.mem_flatten_of_mem hg hs)
  have hregion : Lays (region "--" "schema" "") [.written "--" "schema" ""] :=
    lays_region ⟨by decide, by decide, by decide, by decide⟩
      ⟨by decide, by simp [Text.isBlank], by decide⟩ unmarked_empty
  exact (hheading.append hgroups).append hregion

end Statements

end Scaffold.Storage
