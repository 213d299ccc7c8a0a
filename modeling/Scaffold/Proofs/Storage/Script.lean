import Mathlib.Data.List.TakeWhile
import Mathlib.Tactic.Common
import Scaffold.Proofs.Source.Values
import Scaffold.Proofs.Storage.References
import Scaffold.Storage.Ddl
import Scaffold.Storage.Script

/-! # Scripts read back

The reader of a script takes quoted names and texts in whole, whatever stands between their quotes,
and drops comments. So the script of a schema is cut into the statements that it was put together
from, each as it was written, unless a comment has more than one line. -/
namespace Scaffold.Storage

open Scaffold.Model
open Scaffold.Text (isBlank trimChars replaceChar)

/-! ## Texts that are taken in whole -/

/-- A text after which the reader is as far as before: outside of quotes and comments, with the text
at the end of the open piece. -/
def Kept (s : String) : Prop := ∀ current rest,
  pieces .code current (s.toList ++ rest) = pieces .code (s.toList.reverse ++ current) rest

/-- A character that neither quotes nor ends anything, nor begins a comment. -/
def isPlain (c : Char) : Bool := c ≠ '\'' && c ≠ '"' && c ≠ ';' && c ≠ '-'

/-- The reader of code looks at one character, unless that is the first of two dashes. -/
theorem pieces_next {c : Char} {cs : List Char} (hdash : c = '-' → cs.head? ≠ some '-')
    (current : List Char) :
    pieces .code current (c :: cs) =
      if c = ';' then (c :: current).reverse :: pieces .code [] cs
      else if c = '\'' || c = '"' then pieces (.quoted c) (c :: current) cs
      else pieces .code (c :: current) cs := by
  rw [pieces]
  rintro ds rfl rfl
  exact hdash rfl rfl

theorem pieces_code {c : Char} (hc : c ≠ '-') (current cs : List Char) :
    pieces .code current (c :: cs) =
      if c = ';' then (c :: current).reverse :: pieces .code [] cs
      else if c = '\'' || c = '"' then pieces (.quoted c) (c :: current) cs
      else pieces .code (c :: current) cs :=
  pieces_next (fun h => absurd h hc) current

theorem pieces_plain {c : Char} (hc : isPlain c = true) (current cs : List Char) :
    pieces .code current (c :: cs) = pieces .code (c :: current) cs := by
  simp only [isPlain, Bool.and_eq_true, decide_eq_true_eq] at hc
  obtain ⟨⟨⟨hsingle, hdouble⟩, hend⟩, hdash⟩ := hc
  simp [pieces_code hdash, hsingle, hdouble, hend]

theorem pieces_quote {q : Char} (hq : q = '\'' ∨ q = '"') (current cs : List Char) :
    pieces .code current (q :: cs) = pieces (.quoted q) (q :: current) cs := by
  rcases hq with rfl | rfl
  · simp [pieces_code (show '\'' ≠ '-' by decide)]
  · simp [pieces_code (show '"' ≠ '-' by decide)]

theorem pieces_end (current cs : List Char) :
    pieces .code current (';' :: cs) = (';' :: current).reverse :: pieces .code [] cs := by
  simp [pieces_code (show ';' ≠ '-' by decide)]

theorem kept_empty : Kept "" := fun _ _ => rfl

theorem Kept.append {s t : String} (hs : Kept s) (ht : Kept t) : Kept (s ++ t) := by
  intro current rest
  rw [String.toList_append, List.append_assoc, hs, ht, List.reverse_append, List.append_assoc]

theorem kept_plain {s : String} (h : s.toList.all isPlain = true) : Kept s := by
  intro current rest
  generalize s.toList = cs at h ⊢
  induction cs generalizing current with
  | nil => rfl
  | cons c cs ih =>
    obtain ⟨hc, hcs⟩ := Bool.and_eq_true_iff.mp h
    rw [List.cons_append, pieces_plain hc, ih _ hcs, List.reverse_cons, List.append_assoc]
    rfl

/-- A fixed text is looked at by its characters, which is quicker than by its bytes. -/
theorem kept_fixed {cs : List Char} (h : cs.all isPlain = true) : Kept (String.ofList cs) :=
  kept_plain (by rwa [String.toList_ofList])

theorem kept_join {ss : List String} (h : ∀ s ∈ ss, Kept s) : Kept (String.join ss) := by
  induction ss with
  | nil => exact kept_empty
  | cons s ss ih =>
    obtain ⟨hs, hss⟩ := List.forall_mem_cons.mp h
    rw [String.join_cons]
    exact hs.append (ih hss)

theorem kept_intercalate {separator : String} (hsep : Kept separator) {ss : List String}
    (h : ∀ s ∈ ss, Kept s) : Kept (separator.intercalate ss) := by
  induction ss with
  | nil => exact kept_empty
  | cons s ss ih =>
    obtain ⟨hs, hss⟩ := List.forall_mem_cons.mp h
    cases ss with
    | nil => simpa using hs
    | cons t ts =>
      rw [String.intercalate_cons_cons]
      exact (hs.append hsep).append (ih hss)

/-! ## Quotations -/

/-- Between quotes a doubled quote closes and opens again, and all else is text. -/
theorem pieces_quoted {q : Char} (hq : q = '\'' ∨ q = '"') (cs current rest : List Char) :
    pieces (.quoted q) current
        (cs.flatMap (fun d => if d = q then [q, q] else [d]) ++ q :: rest) =
      pieces .code
        (q :: (cs.flatMap fun d => if d = q then [q, q] else [d]).reverse ++ current) rest := by
  induction cs generalizing current with
  | nil => simp [pieces]
  | cons c cs ih =>
    by_cases hc : c = q
    · subst hc
      simp only [List.flatMap_cons, if_true, List.cons_append, List.nil_append]
      rw [pieces, if_pos rfl, pieces_quote hq, ih]
      simp
    · simp only [List.flatMap_cons, if_neg hc, List.cons_append, List.nil_append]
      rw [pieces, if_neg hc, ih]
      simp

theorem kept_quotation {q : Char} (hq : q = '\'' ∨ q = '"') (s : String) :
    Kept (String.ofList [q] ++ replaceChar q (String.ofList [q, q]) s ++ String.ofList [q]) := by
  intro current rest
  simp only [replaceChar, String.toList_append, String.toList_ofList, List.append_assoc,
    List.cons_append, List.nil_append]
  rw [pieces_quote hq, pieces_quoted hq]
  simp

theorem kept_sqlName (s : String) : Kept (sqlName s) := kept_quotation (.inr rfl) s

theorem kept_sqlText (s : String) : Kept (sqlText s) := kept_quotation (.inl rfl) s

theorem kept_sqlNames (names : List String) : Kept (sqlNames names) :=
  kept_intercalate (kept_fixed (by decide)) (List.forall_mem_map.mpr fun s _ => kept_sqlName s)

theorem kept_sqlTexts (values : List String) : Kept (sqlTexts values) :=
  kept_intercalate (kept_fixed (by decide)) (List.forall_mem_map.mpr fun s _ => kept_sqlText s)

/-! ## Statements -/

/-- A default that is written as it stands is a number that the reader takes in whole. -/
def PlainDefault (c : Column) : Prop :=
  ∀ raw, c.default = some (.literal (.number raw)) → Kept raw

theorem kept_onDeleteClause (policy : OnDelete) : Kept (onDeleteClause policy) := by
  cases policy <;> exact kept_fixed (by decide)

theorem kept_referenceClause (k : ForeignKey) : Kept (referenceClause k) :=
  (((((kept_fixed (by decide)).append (kept_sqlName _)).append (kept_fixed (by decide))).append
    (kept_sqlName _)).append (kept_fixed (by decide))).append (kept_onDeleteClause _)

theorem kept_columnType (db : Database) (c : Column) : Kept (columnType db c) := by
  unfold columnType
  split
  · split <;> exact kept_fixed (by decide)
  · exact kept_fixed (by decide)
  · exact kept_fixed (by decide)
  · exact kept_fixed (by decide)
  · exact kept_fixed (by decide)
  · exact kept_sqlName _
  all_goals exact kept_fixed (by decide)

theorem kept_literalClause {db : Database} {c : Column} (h : PlainDefault c) {v : Json}
    (hv : c.default = some (.literal v)) : Kept (literalClause db c.kind v) := by
  unfold literalClause
  split
  · exact kept_sqlText _
  · split
    next b => cases db <;> cases b <;> exact kept_fixed (by decide)
    next raw => exact h raw hv
    next text => exact kept_sqlText text
    next => exact kept_sqlText _

theorem kept_defaultClause (db : Database) {c : Column} (h : PlainDefault c) :
    Kept (defaultClause db c) := by
  unfold defaultClause
  split
  · exact kept_empty
  next v hv => exact (kept_fixed (by decide)).append (kept_literalClause h hv)
  · split <;> exact kept_fixed (by decide)

theorem kept_enumCheck (db : Database) (a : Application) (c : Column) :
    Kept (enumCheck db a c) := by
  unfold enumCheck
  split
  · split
    · exact kept_empty
    · exact ((((kept_fixed (by decide)).append (kept_sqlName _)).append
        (kept_fixed (by decide))).append (kept_sqlTexts _)).append (kept_fixed (by decide))
  · exact kept_empty

theorem kept_columnDef (db : Database) (a : Application) (t : Table) {c : Column}
    (h : PlainDefault c) : Kept (columnDef db a t c) := by
  unfold columnDef
  split
  · exact (kept_sqlName _).append (kept_fixed (by decide))
  · have htype := ((kept_sqlName c.name).append (kept_plain (by decide : " ".toList.all isPlain =
      true))).append (kept_columnType db c)
    refine (((htype.append ?_).append ?_).append (kept_enumCheck db a c)).append ?_
    · split
      · exact kept_fixed (by decide)
      · split <;> exact kept_fixed (by decide)
    · split
      · exact kept_empty
      · exact kept_defaultClause db h
    · split
      · exact kept_join (List.forall_mem_map.mpr fun k _ =>
          (kept_fixed (by decide)).append (kept_referenceClause k))
      · exact kept_empty

/-- A text that begins with a word. -/
def BeginsWithWord (s : String) : Prop := ∃ c rest, s.toList = c :: rest ∧ isBlank c = false

theorem beginsWithWord_of_head {s : String} (h : (s.toList.head?.any (!isBlank ·)) = true) :
    BeginsWithWord s := by
  cases hs : s.toList with
  | nil => simp [hs] at h
  | cons c rest => exact ⟨c, rest, hs, by simpa [hs] using h⟩

theorem BeginsWithWord.append {s : String} (h : BeginsWithWord s) (t : String) :
    BeginsWithWord (s ++ t) := by
  obtain ⟨c, rest, hs, hc⟩ := h
  exact ⟨c, rest ++ t.toList, by rw [String.toList_append, hs, List.cons_append], hc⟩

/-- A statement begins with a word and is taken in whole up to the semicolon at its end. -/
inductive IsStatement : String → Prop
  | intro {body : String} : BeginsWithWord body → Kept body → IsStatement (body ++ ";")

theorem isStatement_createTable (db : Database) (a : Application) {t : Table}
    (h : ∀ c ∈ t.columns, PlainDefault c) : IsStatement (createTable db a t) := by
  have hdefs : ∀ s ∈ t.columns.map (columnDef db a t) ++
      (if t.primaryKey.isEmpty then [] else ["primary key (" ++ sqlNames t.primaryKey ++ ")"]),
      Kept s := by
    intro s hs
    rcases List.mem_append.mp hs with hs | hs
    · obtain ⟨c, hc, rfl⟩ := List.mem_map.mp hs
      exact kept_columnDef db a t (h c hc)
    · split at hs
      · cases hs
      · cases List.mem_singleton.mp hs
        exact ((kept_fixed (by decide)).append (kept_sqlNames _)).append (kept_fixed (by decide))
  have hword : BeginsWithWord "create table if not exists " :=
    beginsWithWord_of_head (by decide)
  have hcomma : Kept ",\n  " := kept_fixed (by decide)
  have hbody := ((((kept_plain (s := "create table if not exists ") (by decide)).append
    (kept_sqlName t.name)).append (kept_plain (s := " (\n  ") (by decide))).append
    (kept_intercalate hcomma hdefs)).append (kept_plain (s := "\n)") (by decide))
  have hstatement := IsStatement.intro ((((hword.append _).append _).append _).append _) hbody
  rw [String.append_assoc] at hstatement
  exact hstatement

theorem isStatement_createIndex (t : Table) (c : Column) : IsStatement (createIndex t c) := by
  have hword : BeginsWithWord "create unique index if not exists " :=
    beginsWithWord_of_head (by decide)
  have hbody := ((((((kept_plain (s := "create unique index if not exists ") (by decide)).append
    (kept_sqlName (indexName t c))).append (kept_plain (s := " on ") (by decide))).append
    (kept_sqlName t.name)).append (kept_plain (s := " (") (by decide))).append
    (kept_sqlName c.name)).append (kept_plain (s := ")") (by decide))
  have hstatement := IsStatement.intro
    ((((((hword.append _).append _).append _).append _).append _).append _) hbody
  rw [String.append_assoc] at hstatement
  exact hstatement

theorem isStatement_addConstraint (t : Table) (k : ForeignKey) :
    IsStatement (addConstraint t k) := by
  have hword : BeginsWithWord "alter table " :=
    beginsWithWord_of_head (by decide)
  have hbody := (((((((kept_plain (s := "alter table ") (by decide)).append
    (kept_sqlName t.name)).append (kept_plain (s := " add constraint ") (by decide))).append
    (kept_sqlName (t.name ++ "_" ++ k.column ++ "_fk"))).append
    (kept_plain (s := " foreign key (") (by decide))).append (kept_sqlName k.column)).append
    (kept_plain (s := ") ") (by decide))).append (kept_referenceClause k)
  exact .intro (((((((hword.append _).append _).append _).append _).append _).append _).append _)
    hbody

theorem isStatement_createType (e : Enum) : IsStatement (createType e) := by
  have hword : BeginsWithWord "create type " :=
    beginsWithWord_of_head (by decide)
  have hbody := ((((kept_plain (s := "create type ") (by decide)).append
    (kept_sqlName (Text.snake e.name))).append (kept_plain (s := " as enum (") (by decide))).append
    (kept_sqlTexts e.values)).append (kept_plain (s := ")") (by decide))
  have hstatement := IsStatement.intro ((((hword.append _).append _).append _).append _) hbody
  rw [String.append_assoc] at hstatement
  exact hstatement

/-! ## What the reader makes of a text -/

/-- After a text, read from a piece that is blank so far, the reader has found some statements and is
at a blank piece again. -/
def Reads (s : String) (found : List String) : Prop :=
  ∀ current rest, (∀ c ∈ current, isBlank c = true) →
    ∃ read current', (∀ c ∈ current', isBlank c = true) ∧
      pieces .code current (s.toList ++ rest) = read ++ pieces .code current' rest ∧
      read.map (fun p => String.ofList (trimChars p)) = found

theorem reads_empty : Reads "" [] :=
  fun current _ hcurrent => ⟨[], current, hcurrent, rfl, rfl⟩

theorem Reads.append {s t : String} {xs ys : List String} (hs : Reads s xs) (ht : Reads t ys) :
    Reads (s ++ t) (xs ++ ys) := by
  intro current rest hcurrent
  obtain ⟨read, middle, hmiddle, hread, hxs⟩ := hs current (t.toList ++ rest) hcurrent
  obtain ⟨read', current', hcurrent', hread', hys⟩ := ht middle rest hmiddle
  refine ⟨read ++ read', current', hcurrent', ?_, by rw [List.map_append, hxs, hys]⟩
  rw [String.toList_append, List.append_assoc, hread, hread', List.append_assoc]

/-- Texts one after the other hold what each of them holds. -/
theorem reads_join {α : Type} {text : α → String} {found : α → List String} {xs : List α}
    (h : ∀ x ∈ xs, Reads (text x) (found x)) :
    Reads (String.join (xs.map text)) (xs.flatMap found) := by
  induction xs with
  | nil => exact reads_empty
  | cons x xs ih =>
    obtain ⟨hx, hxs⟩ := List.forall_mem_cons.mp h
    rw [List.map_cons, String.join_cons, List.flatMap_cons]
    exact hx.append (ih hxs)

theorem reads_newline : Reads "\n" [] := by
  intro current rest hcurrent
  refine ⟨[], '\n' :: current, fun c hc => ?_, kept_plain (s := "\n") (by decide) current rest, rfl⟩
  rcases List.mem_cons.mp hc with rfl | hc
  · rfl
  · exact hcurrent c hc

theorem pieces_comment {cs : List Char} (h : '\n' ∉ cs) (current rest : List Char) :
    pieces .comment current (cs ++ '\n' :: rest) = pieces .code ('\n' :: current) rest := by
  induction cs with
  | nil => rw [List.nil_append, pieces, if_pos rfl]
  | cons c cs ih =>
    have hc : c ≠ '\n' := fun heq => h (heq ▸ .head _)
    rw [List.cons_append, pieces, if_neg hc]
    exact ih fun hmem => h (.tail _ hmem)

/-- A comment on one line holds no statement. -/
theorem reads_comment {s : String} (h : '\n' ∉ s.toList) : Reads ("--" ++ s ++ "\n") [] := by
  intro current rest hcurrent
  refine ⟨[], '\n' :: current, List.forall_mem_cons.mpr ⟨by decide, hcurrent⟩, ?_, rfl⟩
  have hchars : ("--" ++ s ++ "\n").toList ++ rest = '-' :: '-' :: (s.toList ++ '\n' :: rest) := by
    simp
  rw [hchars, pieces, pieces_comment h]
  rfl

theorem trimChars_of_blank {cs : List Char} (h : ∀ c ∈ cs, isBlank c = true) : trimChars cs = [] := by
  rw [trimChars, List.dropWhile_eq_nil_iff.mpr h]
  rfl

/-- Blanks before a statement are left out, and it has none at its ends. -/
theorem trimChars_statement {blanks body : List Char} (hblanks : ∀ c ∈ blanks, isBlank c = true)
    {c : Char} {cs : List Char} (hbody : body = c :: cs) (hc : isBlank c = false) :
    trimChars (blanks ++ body ++ [';']) = body ++ [';'] := by
  have hfront : (blanks ++ body ++ [';']).dropWhile isBlank = body ++ [';'] := by
    rw [List.append_assoc, List.dropWhile_append_of_pos hblanks, hbody, List.cons_append,
      List.dropWhile_cons_of_neg (by simp [hc])]
  have hback : (body ++ [';']).reverse.dropWhile isBlank = (body ++ [';']).reverse := by
    rw [List.reverse_append, List.reverse_singleton, List.singleton_append,
      List.dropWhile_cons_of_neg (by decide)]
  rw [trimChars, hfront, hback, List.reverse_reverse]

theorem reads_statement {s : String} (h : IsStatement s) : Reads s [s] := by
  obtain @⟨body, ⟨c, cs, hbody, hc⟩, hkept⟩ := h
  intro current rest hcurrent
  refine ⟨[current.reverse ++ body.toList ++ [';']], [], List.forall_mem_nil _, ?_, ?_⟩
  · have hchars : (body ++ ";").toList ++ rest = body.toList ++ ';' :: rest := by simp
    rw [hchars, hkept, pieces_end]
    simp
  · have hblanks : ∀ x ∈ current.reverse, isBlank x = true := fun x hx =>
      hcurrent x (List.mem_reverse.mp hx)
    rw [List.map_singleton, trimChars_statement hblanks hbody hc, List.singleton_inj,
      ← String.toList_inj]
    simp

/-- The statements of a text are those that are found in it. -/
theorem statements_of_reads {s : String} {found : List String} (h : Reads s found)
    (hne : ∀ x ∈ found, x ≠ "") : statements s = found := by
  obtain ⟨read, current, hcurrent, hread, rfl⟩ := h [] [] (List.forall_mem_nil _)
  have hlast : trimChars current.reverse = [] :=
    trimChars_of_blank fun c hc => hcurrent c (List.mem_reverse.mp hc)
  have hend : pieces .code current [] = [current.reverse] := by cases current <;> rfl
  have hkeep : (read.map trimChars).filter (· ≠ []) = read.map trimChars := by
    refine List.filter_eq_self.mpr (List.forall_mem_map.mpr fun p hp => ?_)
    have hp := hne _ (List.mem_map_of_mem hp)
    rw [decide_eq_true_eq]
    intro hnil
    rw [hnil] at hp
    exact hp rfl
  rw [List.append_nil] at hread
  rw [statements, hread, hend, List.map_append, List.map_singleton, hlast, List.filter_append,
    hkeep, List.filter_cons_of_neg (by simp), List.filter_nil, List.append_nil, List.map_map]
  rfl

/-! ## The script of a schema -/

theorem isStatement_ne_empty {s : String} (h : IsStatement s) : s ≠ "" := by
  obtain @⟨body, -, -⟩ := h
  intro heq
  have hchars := congrArg String.toList heq
  simp at hchars

/-- The statements of a schema: types of enums first, then each table with its indexes, then foreign
keys. -/
theorem schemaStatements_eq (db : Database) (a : Application) (tables : List Table) :
    schemaStatements db a tables =
      (if db = .postgresql then a.enums.map createType else []) ++
      tables.flatMap (fun t =>
        createTable db a t :: (t.columns.filter (·.unique)).map (createIndex t)) ++
      (if db = .postgresql then tables.flatMap fun t => t.foreignKeys.map (addConstraint t)
      else []) := by
  have hgroup : ∀ g : List String, (if g.isEmpty then [] else [g]).flatten = g := by
    intro g
    cases g <;> simp
  simp only [schemaStatements, groups, List.flatten_append, hgroup, List.flatMap_def]

/-- Every statement of a schema is one, if defaults that are written as they stand are numbers. -/
theorem isStatement_of_mem {db : Database} {a : Application} {tables : List Table}
    (h : ∀ t ∈ tables, ∀ c ∈ t.columns, PlainDefault c) :
    ∀ s ∈ schemaStatements db a tables, IsStatement s := by
  intro s hs
  rw [schemaStatements_eq] at hs
  rcases List.mem_append.mp hs with hs | hs
  · rcases List.mem_append.mp hs with hs | hs
    · split at hs
      · obtain ⟨e, -, rfl⟩ := List.mem_map.mp hs
        exact isStatement_createType e
      · cases hs
    · obtain ⟨t, ht, hs⟩ := List.mem_flatMap.mp hs
      rcases List.mem_cons.mp hs with rfl | hs
      · exact isStatement_createTable db a (h t ht)
      · obtain ⟨c, -, rfl⟩ := List.mem_map.mp hs
        exact isStatement_createIndex t c
  · split at hs
    · obtain ⟨t, -, hs⟩ := List.mem_flatMap.mp hs
      obtain ⟨k, -, rfl⟩ := List.mem_map.mp hs
      exact isStatement_addConstraint t k
    · cases hs

theorem reads_line {s : String} (h : IsStatement s) : Reads (s ++ "\n") [s] :=
  (reads_statement h).append reads_newline

/-- The statements of a group stand on lines of their own, and a blank line follows. -/
theorem reads_group {g : List String} (h : ∀ s ∈ g, IsStatement s) :
    Reads (String.join (g.map fun statement => statement ++ "\n") ++ "\n") g := by
  have hlines := reads_join fun s hs => reads_line (h s hs)
  simpa using hlines.append reads_newline

theorem reads_groups {gs : List (List String)} (h : ∀ g ∈ gs, ∀ s ∈ g, IsStatement s) :
    Reads (String.join (gs.map fun g =>
      String.join (g.map fun statement => statement ++ "\n") ++ "\n")) gs.flatten := by
  rw [← List.flatMap_id']
  exact reads_join fun g hg => reads_group (h g hg)

theorem reads_generated : Reads ("--" ++ (" " ++ Output.generatedHeader) ++ "\n") [] := by
  refine reads_comment ?_
  rw [String.toList_append, Output.generatedHeader, String.toList_ofList, String.toList_ofList]
  decide

theorem heading_start : "-- " = "--" ++ " " := by decide

theorem heading_name : "\n-- application: " = "\n" ++ ("--" ++ " application: ") := by decide

/-- The name of an application stands in a comment, which holds nothing if it is one line. -/
theorem reads_heading {a : Application} (h : '\n' ∉ a.name.toList) (db : Database) :
    Reads ("-- " ++ Output.generatedHeader ++ "\n-- application: " ++ a.name ++ ", database: " ++
      db.name ++ "\n\n") [] := by
  have hname : '\n' ∉ (" application: " ++ a.name ++ ", database: " ++ db.name).toList := by
    cases db <;> simp [h, Database.name]
  have hall := (reads_generated.append (reads_comment hname)).append reads_newline
  have htext : "-- " ++ Output.generatedHeader ++ "\n-- application: " ++ a.name ++
      ", database: " ++ db.name ++ "\n\n" =
      "--" ++ (" " ++ Output.generatedHeader) ++ "\n" ++
        ("--" ++ (" application: " ++ a.name ++ ", database: " ++ db.name) ++ "\n") ++ "\n" := by
    have hfeeds : "\n\n" = "\n" ++ "\n" := by decide
    simp only [heading_start, heading_name, hfeeds, String.append_assoc, -String.reduceAppend]
  rw [htext]
  exact hall

/-- The region at the end holds comments alone. -/
theorem reads_region : Reads (Output.region "--" "schema" "") [] := by
  have htext : Output.region "--" "schema" "" =
      "--" ++ " stalmer:custom:begin schema" ++ "\n" ++
        ("--" ++ " stalmer:custom:end schema" ++ "\n") := by decide
  rw [htext]
  exact (reads_comment (by rw [String.toList_ofList]; decide)).append
    (reads_comment (by rw [String.toList_ofList]; decide))

/-- The script of a schema is read back as the statements that it was put together from. -/
theorem statements_schemaScript {db : Database} {a : Application} {tables : List Table}
    (hname : '\n' ∉ a.name.toList) (h : ∀ t ∈ tables, ∀ c ∈ t.columns, PlainDefault c) :
    statements (schemaScript db a tables) = schemaStatements db a tables := by
  have hall : ∀ s ∈ schemaStatements db a tables, IsStatement s := isStatement_of_mem h
  have hgroups : ∀ g ∈ groups db a tables, ∀ s ∈ g, IsStatement s := fun g hg s hs =>
    hall s (List.mem_flatten.mpr ⟨g, hg, hs⟩)
  have hreads := ((reads_heading hname db).append (reads_groups hgroups)).append reads_region
  rw [List.nil_append, List.append_nil] at hreads
  exact statements_of_reads hreads fun s hs => isStatement_ne_empty (hall s hs)

/-- Whatever stands before a statement and is no comment is read as its beginning. -/
theorem IsStatement.after {s t : String} (h : IsStatement s) (hword : BeginsWithWord t)
    (hkept : Kept t) : IsStatement (t ++ s) := by
  obtain @⟨body, -, hbody⟩ := h
  rw [← String.append_assoc]
  exact .intro (hword.append body) (hkept.append hbody)

/-- A name with a line break ends the comment that it stands in: the rest of the heading is read as
the beginning of the first statement. -/
theorem statements_lineBreak (db : Database) {a : Application} {tables : List Table}
    {start rest : String} (hname : a.name = start ++ "\n" ++ rest) (hstart : '\n' ∉ start.toList)
    (hword : BeginsWithWord rest) (hkept : Kept rest)
    (h : ∀ t ∈ tables, ∀ c ∈ t.columns, PlainDefault c) {first : String} {g : List String}
    {gs : List (List String)} (hgroups : groups db a tables = (first :: g) :: gs) :
    statements (schemaScript db a tables) =
      (rest ++ ", database: " ++ db.name ++ "\n\n" ++ first) :: (g ++ gs.flatten) := by
  have hall : ∀ s ∈ first :: (g ++ gs.flatten), IsStatement s := by
    have hall : ∀ s ∈ schemaStatements db a tables, IsStatement s := isStatement_of_mem h
    rwa [schemaStatements, hgroups] at hall
  obtain ⟨hfirst, hothers⟩ := List.forall_mem_cons.mp hall
  have hbreak : Kept (rest ++ ", database: " ++ db.name ++ "\n\n") := by
    refine ((hkept.append (kept_fixed (by decide))).append ?_).append (kept_fixed (by decide))
    cases db <;> exact kept_fixed (by decide)
  have hglued := hfirst.after (((hword.append _).append _).append _) hbreak
  have hheading := reads_generated.append
    (reads_comment (s := " application: " ++ start) (by simpa using hstart))
  have hgroup := reads_group fun s hs => hothers s (List.mem_append_left _ hs)
  have hreads := (((hheading.append (reads_line hglued)).append hgroup).append
    (reads_groups fun k hk s hs => hothers s
      (List.mem_append_right _ (List.mem_flatten.mpr ⟨k, hk, hs⟩)))).append reads_region
  have htext : schemaScript db a tables = "--" ++ (" " ++ Output.generatedHeader) ++ "\n" ++
      ("--" ++ (" application: " ++ start) ++ "\n") ++
      (rest ++ ", database: " ++ db.name ++ "\n\n" ++ first ++ "\n") ++
      (String.join (g.map fun statement => statement ++ "\n") ++ "\n") ++
      String.join (gs.map fun k =>
        String.join (k.map fun statement => statement ++ "\n") ++ "\n") ++
      Output.region "--" "schema" "" := by
    simp only [schemaScript, hgroups, hname, heading_start, heading_name, List.map_cons,
      String.join_cons, String.append_assoc, -String.reduceAppend]
  rw [htext]
  refine (statements_of_reads hreads fun s hs => ?_).trans (by simp)
  simp only [List.nil_append, List.append_nil, List.cons_append] at hs
  rcases List.mem_cons.mp hs with rfl | hs
  · exact isStatement_ne_empty hglued
  · exact isStatement_ne_empty (hothers s hs)

/-! ## Defaults of a source -/

open Scaffold.Source Scaffold.Check Scaffold.Build

theorem isPlain_of_isDigit {c : Char} (h : Text.isDigit c = true) : isPlain c = true := by
  have hne : ∀ d : Char, Text.isDigit d = false → c ≠ d := by
    rintro d hd rfl
    rw [h] at hd
    cases hd
  simp [isPlain, hne '\'' (by decide), hne '"' (by decide), hne ';' (by decide),
    hne '-' (by decide)]

theorem isPlain_numeral {digits : List Char} (h : IsNumeral digits) :
    digits.all isPlain = true := by
  refine List.all_eq_true.mpr fun c hc => ?_
  rcases h.chars c hc with hdigit | rfl
  · exact isPlain_of_isDigit hdigit
  · decide

/-- A number is taken in whole: the dash of its sign is followed by a digit. -/
theorem kept_number {raw : String} {pos : Pos} (h : (Value.number raw pos).IsSpelled) :
    Kept raw := by
  rcases h with h | ⟨digits, hraw, h⟩
  · exact kept_plain (isPlain_numeral h)
  · have hdigits : Kept (String.ofList digits) :=
      kept_plain (by simpa using isPlain_numeral h)
    intro current rest
    obtain ⟨d, ds, rfl⟩ := List.exists_cons_of_ne_nil h.ne_nil
    have hdash : d ≠ '-' := by
      rintro rfl
      exact absurd (List.all_eq_true.mp (isPlain_numeral h) '-' (.head _)) (by decide)
    have hsign : pieces .code current ('-' :: ((d :: ds) ++ rest)) =
        pieces .code ('-' :: current) ((d :: ds) ++ rest) := by
      rw [pieces]
      · simp
      · intro cs _ hcs
        exact hdash (List.cons.inj hcs).1
    have hrest := hdigits ('-' :: current) rest
    rw [String.toList_ofList] at hrest
    rw [hraw, List.cons_append, hsign, hrest]
    simp

/-- A default in a table is that of a field: references have none. -/
theorem default_of_field {a : Application} {given : List String} (ha : Plannable a given)
    {tables : List Table} (h : plan a = .ok tables) :
    ∀ t ∈ tables, ∀ c ∈ t.columns, ∀ d, c.default = some d →
      ∃ e ∈ a.entities, ∃ f ∈ e.fields, f.default = some d := by
  obtain ⟨own, joins, rfl, hown, hjoins⟩ := plan_filled ha h
  intro t ht c hc d hd
  rcases List.mem_append.mp ht with ht | ht
  · obtain ⟨e, he, hfilled⟩ := exists_of_mem_right hown ht
    obtain ⟨refs, hrefs, hcolumns, -⟩ := hfilled.references
    rw [hcolumns] at hc
    rcases List.mem_append.mp hc with hc | hc
    · obtain ⟨f, hf, rfl⟩ := List.mem_map.mp hc
      have hfield := List.mem_filter.mp (List.mem_filter.mp hf).1
      exact ⟨e, he, f, hfield.1, hd⟩
    · obtain ⟨q, hq, rfl⟩ := List.mem_map.mp hc
      obtain ⟨r, -, key, -, rfl⟩ := exists_of_mem_right hrefs hq
      cases hd
  · obtain ⟨r, -, left, right, -, -, rfl⟩ := exists_of_mem_right hjoins ht
    simp only [joinTable, List.mem_cons, List.not_mem_nil, or_false] at hc
    rcases hc with rfl | rfl <;> cases hd

theorem mem_values_of_default {f : FieldDecl} {v : Value} (h : f.default = some v) :
    v ∈ f.modifiers.flatMap Modifier.values := by
  obtain ⟨m, hm, hpick⟩ := List.mem_filterMap.mp (List.mem_of_getLast? h)
  refine List.mem_flatMap.mpr ⟨m, hm, ?_⟩
  cases m <;> cases hpick
  exact List.mem_singleton.mpr rfl

/-- A number that is built as a default stands as a number in the source. -/
theorem default_number {s : Symbols} {e : EntityDecl} {f : FieldDecl} {raw : String}
    (h : (buildField s e f).default = some (.literal (.number raw))) :
    ∃ pos, f.default = some (.number raw pos) := by
  simp only [buildField] at h
  split at h
  · cases h
  · obtain ⟨v, hv, hbuilt⟩ := Option.map_eq_some_iff.mp h
    cases v <;> cases hbuilt
    exact ⟨_, hv⟩

/-- Defaults of a compiled application that are written as they stand are numbers. -/
theorem compile_plainDefault {path : String} {source : List Text.Rune} {opts : CompileOptions}
    {app : Application} (h : compile path source opts = .ok app) {tables : List Table}
    (hp : plan app = .ok tables) : ∀ t ∈ tables, ∀ c ∈ t.columns, PlainDefault c := by
  intro t ht c hc raw hraw
  obtain ⟨e, he, f, hf, hdefault⟩ := default_of_field (compile_plannable h) hp t ht c hc _ hraw
  obtain ⟨file, hfile, -, -, rfl⟩ := compile_ok h
  obtain ⟨d, hd, rfl⟩ := List.mem_map.mp he
  obtain ⟨g, hg, rfl⟩ := List.mem_map.mp hf
  obtain ⟨pos, hnumber⟩ := default_number hdefault
  obtain ⟨decl, hdecl, hpick⟩ := List.mem_filterMap.mp hd
  cases decl <;> cases hpick
  have hvalue : Value.number raw pos ∈ (Decl.entity d).values :=
    List.mem_flatMap.mpr ⟨g, hg, mem_values_of_default hnumber⟩
  exact kept_number (parseSource_values hfile _ hdecl _ hvalue _ (mem_parts_self _))

/-- The script of a compiled application, in the form of either database, is read back as the
statements that were written into it, each unchanged and in order: the types of enums, each table
with its unique indexes, and the foreign keys. Its heading is one line when the name of the
application is. -/
theorem compile_statements {path : String} {source : List Text.Rune} {opts : CompileOptions}
    {app : Application} (h : compile path source opts = .ok app) (hname : '\n' ∉ app.name.toList)
    {db : Database} {script : String} (hddl : ddl app db = .ok script) :
    ∃ tables, plan app = .ok tables ∧
      statements script =
        (if db = .postgresql then app.enums.map createType else []) ++
        tables.flatMap (fun t =>
          createTable db app t :: (t.columns.filter (·.unique)).map (createIndex t)) ++
        (if db = .postgresql then tables.flatMap fun t => t.foreignKeys.map (addConstraint t)
        else []) := by
  obtain ⟨tables, hp, hscript⟩ := bind_eq_ok.mp hddl
  cases hscript
  refine ⟨tables, hp, ?_⟩
  rw [statements_schemaScript hname (compile_plainDefault h hp), schemaStatements_eq]

/-- Tickets whose names and defaults hold quotes, semicolons and dashes. -/
def tickets : List Text.Rune := [
  "config \x7b ",
  "name: \"it's -- a 'desk';\" ",
  "db: postgresql \x7d ",
  "entity User \x7b ",
  "id: Int primaryKey ",
  "name: String unique ",
  "default(\"a;'b' -- c\") \x7d ",
  "entity Ticket \x7b ",
  "id: Int primaryKey ",
  "rank: Decimal ",
  "default(-1.5) ",
  "owner: User ",
  "level: Level ",
  "default(LOW) ",
  "data: JSON ",
  "default(\x7b q: \"--'\" \x7d) \x7d ",
  "enum Level \x7b LOW HIGH \x7d"].flatMap Text.runes

theorem tickets_statements : ∃ app script, compile "" tickets ⟨[], ""⟩ = .ok app ∧
    '\n' ∉ app.name.toList ∧ ddl app .postgresql = .ok script ∧ ∃ tables, plan app = .ok tables ∧
    statements script = app.enums.map createType ++
      tables.flatMap (fun t =>
        createTable .postgresql app t :: (t.columns.filter (·.unique)).map (createIndex t)) ++
      tables.flatMap fun t => t.foreignKeys.map (addConstraint t) := by
  obtain ⟨app, tables, hc, hp, hname⟩ := planned?_any tickets
    (p := fun app _ => '\n' ∉ app.name.toList)
    (by simp only [tickets, List.flatMap_cons]; repeat rw [Text.runes_ofList]
        decide +kernel)
  have hddl : ddl app .postgresql = .ok (schemaScript .postgresql app tables) := by
    rw [ddl, hp]
    rfl
  exact ⟨app, _, hc, hname, hddl, compile_statements hc hname hddl⟩

/-- An application whose name has a line break. -/
def broken : List Text.Rune := [
  "config \x7b ",
  "name: \"help\\ndesk\" \x7d ",
  "entity Note \x7b ",
  "id: Int primaryKey \x7d"].flatMap Text.runes

/-- The second line of the name is read as the beginning of the first statement. -/
theorem broken_statements : ∃ app tables, compile "" broken ⟨[], ""⟩ = .ok app ∧
    plan app = .ok tables ∧ statements (schemaScript .sqlite app tables) ≠
      tables.flatMap fun t =>
        createTable .sqlite app t :: (t.columns.filter (·.unique)).map (createIndex t) := by
  obtain ⟨app, tables, hcompile, hplan, hname, hlength⟩ := planned?_any broken
    (p := fun app tables => app.name = "help\ndesk" ∧ tables.length = 1)
    (by simp only [broken, List.flatMap_cons]; repeat rw [Text.runes_ofList]
        decide +kernel)
  obtain ⟨t, rfl⟩ := List.length_eq_one_iff.mp hlength
  have hname : app.name = "help" ++ "\n" ++ "desk" := hname
  have hgroups : groups .sqlite app [t] =
      [createTable .sqlite app t :: (t.columns.filter (·.unique)).map (createIndex t)] := rfl
  have hread := statements_lineBreak .sqlite hname (by decide)
    (beginsWithWord_of_head (by decide)) (kept_fixed (by decide))
    (compile_plainDefault hcompile hplan) hgroups
  refine ⟨app, [t], hcompile, hplan, fun heq => ?_⟩
  have hfirst := (List.cons.inj (hread.symm.trans heq)).1
  have hlengths := congrArg String.length hfirst
  simp at hlengths

end Scaffold.Storage
