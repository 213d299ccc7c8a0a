import Mathlib.Data.List.SplitBy
import Scaffold.Code.Columns
import Scaffold.Code.Listing
import Scaffold.Proofs.Json.Bare
import Scaffold.Proofs.Output.Written

/-! # Code without markers

Quoted texts, comments, columns and terms have no marker when the texts in them have none, and a
listing has the regions of its parts. -/
namespace Scaffold.Code

open Scaffold.Output
open Scaffold.Text (quoted escapedChar unlines)

/-! ## Quoted texts -/

/-- An escaped character begins with a backslash. -/
theorem isSeal_escapedChar (c : Char) :
    escapedChar '"' c = [c] ∨ IsSeal (String.ofList (escapedChar '"' c)) := by
  have hbackslash {cs : List Char} (hs : 's' ∉ cs) : IsSeal (String.ofList ('\\' :: cs)) :=
    isSeal_cons Json.backslash_notMem (by decide) hs
  have hletters : ∀ p ∈ Text.controlLetters, 's' ∉ [p.2] := by decide
  have hquotes : ∀ d ∈ ['"', '\\'], 's' ∉ [d] := by simp
  unfold escapedChar
  split
  next hc => exact .inr (hbackslash (hquotes c (by simpa using hc)))
  split
  · exact .inl rfl
  split
  next letter hletter =>
    obtain ⟨before, after, hsplit, -⟩ := List.lookup_eq_some_iff.mp hletter
    exact .inr (hbackslash (hletters (c, letter) (by simp [hsplit])))
  split
  · exact .inr (hbackslash (by simp [Json.s_notMem_hexDigits]))
  split
  · exact .inr (hbackslash (by simp [Json.s_notMem_hexDigits]))
  · exact .inr (hbackslash (by simp [Json.s_notMem_hexDigits]))

theorem quoted_eq (s : String) :
    quoted s = "\"" ++ String.ofList (s.toList.flatMap (escapedChar '"')) ++ "\"" := by
  simp [quoted, Text.quoteWith, String.ofList_cons, String.append_assoc]

theorem unmarked_quoted {s : String} (h : Unmarked s) : Unmarked (quoted s) := by
  have hquote : IsSeal "\"" := by decide
  rw [quoted_eq, unmarked_before hquote, unmarked_after hquote]
  exact unmarked_escaped isSeal_escapedChar h

/-- A colon may stand in a marker, but not next to a quote. -/
theorem unmarked_quoted_colon {s : String} (h : Unmarked s) : Unmarked (quoted s ++ ":") := by
  have hcolon : "\"" ++ ":" = "\":" := by decide
  rw [quoted_eq, String.append_assoc, hcolon, unmarked_before (by decide), unmarked_after (by decide)]
  exact unmarked_escaped isSeal_escapedChar h

/-! ## Comments -/

/-- A run of characters stays as it is or becomes a few quotes. -/
theorem curlyRun_quotes (run : List Char) : curlyRun run = run ∨
    curlyRun run ≠ [] ∧ ∀ c ∈ curlyRun run, c ∈ ['“', '”', '\''] := by
  unfold curlyRun
  split
  · split
    · exact .inr ⟨by simp, by simp⟩
    · exact .inl rfl
  next cs =>
    refine .inr ⟨fun hnil => ?_, fun c hc => ?_⟩
    · have hlen := congrArg List.length hnil
      simp only [List.length_append, List.length_replicate, List.length_nil] at hlen
      omega
    · simp only [List.mem_append, List.mem_replicate] at hc
      rcases hc with ⟨-, rfl⟩ | ⟨-, rfl⟩ <;> simp
  · exact .inl rfl

theorem isSeal_of_quotes {cs : List Char} (hne : cs ≠ []) (h : ∀ c ∈ cs, c ∈ ['“', '”', '\'']) :
    IsSeal (String.ofList cs) := by
  have hforeign : ∀ c ∈ ['“', '”', '\''], (∀ m ∈ markers, c ∉ m) ∧ c ≠ '\r' ∧ c ≠ 's' := by simp [markers]
  cases cs with
  | nil => exact absurd rfl hne
  | cons c cs =>
    obtain ⟨hc, hcs⟩ := List.forall_mem_cons.mp h
    exact isSeal_cons (hforeign c hc).1 (hforeign c hc).2.1
      fun hs => (hforeign 's' (hcs 's' hs)).2.2 rfl

theorem unmarked_curlyQuotes {s : String} (h : Unmarked s) :
    Unmarked (String.ofList (curlyQuotes s.toList)) := by
  have hruns : (s.toList.splitBy (· == ·)).flatMap id = s.toList := by
    rw [List.flatMap_id, List.flatten_splitBy]
  refine unmarked_flatMap id (fun run _ => ?_) (by simpa [hruns] using h)
  exact (curlyRun_quotes run).imp_right fun ⟨hne, hall⟩ => isSeal_of_quotes hne hall

theorem unmarked_docComment {text : String} (h : Unmarked text) : Unmarked (docComment text) := by
  unfold docComment
  dsimp only
  rw [unmarked_after (by decide)]
  split
  · simpa [Unmarked, shown] using h
  · exact unmarked_curlyQuotes h

/-! ## Columns -/

theorem unmarked_join_of_length {cells : List String} (hlen : cells.length ≤ 1)
    (h : ∀ c ∈ cells, Unmarked c) : Unmarked (String.join cells) := by
  match cells with
  | [] => exact unmarked_empty
  | [c] => simpa using h c (.head _)
  | _ :: _ :: _ => simp at hlen

theorem le_foldl_max (ns : List Nat) (m : Nat) :
    m ≤ ns.foldl max m ∧ ∀ n ∈ ns, n ≤ ns.foldl max m := by
  induction ns generalizing m with
  | nil => simp
  | cons k ns ih =>
    obtain ⟨hstart, hall⟩ := ih (max m k)
    rw [List.foldl_cons]
    exact ⟨by omega, List.forall_mem_cons.mpr ⟨by omega, hall⟩⟩

/-- A padded cell ends with a blank, unless no cell of its column has any text. -/
theorem unmarked_padded {cells : List String} {cell rest : String} (hcell : cell ∈ cells)
    (hc : Unmarked cell) (hr : Unmarked rest) :
    Unmarked (padded (columnWidth cells) cell ++ rest) := by
  have hmax : cell.length ≤ (cells.map String.length).foldl max 0 :=
    (le_foldl_max _ 0).2 _ (List.mem_map_of_mem hcell)
  unfold columnWidth padded
  split
  next hzero =>
    rw [hzero, Nat.le_zero, String.length_eq_zero_iff] at hmax
    simpa [hmax] using hr
  next widest hwidest =>
    rw [hwidest] at hmax
    have hblank : ∃ k, widest + 2 - cell.length = k + 1 := ⟨widest + 1 - cell.length, by omega⟩
    obtain ⟨k, hk⟩ := hblank
    rw [hk, List.replicate_succ, unmarked_sealed (isSeal_cons (by decide) (by decide) (by simp))]
    exact ⟨hc, hr⟩

theorem mem_zipWith {α β γ : Type} {f : α → β → γ} {xs : List α} {ys : List β} {z : γ}
    (h : z ∈ List.zipWith f xs ys) : ∃ x y, x ∈ xs ∧ y ∈ ys ∧ z = f x y := by
  rw [← List.map_uncurry_zip_eq_zipWith] at h
  obtain ⟨⟨x, y⟩, hmem, rfl⟩ := List.mem_map.mp h
  exact ⟨x, y, (List.of_mem_zip hmem).1, (List.of_mem_zip hmem).2, rfl⟩

theorem unmarked_alignColumns {columns : Nat} {rows : List (List String)}
    (hlen : ∀ row ∈ rows, row.length ≤ columns) (h : ∀ row ∈ rows, ∀ c ∈ row, Unmarked c) :
    ∀ line ∈ alignColumns columns rows, Unmarked line := by
  induction columns generalizing rows with
  | zero =>
    refine List.forall_mem_map.mpr fun row hrow => unmarked_join_of_length ?_ (h row hrow)
    exact Nat.le_trans (hlen row hrow) (by decide)
  | succ columns ih =>
    intro line hline
    obtain ⟨run, hrun, hline⟩ := List.mem_flatMap.mp hline
    have hsub : ∀ row ∈ run, row ∈ rows := fun row hrow => by
      rw [← List.flatten_splitBy _ rows]
      exact List.mem_flatten_of_mem hrun hrow
    have hcells : ∀ row ∈ run, ∀ c ∈ row, Unmarked c := fun row hrow => h row (hsub row hrow)
    split at hline
    next =>
      obtain ⟨row, rest, hrow, hrest, rfl⟩ := mem_zipWith hline
      have hhead : Unmarked (row.headD "") := by
        cases row with
        | nil => exact unmarked_empty
        | cons c cs => exact hcells _ hrow c (.head _)
      refine unmarked_padded (List.mem_map_of_mem hrow) hhead (ih ?_ ?_ rest hrest)
      · refine List.forall_mem_map.mpr fun r hr => ?_
        have := hlen r (hsub r hr)
        rw [List.length_tail]
        omega
      · exact List.forall_mem_map.mpr fun r hr c hc => hcells r hr c (List.mem_of_mem_tail hc)
    next hshort =>
      obtain ⟨row, hrow, rfl⟩ := List.mem_map.mp hline
      refine unmarked_join_of_length ?_ (hcells row hrow)
      simp only [List.any_eq_true, decide_eq_true_eq, not_exists, not_and] at hshort
      exact Nat.not_lt.mp (hshort row hrow)

theorem unmarked_aligned {rows : List (List String)} (h : ∀ row ∈ rows, ∀ c ∈ row, Unmarked c) :
    ∀ line ∈ aligned rows, Unmarked line :=
  unmarked_alignColumns
    (fun _ hrow => (le_foldl_max _ 0).2 _ (List.mem_map_of_mem hrow)) h

/-! ## Terms -/

/-- No text in a term has a marker. -/
def Term.Bare : Term → Prop
  | field name => Unmarked name
  | number raw => Unmarked raw
  | text value => Unmarked value
  | call function arg more => Unmarked function ∧ arg.Bare ∧ ∀ s ∈ more, Unmarked s
  | method target name arg => target.Bare ∧ Unmarked name ∧ Unmarked arg
  | parens inner => inner.Bare
  | binary _ left right => left.Bare ∧ right.Bare

theorem isSeal_symbol (op : Source.Operator) {blank : String} (h : blank ∈ [" ", ""]) :
    IsSeal (blank ++ op.symbol ++ blank) := by
  have hall : ∀ op ∈ [Source.Operator.add, .sub, .mul, .div], ∀ blank ∈ [" ", ""],
      IsSeal (blank ++ op.symbol ++ blank) := by decide
  exact hall op (by cases op <;> simp) blank h

theorem unmarked_print {t : Term} (h : t.Bare) (depth : Nat) : Unmarked (t.print depth) := by
  induction t generalizing depth with
  | field name => exact (unmarked_after (by decide) name).mpr h
  | number raw => exact h
  | text value => exact unmarked_quoted h
  | call function arg more ih =>
    obtain ⟨hfunction, harg, hmore⟩ := h
    simp only [Term.print]
    rw [unmarked_before (by decide), unmarked_sealed (by decide), unmarked_intercalate (by decide)]
    exact ⟨hfunction, List.forall_mem_cons.mpr ⟨ih harg _, hmore⟩⟩
  | method target name arg ih =>
    obtain ⟨htarget, hname, harg⟩ := h
    rw [Term.print, unmarked_before (by decide), unmarked_sealed (by decide),
      unmarked_sealed (by decide)]
    exact ⟨⟨ih htarget depth, hname⟩, harg⟩
  | parens inner ih =>
    rw [Term.print, unmarked_before (by decide), unmarked_after (by decide)]
    exact ih h _
  | binary op left right hl hr =>
    simp only [Term.print]
    generalize hblank : (if depth ≤ 1 || Term.signsMeet op right then " " else "") = blank
    have hmem : blank ∈ [" ", ""] := by
      rw [← hblank]
      split <;> simp
    have hprint : left.print (depth + 1) ++ blank ++ op.symbol ++ blank ++
        right.print (depth + 1) = left.print (depth + 1) ++ (blank ++ op.symbol ++ blank) ++
          right.print (depth + 1) := by
      simp only [String.append_assoc]
    rw [hprint, unmarked_sealed (isSeal_symbol op hmem)]
    exact ⟨hl h.1 _, hr h.2 _⟩

/-! ## Listings -/

theorem unlines_eq {ls : List String} (h : ls ≠ []) :
    unlines ls = "\n".intercalate ls ++ "\n" := by
  induction ls with
  | nil => exact absurd rfl h
  | cons l ls ih =>
    cases ls with
    | nil => simp [unlines]
    | cons m ms =>
      have hrest := ih (by simp)
      simp only [unlines, List.map_cons, String.join_cons] at hrest ⊢
      simp only [hrest, String.intercalate_cons_cons, String.append_assoc]

/-- Blocks with blank lines between them. -/
theorem lays_blocks {blocks : List (List String)} {regions : List (List Region)}
    (h : List.Forall₂ (fun b rs => b ≠ [] ∧ Lays (unlines b) rs) blocks regions)
    (hne : blocks ≠ []) :
    Lays ("\n\n".intercalate (blocks.map ("\n".intercalate ·)) ++ "\n") regions.flatten := by
  induction h with
  | nil => exact absurd rfl hne
  | @cons b rs bs rss hb hbs ih =>
    obtain ⟨hfilled, hb⟩ := hb
    rw [unlines_eq hfilled] at hb
    cases hbs with
    | nil => simpa using hb
    | @cons c qs cs qss hc hcs =>
      have hblank : Lays "\n" [] := lays_line unmarked_empty
      have hrest := ih (by simp)
      rw [List.map_cons, List.map_cons, String.intercalate_cons_cons, List.flatten_cons]
      rw [List.map_cons] at hrest
      generalize "\n\n".intercalate _ = rest at hrest ⊢
      have hlines : "\n\n" = "\n" ++ "\n" := by decide
      have happend := hb.append (hblank.append hrest)
      simpa only [hlines, String.append_assoc, List.nil_append] using happend

theorem unmarked_importLines {l : Listing} (h : ∀ p ∈ l.imports, Unmarked p) :
    ∀ b ∈ l.importLines, b ≠ [] ∧ ∀ line ∈ b, Unmarked line := by
  unfold Listing.importLines
  split
  · simp
  · refine List.forall_mem_singleton.mpr ⟨by simp, ?_⟩
    simp only [List.forall_mem_append, List.forall_mem_map, List.forall_mem_singleton]
    refine ⟨⟨by decide, fun p hp => ?_⟩, by decide⟩
    rw [unmarked_after (by decide)]
    refine unmarked_quoted (h p ?_)
    simpa [Listing.sortedImports, List.mem_eraseDups] using hp

/-- A part has lines, with these regions among them. -/
structure Part.Lays (p : Part) (regions : List Region) : Prop where
  filled : p.lines ≠ []
  lays : Output.Lays (unlines p.lines) regions

theorem Part.lays_unmarked {p : Part} (hne : p.lines ≠ []) (h : ∀ l ∈ p.lines, Unmarked l) :
    p.Lays [] :=
  ⟨hne, lays_unlines h⟩

/-- The regions of a listing are those of its parts. -/
theorem lays_listing {l : Listing} {regions : List (List Region)}
    (himports : ∀ p ∈ l.imports, Unmarked p) (h : List.Forall₂ Part.Lays l.parts regions) :
    Lays l.text regions.flatten := by
  have hfixed : List.Forall₂ (fun b rs => b ≠ [] ∧ Lays (unlines b) rs)
      ([["// " ++ generatedHeader], ["package app"]] ++ l.importLines)
      (([["// " ++ generatedHeader], ["package app"]] ++ l.importLines).map fun _ => []) := by
    rw [List.forall₂_map_right_iff, List.forall₂_same]
    have hheader : Unmarked ("// " ++ generatedHeader) :=
      (unmarked_after (by decide) _).mpr unmarked_generatedHeader
    have hhead : ∀ b ∈ [["// " ++ generatedHeader], ["package app"]],
        b ≠ [] ∧ ∀ line ∈ b, Unmarked line :=
      List.forall_mem_cons.mpr ⟨⟨by simp, List.forall_mem_singleton.mpr hheader⟩, by decide⟩
    have hall := List.forall_mem_append.mpr ⟨hhead, unmarked_importLines himports⟩
    exact fun b hb => ⟨(hall b hb).1, lays_unlines (hall b hb).2⟩
  have hparts : List.Forall₂ (fun b rs => b ≠ [] ∧ Lays (unlines b) rs)
      (l.parts.map (·.lines)) regions :=
    List.forall₂_map_left_iff.mpr (h.imp fun _ _ hp => ⟨hp.filled, hp.lays⟩)
  have hblocks := lays_blocks (List.rel_append hfixed hparts) (by simp)
  rw [List.flatten_append] at hblocks
  simpa [Listing.text, Listing.blocks] using hblocks

/-- Parts without regions. -/
theorem lays_unmarkedListing {l : Listing} (himports : ∀ p ∈ l.imports, Unmarked p)
    (h : ∀ p ∈ l.parts, p.Lays []) : Lays l.text [] := by
  have hparts : List.Forall₂ Part.Lays l.parts (l.parts.map fun _ => []) := by
    rwa [List.forall₂_map_right_iff, List.forall₂_same]
  have hlisting := lays_listing himports hparts
  rwa [List.flatten_eq_nil_iff.mpr (by simp)] at hlisting

end Scaffold.Code
