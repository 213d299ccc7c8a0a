import Scaffold.Proofs.Output.Merge
import Scaffold.Proofs.Output.Unmarked

/-! # Texts as they are written

A text is put together from whole lines without markers and from regions. Such a text reads as
exactly these regions, provided that their ids are told apart. -/
namespace Scaffold.Output

open Scaffold.Text

/-! ## Marker lines -/

/-- The first occurrence is known where no part of it begins before. -/
theorem cut?_overlaps {needle before : List Char} (h : overlaps before needle = false)
    (rest : List Char) : cut? needle (before ++ needle ++ rest) = some (before, rest) := by
  induction before with
  | nil =>
    have hafter : after? needle (needle ++ rest) = some rest := after?_eq_some.mpr rfl
    cases hcs : needle ++ rest with
    | nil =>
      obtain ⟨rfl, rfl⟩ := List.append_eq_nil_iff.mp hcs
      rfl
    | cons c cs =>
      rw [hcs] at hafter
      simp [cut?, hcs, hafter]
  | cons c cs ih =>
    rw [overlaps, Bool.or_eq_false_iff] at h
    have hnone : after? needle (c :: cs ++ needle ++ rest) = none := by
      rw [after?_eq_none]
      intro hstart
      have hprefix : c :: cs <+: c :: cs ++ needle ++ rest := by simp
      have hagree := agree_iff.mpr (List.prefix_or_prefix_of_prefix hprefix hstart)
      rw [h.1] at hagree
      cases hagree
    have hcut := ih h.2
    simp only [List.cons_append] at hnone ⊢
    simp only [cut?, hnone, hcut, Option.map_some]

/-- The line of a marker in a comment. -/
def markerLine (comment marker id : String) : String :=
  comment ++ " " ++ marker ++ " " ++ id ++ "\n"

theorem word_eq {id : String} (hne : id ≠ "") (hid : ∀ c ∈ id.toList, isBlank c = false) :
    word (id.toList ++ ['\n']) = id.toList := by
  have hdrop : (id.toList ++ ['\n']).dropWhile isBlank = id.toList ++ ['\n'] := by
    cases hcs : id.toList with
    | nil => exact absurd (by simpa using hcs) hne
    | cons c cs =>
      have hc := hid c (hcs ▸ .head _)
      simp [hc]
  have hnewline : isBlank '\n' = true := by decide
  rw [word, hdrop, List.takeWhile_append_of_pos fun c hc => by simp [hid c hc]]
  simp [hnewline]

theorem marker?_markerLine {comment marker id : String}
    (hc : overlaps (comment ++ " ").toList (marker ++ " ").toList = false) (hne : id ≠ "")
    (hid : ∀ c ∈ id.toList, isBlank c = false) :
    marker? marker (markerLine comment marker id) = some (comment ++ " ", id) := by
  have hline : (markerLine comment marker id).toList =
      (comment ++ " ").toList ++ (marker ++ " ").toList ++ (id.toList ++ ['\n']) := by
    simp [markerLine]
  have hneedle : marker.toList ++ [' '] = (marker ++ " ").toList := by simp
  rw [marker?_eq, hline, hneedle, cut?_overlaps hc, Option.bind_some, word_eq hne hid]
  simp [hne]

/-- A comment sign, with blanks before it. -/
structure IsComment (comment : String) : Prop where
  opens : overlaps (comment ++ " ").toList (beginMarker ++ " ").toList = false
  closes : overlaps (comment ++ " ").toList (endMarker ++ " ").toList = false
  unmarked : Unmarked comment
  line : '\n' ∉ comment.toList

/-- A word that may stand behind a marker. -/
structure IsId (id : String) : Prop where
  ne_empty : id ≠ ""
  unbroken : ∀ c ∈ id.toList, isBlank c = false
  unmarked : Unmarked id

theorem begin_mem_markers : beginMarker.toList ∈ markers := by
  rw [markers_eq]
  exact .head _

theorem end_mem_markers : endMarker.toList ∈ markers := by
  rw [markers_eq]
  exact .tail _ (.head _)

/-- A line in which no marker occurs is a plain one. -/
theorem plain_of_free {l : String} (h : Free l.toList) : Plain l := by
  have hnone {marker : String} (hm : marker.toList ∈ markers) : marker? marker l = none :=
    marker?_eq_none_of_absent fun hin => h _ hm ((List.prefix_append _ _).isInfix.trans hin)
  exact ⟨hnone begin_mem_markers, hnone end_mem_markers⟩

theorem plain_of_unmarked {l : String} (h : Unmarked l) : Plain l :=
  plain_of_free fun _ hm => h.not_infix hm

/-- The line that closes a region opens none. -/
theorem begin_closing {comment id : String}
    (hopens : overlaps (comment ++ " ").toList (beginMarker ++ " ").toList = false)
    (hid : ∀ c ∈ id.toList, isBlank c = false) :
    marker? beginMarker (markerLine comment endMarker id) = none := by
  have hline : (markerLine comment endMarker id).toList =
      (comment ++ " ").toList ++ (endMarker ++ " ").toList ++ (id ++ "\n").toList := by
    simp [markerLine]
  have hneedle : beginMarker.toList ++ [' '] = (beginMarker ++ " ").toList := by simp
  have hspace : ' ' ∉ (id ++ "\n").toList := by
    have hword : ' ' ∉ id.toList := fun h => absurd (hid _ h) (by decide)
    simp [hword]
  refine marker?_eq_none_of_absent fun hin => ?_
  rw [hline, hneedle, infix_sealed (by decide) (by decide +kernel) (by decide +kernel)] at hin
  rcases hin with h | h
  · exact not_infix_of_overlaps (by decide) hopens h
  · exact hspace (h.subset (by simp))

theorem unmarked_lines {s : String} (h : Unmarked s) : ∀ l ∈ lines s, Unmarked l := by
  intro l hl
  obtain ⟨before, after, hsplit⟩ := List.append_of_mem hl
  have hchars := congrArg String.toList (join_lines s)
  rw [hsplit] at hchars
  exact h.of_infix ⟨(String.join before).toList, (String.join after).toList, by simpa using hchars⟩

/-! ## Regions -/

/-- A region as it is written: between the lines of its markers stands its body. -/
def Region.written (comment id body : String) : Region where
  id := id
  lead := comment ++ " "
  opening := markerLine comment beginMarker id
  body := lines (if body = "" then "" else closeLine body)
  closing := markerLine comment endMarker id

theorem Region.text_written (comment id body : String) :
    (Region.written comment id body).text = region comment id body := by
  simp only [Region.text, Region.written, join_lines, region, markerLine, String.append_assoc]

/-- The lines of a body are whole, and have no markers where the given ones have none. -/
theorem Region.body_written {comment id body : String} (hbody : ∀ l ∈ lines body, Plain l) :
    ∀ l ∈ (Region.written comment id body).body, IsLine l ∧ Plain l := by
  by_cases hempty : body = ""
  · simp [Region.written, hempty, lines, linesFrom]
  · have hlines : (Region.written comment id body).body = (lines body).map closeLine := by
      rw [Region.written, if_neg hempty, lines_closeLine hempty]
    rw [hlines]
    refine fun l hl => ⟨(lined_lines body).close l hl, ?_⟩
    obtain ⟨m, hm, rfl⟩ := List.mem_map.mp hl
    exact plain_closeLine (hbody m hm)

theorem isLine_markerLine {comment marker id : String} (hc : '\n' ∉ comment.toList)
    (hm : '\n' ∉ marker.toList) (hid : ∀ c ∈ id.toList, isBlank c = false) :
    IsLine (markerLine comment marker id) := by
  have hbreak : '\n' ∉ id.toList := fun h => absurd (hid _ h) (by decide)
  exact ⟨(comment ++ " " ++ marker ++ " " ++ id).toList, by simp [hc, hm, hbreak],
    by simp [markerLine]⟩

/-! ## Whole texts -/

/-- A text is made of whole lines: those of the regions, in this order, and lines without markers
around them. -/
def Lays (text : String) (regions : List Region) : Prop :=
  ∃ chunks, regionsOf chunks = regions ∧ text = String.join (chunks.flatMap Chunk.lines) ∧
    (∀ l ∈ chunks.flatMap Chunk.lines, IsLine l) ∧ ∀ c ∈ chunks, c.Marked

theorem Lays.append {s t : String} {rs qs : List Region} (hs : Lays s rs) (ht : Lays t qs) :
    Lays (s ++ t) (rs ++ qs) := by
  obtain ⟨cs, rfl, rfl, hcs, hcm⟩ := hs
  obtain ⟨ds, rfl, rfl, hds, hdm⟩ := ht
  refine ⟨cs ++ ds, regionsOf_append cs ds, ?_, ?_, List.forall_mem_append.mpr ⟨hcm, hdm⟩⟩
  · rw [List.flatMap_append, String.join_append]
  · rw [List.flatMap_append]
    exact List.forall_mem_append.mpr ⟨hcs, hds⟩

theorem lays_empty : Lays "" [] := ⟨[], rfl, rfl, by simp, by simp⟩

/-- Lines that neither open nor close a region. -/
theorem lays_wholeLines {s : String} (h : WholeLines s) : Lays s [] := by
  refine ⟨(lines s).map Chunk.line, ?_, ?_, ?_, ?_⟩
  · simp [regionsOf, List.filterMap_map]
  · simp [List.flatMap_map, Chunk.lines, List.flatMap_singleton', join_lines]
  · simpa [List.flatMap_map, Chunk.lines, List.flatMap_singleton'] using isLine_of_endsWith h.1
  · exact List.forall_mem_map.mpr h.2

/-- Lines without markers. -/
theorem lays_unmarked {s : String} (h : Unmarked s) (hend : s = "" ∨ endsWith s "\n" = true) :
    Lays s [] :=
  lays_wholeLines ⟨hend, fun l hl => plain_of_unmarked (unmarked_lines h l hl)⟩

/-- A line without markers. -/
theorem lays_line {l : String} (h : Unmarked l) : Lays (l ++ "\n") [] :=
  lays_unmarked ((unmarked_before (by decide) l).mpr h)
    (.inr (endsWith_newline.mpr ⟨l.toList, by simp⟩))

/-- A region reads as it is written if no marker begins in the comment, the id is one word, and the
lines of the body have no markers. -/
theorem lays_written {comment id body : String}
    (hopens : overlaps (comment ++ " ").toList (beginMarker ++ " ").toList = false)
    (hcloses : overlaps (comment ++ " ").toList (endMarker ++ " ").toList = false)
    (hline : '\n' ∉ comment.toList) (hne : id ≠ "") (hid : ∀ c ∈ id.toList, isBlank c = false)
    (hbody : ∀ l ∈ lines body, Plain l) :
    Lays (region comment id body) [.written comment id body] := by
  have hlines : ∀ l ∈ (Region.written comment id body).body, IsLine l ∧ Plain l :=
    Region.body_written hbody
  refine ⟨[.region (.written comment id body)], rfl, ?_, ?_, List.forall_mem_singleton.mpr ?_⟩
  · rw [← Region.text_written]
    simp [Region.text, Chunk.lines, String.append_assoc]
  · rw [List.flatMap_singleton, Chunk.lines, List.forall_mem_append, List.forall_mem_cons,
      List.forall_mem_singleton]
    exact ⟨⟨isLine_markerLine hline newline_notMem_beginMarker hid, fun l hl => (hlines l hl).1⟩,
      isLine_markerLine hline newline_notMem_endMarker hid⟩
  · exact ⟨marker?_markerLine hopens hne hid, fun l hl => (hlines l hl).2,
      begin_closing hopens hid, _, marker?_markerLine hcloses hne hid⟩

theorem lays_region {comment id body : String} (hc : IsComment comment) (hid : IsId id)
    (hbody : Unmarked body) : Lays (region comment id body) [.written comment id body] :=
  lays_written hc.opens hc.closes hc.line hid.ne_empty hid.unbroken
    fun l hl => plain_of_unmarked (unmarked_lines hbody l hl)

/-- Texts one behind the other. -/
theorem lays_join {α : Type} {xs : List α} {text : α → String} {regions : α → List Region}
    (h : ∀ x ∈ xs, Lays (text x) (regions x)) :
    Lays (String.join (xs.map text)) (xs.flatMap regions) := by
  induction xs with
  | nil => exact lays_empty
  | cons x xs ih =>
    obtain ⟨hx, hxs⟩ := List.forall_mem_cons.mp h
    rw [List.map_cons, String.join_cons, List.flatMap_cons]
    exact hx.append (ih hxs)

theorem lays_joinUnmarked {α : Type} {xs : List α} {text : α → String}
    (h : ∀ x ∈ xs, Lays (text x) []) : Lays (String.join (xs.map text)) [] := by
  have hnone : xs.flatMap (fun _ => ([] : List Region)) = [] :=
    List.flatMap_eq_nil_iff.mpr fun _ _ => rfl
  exact hnone ▸ lays_join h

theorem lays_unlines {ls : List String} (h : ∀ l ∈ ls, Unmarked l) : Lays (unlines ls) [] :=
  lays_joinUnmarked fun l hl => lays_line (h l hl)

theorem Lays.unlines_append {ls ms : List String} {rs qs : List Region} (hl : Lays (unlines ls) rs)
    (hm : Lays (unlines ms) qs) : Lays (unlines (ls ++ ms)) (rs ++ qs) := by
  rw [unlines, List.map_append, String.join_append]
  exact hl.append hm

theorem lays_flatMap {α : Type} {xs : List α} {ls : α → List String} {regions : α → List Region}
    (h : ∀ x ∈ xs, Lays (unlines (ls x)) (regions x)) :
    Lays (unlines (xs.flatMap ls)) (xs.flatMap regions) := by
  induction xs with
  | nil => exact lays_empty
  | cons x xs ih =>
    obtain ⟨hx, hxs⟩ := List.forall_mem_cons.mp h
    exact hx.unlines_append (ih hxs)

/-- A region in front of a line. -/
theorem Lays.unlines_singleton {text : String} {rs : List Region} (h : Lays text rs) {l : String}
    (hl : Unmarked l) : Lays (unlines [text ++ l]) rs := by
  have hline := h.append (lays_line hl)
  rw [List.append_nil, ← String.append_assoc] at hline
  simpa [unlines] using hline

/-- Such a text reads as its regions. -/
theorem Lays.parseRegions {text : String} {regions : List Region} (h : Lays text regions)
    (hids : (regions.map (·.id)).Nodup) : parseRegions text = .ok regions := by
  obtain ⟨chunks, rfl, rfl, hlines, hmarked⟩ := h
  have hreads : Reads (String.join (chunks.flatMap Chunk.lines)) chunks :=
    ⟨lined_of_isLine hlines, rfl, hmarked, hids, by simp⟩
  rw [Output.parseRegions, parseChunks_eq_ok.mpr hreads]
  rfl

/-! ## Texts in pieces -/

/-- What a region may be written with. A comment is on one line and has no marker in it, an id is
one word, and the lines of a body have no markers. -/
structure Legible (comment id body : String) : Prop where
  line : '\n' ∉ comment.toList
  free : Free comment.toList
  ne_empty : id ≠ ""
  unbroken : ∀ c ∈ id.toList, isBlank c = false
  plain : ∀ l ∈ lines body, Plain l

/-- A piece of a text: lines, or a region with a default body. -/
inductive Piece
  | lines (text : String)
  | region (comment id body : String)

namespace Piece

def text : Piece → String
  | lines text => text
  | region comment id body => Output.region comment id body

/-- The region of a piece, if it is one. -/
def region? : Piece → Option Region
  | lines _ => none
  | region comment id body => some (.written comment id body)

/-- The id and the body of a region, with an end behind its last line. -/
def written? : Piece → Option (String × String)
  | lines _ => none
  | region _ id body => some (id, if body = "" then "" else closeLine body)

def WellFormed : Piece → Prop
  | lines text => WholeLines text
  | region comment id body => Legible comment id body

end Piece

/-- A marker behind a comment does not begin before its place: the blank between them is in no
marker. -/
theorem overlaps_comment {comment marker : String} (hm : marker.toList ∈ markers)
    (hfree : Free comment.toList) :
    overlaps (comment ++ " ").toList (marker ++ " ").toList = false := by
  have hspace : ∀ m ∈ markers, ' ' ∉ m := by decide
  have habsent := hfree _ hm
  refine Bool.eq_false_iff.mpr fun hover => ?_
  obtain ⟨c, rest, hsuffix, hagree⟩ := exists_of_overlaps hover
  simp only [String.toList_append, String.reduceToList] at hsuffix hagree
  rcases agree_iff.mp hagree with hstart | hstart
  · rcases List.suffix_concat_iff.mp hsuffix with hnil | ⟨t, ht, hcomment⟩
    · cases hnil
    · rw [ht] at hstart
      rcases List.prefix_concat_iff.mp hstart with heq | hstart
      · have hmarker : t = marker.toList := List.append_inj_left' heq rfl
        exact habsent (hmarker ▸ hcomment.isInfix)
      · exact hspace _ hm (hstart.subset (by simp))
  · have hin := hstart.isInfix.trans hsuffix.isInfix
    rcases List.infix_concat_iff.mp hin with hend | hin
    · obtain ⟨before, heq⟩ := hend
      rw [← List.append_assoc] at heq
      exact habsent ⟨before, [], by simpa using List.append_inj_left' heq rfl⟩
    · exact habsent ((List.prefix_append _ _).isInfix.trans hin)

theorem Piece.lays {p : Piece} (h : p.WellFormed) : Lays p.text p.region?.toList := by
  cases p with
  | lines text => exact lays_wholeLines h
  | region comment id body =>
    obtain ⟨hline, hfree, hne, hid, hbody⟩ := h
    exact lays_written (overlaps_comment begin_mem_markers hfree)
      (overlaps_comment end_mem_markers hfree) hline hne hid hbody

theorem Piece.written?_eq (p : Piece) :
    p.written? = p.region?.map fun r => (r.id, r.bodyText) := by
  cases p with
  | lines text => rfl
  | region comment id body => simp [written?, region?, Region.written, Region.bodyText, join_lines]

/-- A text in pieces reads as its regions in order, if no id occurs twice. Each region has the body
that it was written with, closed by a line end unless it is empty. -/
theorem parseRegions_pieces {pieces : List Piece} (h : ∀ p ∈ pieces, p.WellFormed)
    (hids : ((pieces.filterMap Piece.written?).map (·.1)).Nodup) :
    parseRegions (String.join (pieces.map Piece.text)) = .ok (pieces.filterMap Piece.region?) ∧
      (pieces.filterMap Piece.region?).map (fun r => (r.id, r.bodyText)) =
        pieces.filterMap Piece.written? := by
  have hwritten : (pieces.filterMap Piece.region?).map (fun r => (r.id, r.bodyText)) =
      pieces.filterMap Piece.written? := by
    rw [List.map_filterMap]
    exact List.filterMap_congr fun p _ => (p.written?_eq).symm
  refine ⟨Lays.parseRegions ?_ ?_, hwritten⟩
  · rw [List.filterMap_eq_flatMap_toList]
    exact lays_join fun p hp => Piece.lays (h p hp)
  · rwa [← hwritten, List.map_map] at hids

/-- Lines around two regions. The id of one is the text of a marker, and its body ends in the middle
of a line; the other has no body and no comment sign. -/
def hooks : List Piece :=
  [.lines "package app\n\n", .region "\t//" "stalmer:custom:begin" "\treturn nil\n\t// done",
    .lines "\n", .region "" "b.step1" ""]

theorem hooks_pieces :
    (∀ p ∈ hooks, p.WellFormed) ∧ ((hooks.filterMap Piece.written?).map (·.1)).Nodup ∧
      parseRegions (String.join (hooks.map Piece.text)) =
        .ok (hooks.filterMap Piece.region?) ∧
      (hooks.filterMap Piece.region?).map (fun r => (r.id, r.bodyText)) =
        [("stalmer:custom:begin", "\treturn nil\n\t// done\n"), ("b.step1", "")] := by
  have hfront : WholeLines "package app\n\n" := by decide +kernel
  have hbreak : WholeLines "\n" := by decide +kernel
  have hfirst : Legible "\t//" "stalmer:custom:begin" "\treturn nil\n\t// done" :=
    ⟨by decide, by decide +kernel, by decide, by simp [isBlank], by decide +kernel⟩
  have hsecond : Legible "" "b.step1" "" :=
    ⟨by decide, by decide +kernel, by decide, by simp [isBlank], by decide +kernel⟩
  have hformed : ∀ p ∈ hooks, p.WellFormed :=
    List.forall_mem_cons.mpr ⟨hfront, List.forall_mem_cons.mpr ⟨hfirst,
      List.forall_mem_cons.mpr ⟨hbreak, List.forall_mem_singleton.mpr hsecond⟩⟩⟩
  have hids : ((hooks.filterMap Piece.written?).map (·.1)).Nodup := by decide +kernel
  obtain ⟨hparse, hwritten⟩ := parseRegions_pieces hformed hids
  exact ⟨hformed, hids, hparse, hwritten.trans (by decide +kernel)⟩

end Scaffold.Output
