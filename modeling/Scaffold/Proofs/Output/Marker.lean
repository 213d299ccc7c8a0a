import Scaffold.Output.Region
import Scaffold.Proofs.Text.Search

/-! # Facts about marker lines

A line end behind a line changes nothing about its markers, and the line over an orphan has none. -/
namespace Scaffold.Output

open Scaffold.Text

/-- The first word of a text. -/
def word (cs : List Char) : List Char := (cs.dropWhile isBlank).takeWhile fun c => !isBlank c

theorem takeWhile_concat {p : Char → Bool} {c : Char} (hc : p c = false) (cs : List Char) :
    (cs ++ [c]).takeWhile p = cs.takeWhile p := by
  induction cs with
  | nil => simp [hc]
  | cons d ds ih => simp [List.takeWhile_cons, ih]

theorem word_concat {c : Char} (hc : isBlank c = true) (cs : List Char) :
    word (cs ++ [c]) = word cs := by
  induction cs with
  | nil => simp [word, hc]
  | cons d ds ih =>
    by_cases hd : isBlank d = true
    · simpa [word, hd] using ih
    · simp only [word, List.cons_append, List.dropWhile_cons_of_neg hd]
      rw [← List.cons_append]
      exact takeWhile_concat (by simp [hc]) (d :: ds)

theorem word_ne_nil {cs : List Char} {c : Char} (hmem : c ∈ cs) (hc : isBlank c = false) :
    word cs ≠ [] := by
  induction cs with
  | nil => cases hmem
  | cons d ds ih =>
    by_cases hd : isBlank d = true
    · rcases List.mem_cons.mp hmem with rfl | hmem
      · simp [hc] at hd
      · simpa [word, hd] using ih hmem
    · simp [word, hd]

theorem not_isBlank_word {cs : List Char} {c : Char} (h : c ∈ word cs) : isBlank c = false := by
  have hall := List.all_eq_true.mp (List.all_takeWhile (p := fun c => !isBlank c)) c h
  simpa using hall

theorem marker?_eq (marker line : String) : marker? marker line =
    (cut? (marker.toList ++ [' ']) line.toList).bind fun p =>
      if (word p.2).isEmpty then none
      else some (String.ofList p.1, String.ofList (word p.2)) := rfl

theorem marker?_eq_some {marker line lead id : String} (h : marker? marker line = some (lead, id)) :
    ∃ rest, cut? (marker.toList ++ [' ']) line.toList = some (lead.toList, rest) ∧
      word rest = id.toList := by
  rw [marker?_eq] at h
  obtain ⟨⟨before, rest⟩, hcut, h⟩ := Option.bind_eq_some_iff.mp h
  split at h
  · cases h
  · cases h
    exact ⟨rest, by simpa using hcut, by simp⟩

theorem marker?_eq_none_of_absent {marker line : String}
    (h : ¬ marker.toList ++ [' '] <:+: line.toList) : marker? marker line = none := by
  rw [marker?_eq, cut?_eq_none.mpr h]
  rfl

/-- Closing a line keeps what it marks. -/
theorem marker?_closeLine {marker : String} (hm : '\n' ∉ marker.toList) (l : String) :
    marker? marker (closeLine l) = marker? marker l := by
  have hneedle : '\n' ∉ marker.toList ++ [' '] := by simp [hm]
  unfold closeLine
  split
  · rfl
  · rw [marker?_eq, marker?_eq, String.toList_append]
    cases hcut : cut? (marker.toList ++ [' ']) l.toList with
    | none =>
      have hnone := cut?_concat_eq_none (by simp) hneedle hcut
      rw [show "\n".toList = ['\n'] from rfl, hnone]
    | some p =>
      have hsome := cut?_append ['\n'] hcut
      rw [show "\n".toList = ['\n'] from rfl, hsome]
      simp only [Option.bind_some, word_concat (show isBlank '\n' = true by decide)]

theorem newline_notMem_beginMarker : '\n' ∉ beginMarker.toList := by decide

theorem newline_notMem_endMarker : '\n' ∉ endMarker.toList := by decide

/-! ## The line over an orphan -/

/-- The line that says that a region lost its place. -/
def orphanLine (lead id : String) : String := lead ++ orphanMarker ++ " " ++ id ++ "\n"

/-- A marker does not occur in the line over an orphan, unless it occurs in the text before: no end
of the marker begins like the orphan marker, and the word behind has no space. -/
theorem not_infix_orphanLine {marker lead id : String}
    (hlead : ¬ marker.toList ++ [' '] <:+: lead.toList) (hid : ' ' ∉ id.toList)
    (hin : cut? (marker.toList ++ [' ']) (orphanMarker.toList ++ [' ']) = none)
    (hends : ∀ k < marker.toList.length,
      after? ((marker.toList ++ [' ']).drop (k + 1)) (orphanMarker.toList ++ [' ']) = none) :
    ¬ marker.toList ++ [' '] <:+: (orphanLine lead id).toList := by
  have hchars : (orphanLine lead id).toList =
      lead.toList ++ (orphanMarker.toList ++ [' ']) ++ (id.toList ++ ['\n']) := by
    simp [orphanLine]
  have hspace : ' ' ∉ id.toList ++ ['\n'] := by simp [hid]
  rw [hchars, List.infix_append_iff_ne_nil, List.infix_append_iff_ne_nil]
  rintro ((h | h | ⟨x, y, hx, hy, heq, -, hstart⟩) | h | ⟨x, y, -, hy, heq, -, hstart⟩)
  · exact hlead h
  · exact cut?_eq_none.mp hin h
  · obtain ⟨c, cs, rfl⟩ := List.exists_cons_of_ne_nil hx
    have hlen := congrArg List.length heq
    have hpos := List.length_pos_iff.mpr hy
    simp only [List.length_append, List.length_cons, List.length_nil] at hlen
    have hnone := hends cs.length (by omega)
    rw [heq, List.drop_left' (by simp)] at hnone
    exact after?_eq_none.mp hnone hstart
  · exact hspace (h.subset (by simp))
  · rcases List.suffix_concat_iff.mp (heq ▸ List.suffix_append x y) with hnil | ⟨t, ht, -⟩
    · exact hy hnil
    · exact hspace (hstart.subset (by simp [ht]))

theorem space_notMem_id {marker line lead id : String} (h : marker? marker line = some (lead, id)) :
    ' ' ∉ id.toList := by
  obtain ⟨rest, -, hword⟩ := marker?_eq_some h
  intro hmem
  have hblank := not_isBlank_word (hword ▸ hmem)
  exact absurd hblank (by decide)

/-- The line over an orphan opens no region. -/
theorem begin_orphanLine {opening lead id : String}
    (h : marker? beginMarker opening = some (lead, id)) :
    marker? beginMarker (orphanLine lead id) = none := by
  obtain ⟨rest, hcut, -⟩ := marker?_eq_some h
  exact marker?_eq_none_of_absent (not_infix_orphanLine (not_infix_of_cut? (by simp) hcut)
    (space_notMem_id h) (by decide +kernel) (by decide +kernel))

/-- The text before the begin marker of a line that closes no region has no end marker: the begin
marker behind it would be its word. -/
theorem not_infix_lead {opening lead id : String}
    (h : marker? beginMarker opening = some (lead, id)) (hend : marker? endMarker opening = none) :
    ¬ endMarker.toList ++ [' '] <:+: lead.toList := by
  obtain ⟨rest, hcut, -⟩ := marker?_eq_some h
  intro hin
  cases hfound : cut? (endMarker.toList ++ [' ']) lead.toList with
  | none => exact cut?_eq_none.mp hfound hin
  | some p =>
    obtain ⟨before, after⟩ := p
    have hmore := cut?_append (beginMarker.toList ++ [' '] ++ rest) hfound
    rw [← List.append_assoc, ← cut?_eq_some hcut] at hmore
    have hword : word (after ++ (beginMarker.toList ++ [' '] ++ rest)) ≠ [] :=
      word_ne_nil (c := 's') (by simp [beginMarker]) (by decide)
    rw [marker?_eq, hmore] at hend
    exact hword (by simpa using hend)

/-- The line over an orphan closes no region, unless there is an end marker before the begin marker
of the orphan. -/
theorem end_orphanLine {opening lead id : String}
    (h : marker? beginMarker opening = some (lead, id))
    (hlead : ¬ endMarker.toList ++ [' '] <:+: lead.toList) :
    marker? endMarker (orphanLine lead id) = none :=
  marker?_eq_none_of_absent (not_infix_orphanLine hlead
    (space_notMem_id h) (by decide +kernel) (by decide +kernel))

/-- An end marker before the begin marker of an orphan closes something in the line over it: the
orphan marker is behind. -/
theorem end_orphanLine_of_infix {lead : String} (id : String)
    (hlead : endMarker.toList ++ [' '] <:+: lead.toList) :
    ∃ before closed, marker? endMarker (orphanLine lead id) = some (before, closed) := by
  cases hfound : cut? (endMarker.toList ++ [' ']) lead.toList with
  | none => exact absurd hlead (cut?_eq_none.mp hfound)
  | some p =>
    obtain ⟨before, after⟩ := p
    have hmore := cut?_append (orphanMarker.toList ++ [' '] ++ id.toList ++ ['\n']) hfound
    have hchars : (orphanLine lead id).toList =
        lead.toList ++ (orphanMarker.toList ++ [' '] ++ id.toList ++ ['\n']) := by
      simp [orphanLine]
    have hword : word (after ++ (orphanMarker.toList ++ [' '] ++ id.toList ++ ['\n'])) ≠ [] :=
      word_ne_nil (c := 's') (by simp [orphanMarker]) (by decide)
    rw [marker?_eq, hchars, hmore]
    simpa using hword

end Scaffold.Output
