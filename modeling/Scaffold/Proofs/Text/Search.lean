import Scaffold.Text.Search
import Mathlib.Tactic.Common

/-! # Facts about cutting text into lines and at a word -/
namespace Scaffold.Text

/-! ## The first occurrence of a text -/

theorem after?_eq_some {needle cs rest : List Char} :
    after? needle cs = some rest ↔ cs = needle ++ rest := by
  induction needle generalizing cs with
  | nil => simp [after?]
  | cons p ps ih =>
    cases cs with
    | nil => simp [after?]
    | cons c cs =>
      by_cases h : p = c
      · simp [after?, h, ih]
      · simp [after?, h, Ne.symm h]

theorem after?_eq_none {needle cs : List Char} : after? needle cs = none ↔ ¬ needle <+: cs := by
  rw [Option.eq_none_iff_forall_not_mem]
  simp only [Option.mem_def, after?_eq_some]
  exact ⟨fun h ⟨rest, hr⟩ => h rest hr.symm, fun h rest hr => h ⟨rest, hr.symm⟩⟩

/-- Nothing is found exactly when the text does not occur. -/
theorem cut?_eq_none {needle cs : List Char} : cut? needle cs = none ↔ ¬ needle <:+: cs := by
  induction cs with
  | nil => simp [cut?, after?_eq_none]
  | cons c cs ih =>
    rw [List.infix_cons_iff, not_or, ← ih, ← after?_eq_none, cut?]
    cases h : after? needle (c :: cs) <;> simp

theorem cut?_eq_some {needle cs before rest : List Char}
    (h : cut? needle cs = some (before, rest)) : cs = before ++ needle ++ rest := by
  induction cs generalizing before with
  | nil =>
    obtain ⟨r, hr, heq⟩ := Option.map_eq_some_iff.mp h
    cases heq
    exact after?_eq_some.mp hr
  | cons c cs ih =>
    rw [cut?] at h
    split at h
    next r hr =>
      cases h
      exact after?_eq_some.mp hr
    next =>
      obtain ⟨⟨b, r⟩, hb, heq⟩ := Option.map_eq_some_iff.mp h
      cases heq
      simp [ih hb]

/-- What stands before the first occurrence has none. -/
theorem not_infix_of_cut? {needle cs before rest : List Char} (hn : needle ≠ [])
    (h : cut? needle cs = some (before, rest)) : ¬ needle <:+: before := by
  induction cs generalizing before with
  | nil =>
    obtain ⟨r, -, heq⟩ := Option.map_eq_some_iff.mp h
    cases heq
    simpa using hn
  | cons c cs ih =>
    have hcut := cut?_eq_some h
    rw [cut?] at h
    split at h
    next =>
      cases h
      simpa using hn
    next hnone =>
      obtain ⟨⟨b, r⟩, hb, heq⟩ := Option.map_eq_some_iff.mp h
      cases heq
      rw [List.infix_cons_iff, not_or]
      refine ⟨fun hstart => ?_, ih hb⟩
      apply after?_eq_none.mp hnone
      rw [hcut, List.append_assoc]
      exact hstart.trans (List.prefix_append _ _)

/-- More text behind does not move the first occurrence. -/
theorem cut?_append {needle cs before rest : List Char} (more : List Char)
    (h : cut? needle cs = some (before, rest)) :
    cut? needle (cs ++ more) = some (before, rest ++ more) := by
  have hafter {ds r : List Char} (hr : after? needle ds = some r) :
      after? needle (ds ++ more) = some (r ++ more) := by
    rw [after?_eq_some] at hr ⊢
    rw [hr, List.append_assoc]
  induction cs generalizing before with
  | nil =>
    obtain ⟨r, hr, heq⟩ := Option.map_eq_some_iff.mp h
    cases heq
    cases more with
    | nil => simpa [cut?] using hr
    | cons d ds =>
      have hd := hafter hr
      rw [List.nil_append] at hd
      simp [cut?, hd]
  | cons c cs ih =>
    rw [cut?] at h
    split at h
    next r hr =>
      cases h
      have hd := hafter hr
      rw [List.cons_append] at hd
      simp [cut?, hd]
    next hnone =>
      obtain ⟨⟨b, r⟩, hb, heq⟩ := Option.map_eq_some_iff.mp h
      cases heq
      have hlen : needle.length ≤ (c :: cs).length := by
        rw [cut?_eq_some hb]
        simp only [List.length_cons, List.length_append]
        omega
      have hnone' : after? needle (c :: (cs ++ more)) = none := by
        rw [after?_eq_none] at hnone ⊢
        exact fun hstart => hnone
          (List.prefix_of_prefix_length_le hstart (List.prefix_append (c :: cs) more) hlen)
      simp [cut?, hnone', ih hb]

/-- Nor does a character behind that the text does not have let it occur. -/
theorem cut?_concat_eq_none {needle cs : List Char} {c : Char} (hn : needle ≠ [])
    (hc : c ∉ needle) (h : cut? needle cs = none) : cut? needle (cs ++ [c]) = none := by
  rw [cut?_eq_none] at h ⊢
  rw [List.infix_concat_iff, not_or]
  refine ⟨fun hsuffix => ?_, h⟩
  have hlast := hsuffix.getLast hn
  rw [List.getLast_concat] at hlast
  exact hc (hlast ▸ List.getLast_mem hn)

/-! ## Lines -/

/-- A line with its end. -/
def IsLine (l : String) : Prop := ∃ cs, '\n' ∉ cs ∧ l.toList = cs ++ ['\n']

/-- Lines of a text: all but the last have an end, and the last has an end or is not empty. -/
inductive Lined : List String → Prop
  | nil : Lined []
  | last {l : String} (hne : l ≠ "") (hl : '\n' ∉ l.toList) : Lined [l]
  | cons {l : String} {ls : List String} (hl : IsLine l) (hls : Lined ls) : Lined (l :: ls)

theorem isLine_cons {c : Char} {cs : List Char} (hc : c ≠ '\n') (h : IsLine (String.ofList cs)) :
    IsLine (String.ofList (c :: cs)) := by
  obtain ⟨ds, hds, heq⟩ := h
  rw [String.toList_ofList] at heq
  exact ⟨c :: ds, by simp [Ne.symm hc, hds], by simp [heq]⟩

theorem linesFrom_line {cs : List Char} (h : '\n' ∉ cs) (rest : List Char) :
    linesFrom (cs ++ '\n' :: rest) = (cs ++ ['\n']) :: linesFrom rest := by
  induction cs with
  | nil => exact linesFrom.eq_2 rest
  | cons c cs ih =>
    rw [List.mem_cons, not_or] at h
    exact linesFrom.eq_4 c _ _ _ (Ne.symm h.1) (by simp) (ih h.2)

theorem linesFrom_last {cs : List Char} (hne : cs ≠ []) (h : '\n' ∉ cs) : linesFrom cs = [cs] := by
  induction cs with
  | nil => exact absurd rfl hne
  | cons c cs ih =>
    rw [List.mem_cons, not_or] at h
    cases cs with
    | nil => exact linesFrom.eq_3 c (Ne.symm h.1)
    | cons d ds => exact linesFrom.eq_4 c _ _ _ (Ne.symm h.1) (by simp) (ih (by simp) h.2)

theorem flatten_linesFrom (cs : List Char) : (linesFrom cs).flatten = cs := by
  fun_induction linesFrom cs <;> simp_all

theorem lined_linesFrom (cs : List Char) : Lined ((linesFrom cs).map String.ofList) := by
  induction cs using linesFrom.induct with
  | case1 => exact .nil
  | case2 cs ih =>
    rw [linesFrom.eq_2]
    exact .cons ⟨[], by simp, by simp⟩ ih
  | case3 c hc ih =>
    rw [linesFrom.eq_3 c hc]
    exact .last (by simp) (by simpa using Ne.symm hc)
  | case4 c cs hc line ls hls hcs ih =>
    rw [linesFrom.eq_4 c cs line ls hc hcs hls]
    rw [hls] at ih
    cases ls with
    | nil =>
      cases ih with
      | last hne hl => exact .last (by simp) (by simpa [Ne.symm hc] using hl)
      | cons hl hrest => exact .cons (isLine_cons hc hl) hrest
    | cons next ls =>
      cases ih with
      | cons hl hrest => exact .cons (isLine_cons hc hl) hrest
  | case5 c cs hc hls hcs ih =>
    have hflat := flatten_linesFrom cs
    rw [hls] at hflat
    exact absurd hflat.symm hcs

theorem lined_lines (s : String) : Lined (lines s) := lined_linesFrom s.toList

/-- The lines of a text make the text. -/
theorem join_lines (s : String) : String.join (lines s) = s := by
  have hchars : (String.join (lines s)).toList = s.toList := by
    rw [String.toList_join, lines, List.flatMap_map]
    simpa [List.flatMap_id] using flatten_linesFrom s.toList
  exact String.toList_inj.mp hchars

theorem lines_join {ls : List String} (h : Lined ls) : lines (String.join ls) = ls := by
  induction h with
  | nil => rfl
  | last hne hl =>
    have hchars := linesFrom_last (by simpa using hne) hl
    simp [lines, hchars]
  | @cons l ls hl hls ih =>
    obtain ⟨cs, hcs, heq⟩ := hl
    have hchars : (String.join (l :: ls)).toList = cs ++ '\n' :: (String.join ls).toList := by
      simp [heq]
    have hl : String.ofList (cs ++ ['\n']) = l := by rw [← heq, String.ofList_toList]
    rw [lines, hchars, linesFrom_line hcs, List.map_cons, hl]
    exact congrArg (l :: ·) ih

/-! ## Closing lines -/

theorem endsWith_iff {s suffix : String} :
    endsWith s suffix = true ↔ ∃ cs, s.toList = cs ++ suffix.toList := by
  rw [endsWith, Option.isSome_iff_exists]
  constructor
  · rintro ⟨rest, h⟩
    have hrev := after?_eq_some.mp h
    exact ⟨rest.reverse, by simpa using congrArg List.reverse hrev⟩
  · rintro ⟨cs, h⟩
    exact ⟨cs.reverse, after?_eq_some.mpr (by simp [h])⟩

theorem endsWith_newline {s : String} : endsWith s "\n" = true ↔ ∃ cs, s.toList = cs ++ ['\n'] :=
  endsWith_iff

theorem closeLine_of_isLine {l : String} (h : IsLine l) : closeLine l = l := by
  obtain ⟨cs, -, heq⟩ := h
  rw [closeLine, if_pos (endsWith_newline.mpr ⟨cs, heq⟩)]

theorem closeLine_of_notMem {l : String} (h : '\n' ∉ l.toList) : closeLine l = l ++ "\n" := by
  have hends : ¬ endsWith l "\n" = true := by
    intro hends
    obtain ⟨cs, heq⟩ := endsWith_newline.mp hends
    simp [heq] at h
  rw [closeLine, if_neg hends]

theorem isLine_closeLine {l : String} (h : '\n' ∉ l.toList) : IsLine (closeLine l) := by
  rw [closeLine_of_notMem h]
  exact ⟨l.toList, h, by simp⟩

/-- Lines that all have an end. -/
theorem lined_of_isLine {ls : List String} (h : ∀ l ∈ ls, IsLine l) : Lined ls := by
  induction ls with
  | nil => exact .nil
  | cons l ls ih => exact .cons (h l (.head _)) (ih fun m hm => h m (.tail _ hm))

theorem Lined.append {ls ms : List String} (hl : ∀ l ∈ ls, IsLine l) (hm : Lined ms) :
    Lined (ls ++ ms) := by
  induction ls with
  | nil => exact hm
  | cons l ls ih => exact .cons (hl l (.head _)) (ih fun m hm => hl m (.tail _ hm))

/-- All lines but the last have an end. -/
theorem Lined.isLine (ls : List String) {ms : List String} (h : Lined (ls ++ ms)) (hne : ms ≠ []) :
    ∀ l ∈ ls, IsLine l := by
  induction ls with
  | nil => simp
  | cons l ls ih =>
    cases hlist : ls ++ ms with
    | nil => exact absurd (List.append_eq_nil_iff.mp hlist).2 hne
    | cons m rest =>
      rw [List.cons_append, hlist] at h
      cases h with
      | cons hl hls => exact List.forall_mem_cons.mpr ⟨hl, ih (hlist ▸ hls)⟩

theorem Lined.tail {l : String} {ls : List String} (h : Lined (l :: ls)) : Lined ls := by
  cases h with
  | last => exact .nil
  | cons hl hls => exact hls

theorem Lined.right {ls ms : List String} (h : Lined (ls ++ ms)) : Lined ms := by
  induction ls with
  | nil => exact h
  | cons l ls ih => exact ih h.tail

/-- Closing every line closes the text. -/
theorem Lined.close {ls : List String} (h : Lined ls) : ∀ l ∈ ls.map closeLine, IsLine l := by
  induction h with
  | nil => simp
  | last hne hl => simpa using isLine_closeLine hl
  | cons hl hls ih =>
    rw [List.map_cons, closeLine_of_isLine hl]
    exact List.forall_mem_cons.mpr ⟨hl, ih⟩

theorem endsWith_append (s : String) {t : String} (h : t ≠ "") :
    endsWith (s ++ t) "\n" = endsWith t "\n" := by
  rw [Bool.eq_iff_iff, endsWith_newline, endsWith_newline, String.toList_append]
  obtain ht | ⟨cs, c, hc⟩ := List.eq_nil_or_concat t.toList
  · exact absurd (by simpa using ht) h
  · have hlast (ds : List Char) : (∃ es, ds ++ [c] = es ++ ['\n']) ↔ c = '\n' := by simp
    rw [hc, List.concat_eq_append, ← List.append_assoc, hlast, hlast]

theorem closeLine_append (s : String) {t : String} (h : t ≠ "") :
    closeLine (s ++ t) = s ++ closeLine t := by
  rw [closeLine, closeLine, endsWith_append s h]
  split
  · rfl
  · rw [String.append_assoc]

theorem Lined.ne_empty {ls : List String} (h : Lined ls) (hne : ls ≠ []) :
    String.join ls ≠ "" := by
  cases h with
  | nil => exact absurd rfl hne
  | last hl _ => simpa using hl
  | cons hl hls =>
    obtain ⟨cs, -, heq⟩ := hl
    intro hempty
    have hchars := congrArg String.toList hempty
    simp [heq] at hchars

theorem closeLine_join {ls : List String} (h : Lined ls) (hne : ls ≠ []) :
    closeLine (String.join ls) = String.join (ls.map closeLine) := by
  induction h with
  | nil => exact absurd rfl hne
  | last hl hn => simp
  | @cons l ls hl hls ih =>
    rw [List.map_cons, String.join_cons, String.join_cons, closeLine_of_isLine hl]
    by_cases hnil : ls = []
    · simp [hnil, closeLine_of_isLine hl]
    · rw [closeLine_append l (hls.ne_empty hnil), ih hnil]

/-- Closing a text closes its last line. -/
theorem lines_closeLine {s : String} (h : s ≠ "") :
    lines (closeLine s) = (lines s).map closeLine := by
  have hlined := lined_lines s
  have hne : lines s ≠ [] := fun hnil => h (by rw [← join_lines s, hnil, String.join_nil])
  have hclosed := closeLine_join hlined hne
  rw [join_lines] at hclosed
  rw [hclosed, lines_join (lined_of_isLine hlined.close)]

/-- Every line of a text that ends with a line end has one. -/
theorem isLine_of_endsWith {s : String} (h : s = "" ∨ endsWith s "\n" = true) :
    ∀ l ∈ lines s, IsLine l := by
  have hjoin := join_lines s
  have hlined := lined_lines s
  generalize lines s = ls at hjoin hlined
  induction hlined generalizing s with
  | nil => simp
  | @last l hne hl =>
    have hs : s = l := by simpa using hjoin.symm
    rcases h with hempty | hends
    · exact absurd (hs.symm.trans hempty) hne
    · obtain ⟨cs, hcs⟩ := endsWith_newline.mp hends
      rw [← hs, hcs] at hl
      simp at hl
  | @cons l ls hl hls ih =>
    refine List.forall_mem_cons.mpr ⟨hl, ?_⟩
    by_cases hnil : ls = []
    · simp [hnil]
    · have hne := hls.ne_empty hnil
      rw [String.join_cons] at hjoin
      refine ih (.inr ?_) rfl
      rcases h with hempty | hends
      · exact absurd (String.append_eq_empty_iff.mp (hjoin.trans hempty)).2 hne
      · rwa [← hjoin, endsWith_append l hne] at hends

end Scaffold.Text
