import Mathlib.Tactic.Common
import Scaffold.Disk.Path
import Scaffold.Proofs.Lists

/-! # The shape of clean paths

A clean path is `..` as often as it leaves the working directory, and then names. -/
namespace Scaffold.Text

theorem splitChars_ne_nil (c : Char) (cs : List Char) : splitChars c cs ≠ [] := by
  cases cs with
  | nil => simp [splitChars]
  | cons d ds =>
    rw [splitChars]
    split
    · simp
    · split <;> simp

theorem splitChars_append (c : Char) (cs ds : List Char) :
    splitChars c (cs ++ c :: ds) = splitChars c cs ++ splitChars c ds := by
  induction cs with
  | nil => simp [splitChars]
  | cons d cs ih =>
    rw [List.cons_append, splitChars, splitChars, ih]
    split
    · rfl
    · cases h : splitChars c cs with
      | nil => exact absurd h (splitChars_ne_nil c cs)
      | cons piece pieces => rfl

theorem splitChars_of_notMem {c : Char} {cs : List Char} (h : c ∉ cs) : splitChars c cs = [cs] := by
  induction cs with
  | nil => rfl
  | cons d cs ih =>
    rw [List.mem_cons, not_or] at h
    rw [splitChars, if_neg (Ne.symm h.1), ih h.2]

theorem notMem_of_mem_splitChars {c : Char} {cs : List Char} :
    ∀ piece ∈ splitChars c cs, c ∉ piece := by
  induction cs with
  | nil => simp [splitChars]
  | cons d cs ih =>
    rw [splitChars]
    split
    next => exact List.forall_mem_cons.mpr ⟨by simp, ih⟩
    next hd =>
      cases h : splitChars c cs with
      | nil => exact absurd h (splitChars_ne_nil c cs)
      | cons piece pieces =>
        rw [h] at ih
        obtain ⟨hpiece, hpieces⟩ := List.forall_mem_cons.mp ih
        refine List.forall_mem_cons.mpr ⟨?_, hpieces⟩
        rw [List.mem_cons, not_or]
        exact ⟨Ne.symm hd, hpiece⟩

end Scaffold.Text

namespace Scaffold.Disk

open Scaffold.Text

/-! ## Segments -/

/-- A segment that names something. -/
structure IsName (s : String) : Prop where
  ne_empty : s ≠ ""
  ne_dot : s ≠ "."
  ne_up : s ≠ ".."
  slash : '/' ∉ s.toList

theorem segments_append (p q : String) : segments (p ++ "/" ++ q) = segments p ++ segments q := by
  have hchars : (p ++ "/" ++ q).toList = p.toList ++ '/' :: q.toList := by simp
  rw [segments, split, hchars, splitChars_append, List.map_append]
  rfl

theorem segments_of_slash {s : String} (h : '/' ∉ s.toList) : segments s = [s] := by
  rw [segments, split, splitChars_of_notMem h]
  simp

theorem slash_notMem_segments {p s : String} (h : s ∈ segments p) : '/' ∉ s.toList := by
  obtain ⟨piece, hp, rfl⟩ := List.mem_map.mp h
  rw [String.toList_ofList]
  exact notMem_of_mem_splitChars piece hp

theorem segments_intercalate {ks : List String} (hne : ks ≠ [])
    (h : ∀ k ∈ ks, '/' ∉ k.toList) : segments ("/".intercalate ks) = ks := by
  induction ks with
  | nil => exact absurd rfl hne
  | cons k ks ih =>
    obtain ⟨hk, hks⟩ := List.forall_mem_cons.mp h
    cases ks with
    | nil => rw [String.intercalate_singleton, segments_of_slash hk]
    | cons m ks =>
      rw [String.intercalate_cons_cons, segments_append, segments_of_slash hk,
        ih (by simp) hks]
      rfl

/-! ## Clean segments -/

/-- Segments of a clean path: names, after `..` if the path is not absolute. -/
def Normal (rooted : Bool) : List String → Prop :=
  InOrder fun before s => IsName s ∨ (s = ".." ∧ rooted = false ∧ ∀ k ∈ before, k = "..")

theorem Normal.names {rooted : Bool} {ks ms : List String} (h : Normal rooted ks)
    (hm : ∀ m ∈ ms, IsName m) : Normal rooted (ks ++ ms) := by
  induction ms generalizing ks with
  | nil => simpa using h
  | cons m ms ih =>
    obtain ⟨hm, hms⟩ := List.forall_mem_cons.mp hm
    have hnext := ih (h.concat (.inl hm)) hms
    simpa using hnext

theorem Normal.slash {rooted : Bool} {ks : List String} (h : Normal rooted ks) :
    ∀ k ∈ ks, k ≠ "" ∧ '/' ∉ k.toList := by
  intro k hk
  obtain ⟨before, after, rfl⟩ := List.append_of_mem hk
  rcases h before k after rfl with hname | ⟨rfl, -⟩
  · exact ⟨hname.ne_empty, hname.slash⟩
  · exact ⟨by decide, by decide⟩

theorem isName_not_up : ¬ IsName ".." := fun h => h.ne_up rfl

/-- What `..` does to the segments kept so far. -/
def cancel (rooted : Bool) : List String → List String
  | [] => if rooted then [] else [".."]
  | last :: before => if last = ".." then ".." :: last :: before else before

theorem cleanSegments_cons (rooted : Bool) (done : List String) (s : String) (ss : List String) :
    cleanSegments rooted done (s :: ss) =
      if s = "" ∨ s = "." then cleanSegments rooted done ss
      else if s = ".." then cleanSegments rooted (cancel rooted done) ss
      else cleanSegments rooted (s :: done) ss := by
  rw [cleanSegments.eq_def]
  cases done with
  | nil => simp [cancel]
  | cons last before =>
    simp only [cancel, Bool.or_eq_true, decide_eq_true_eq]
    split
    · rfl
    · split
      · split <;> rfl
      · rfl

theorem cancel_normal {rooted : Bool} {done : List String} (h : Normal rooted done.reverse) :
    Normal rooted (cancel rooted done).reverse := by
  cases done with
  | nil =>
    cases rooted with
    | true => exact .nil _
    | false => exact (InOrder.nil _).concat (.inr ⟨rfl, rfl, by simp⟩)
  | cons last before =>
    rw [List.reverse_cons] at h
    rw [cancel]
    split
    next hlast =>
      -- a second `..` can only follow others
      subst hlast
      obtain hname | ⟨-, hrooted, hall⟩ := h before.reverse ".." [] rfl
      · exact absurd hname isName_not_up
      · rw [List.reverse_cons, List.reverse_cons]
        refine h.concat (.inr ⟨rfl, hrooted, fun k hk => ?_⟩)
        rcases List.mem_append.mp hk with hk | hk
        · exact hall k hk
        · exact List.mem_singleton.mp hk
    next => exact h.left

/-- Cleaning segments leaves a normal list. -/
theorem cleanSegments_normal {rooted : Bool} {done ss : List String}
    (hd : Normal rooted done.reverse) (hs : ∀ s ∈ ss, '/' ∉ s.toList) :
    Normal rooted (cleanSegments rooted done ss) := by
  induction ss generalizing done with
  | nil => exact hd
  | cons s ss ih =>
    obtain ⟨hslash, hs⟩ := List.forall_mem_cons.mp hs
    rw [cleanSegments_cons]
    split
    next => exact ih hd hs
    next hdot =>
      split
      next hup => exact ih (cancel_normal hd) hs
      next hup =>
        refine ih ?_ hs
        rw [List.reverse_cons]
        rw [not_or] at hdot
        exact hd.concat (.inl ⟨hdot.1, hdot.2, hup, hslash⟩)

theorem cleanSegments_append (rooted : Bool) (done ss ts : List String) :
    cleanSegments rooted done (ss ++ ts) =
      cleanSegments rooted (cleanSegments rooted done ss).reverse ts := by
  induction ss generalizing done with
  | nil => simp [cleanSegments]
  | cons s ss ih =>
    rw [List.cons_append, cleanSegments_cons, cleanSegments_cons, ih, ih, ih]
    split
    · rfl
    · split <;> rfl

/-- Normal segments are clean. -/
theorem cleanSegments_of_normal {rooted : Bool} {done ks : List String}
    (h : Normal rooted (done.reverse ++ ks)) :
    cleanSegments rooted done ks = done.reverse ++ ks := by
  induction ks generalizing done with
  | nil => simp [cleanSegments]
  | cons k ks ih =>
    have hnext : Normal rooted ((k :: done).reverse ++ ks) := by simpa using h
    have htext : (k :: done).reverse ++ ks = done.reverse ++ k :: ks := by simp
    rw [cleanSegments_cons]
    rcases h done.reverse k ks rfl with hk | ⟨rfl, rfl, hall⟩
    · rw [if_neg (by simp [hk.ne_empty, hk.ne_dot]), if_neg hk.ne_up, ih hnext, htext]
    · have hcancel : cancel false done = ".." :: done := by
        cases done with
        | nil => rfl
        | cons last before => rw [cancel, if_pos (hall last (by simp))]
      rw [if_neg (by decide), if_pos rfl, hcancel, ih hnext, htext]

/-! ## Clean paths -/

theorem isAbsolute_iff {p : String} : isAbsolute p = true ↔ ∃ cs, p.toList = '/' :: cs := by
  rw [isAbsolute, String.startsWith_string_iff]
  constructor
  · rintro ⟨cs, h⟩
    exact ⟨cs, by simpa using h.symm⟩
  · rintro ⟨cs, h⟩
    exact ⟨cs, by simp [h]⟩

theorem isAbsolute_append {p : String} (h : p ≠ "") (q : String) :
    isAbsolute (p ++ q) = isAbsolute p := by
  have hne : p.toList ≠ [] := by simpa using h
  obtain ⟨c, cs, hcs⟩ := List.exists_cons_of_ne_nil hne
  rw [Bool.eq_iff_iff, isAbsolute_iff, isAbsolute_iff, String.toList_append, hcs]
  simp

/-- The segments that a path has when it is cleaned. -/
def kept (p : String) : List String := cleanSegments (isAbsolute p) [] (segments p)

theorem kept_normal (p : String) : Normal (isAbsolute p) (kept p) :=
  cleanSegments_normal (.nil _) fun _ hs => slash_notMem_segments hs

theorem clean_of_absolute {p : String} (h : isAbsolute p = true) :
    clean p = "/" ++ "/".intercalate (kept p) := by
  unfold clean kept
  simp only [h]
  cases cleanSegments true [] (segments p) <;> rfl

theorem clean_of_relative {p : String} (h : isAbsolute p = false) (hk : kept p ≠ []) :
    clean p = "/".intercalate (kept p) := by
  unfold clean
  unfold kept at hk ⊢
  simp only [h] at hk ⊢
  cases hs : cleanSegments false [] (segments p) with
  | nil => exact absurd hs hk
  | cons k ks => rfl

theorem clean_of_here {p : String} (h : isAbsolute p = false) (hk : kept p = []) :
    clean p = "." := by
  unfold clean
  unfold kept at hk
  simp only [h] at hk ⊢
  rw [hk]

theorem isAbsolute_of_slash {k : String} (h : '/' ∉ k.toList) : isAbsolute k = false := by
  rw [Bool.eq_false_iff]
  intro habs
  obtain ⟨cs, hcs⟩ := isAbsolute_iff.mp habs
  simp [hcs] at h

theorem isAbsolute_intercalate {ks : List String} (h : ∀ k ∈ ks, k ≠ "" ∧ '/' ∉ k.toList) :
    isAbsolute ("/".intercalate ks) = false := by
  cases ks with
  | nil => exact isAbsolute_of_slash (by simp)
  | cons k ks =>
    obtain ⟨⟨hne, hslash⟩, -⟩ := List.forall_mem_cons.mp h
    cases ks with
    | nil =>
      rw [String.intercalate_singleton]
      exact isAbsolute_of_slash hslash
    | cons m ms =>
      rw [String.intercalate_cons_cons, String.append_assoc, isAbsolute_append hne]
      exact isAbsolute_of_slash hslash

theorem isAbsolute_clean (p : String) : isAbsolute (clean p) = isAbsolute p := by
  cases h : isAbsolute p with
  | true =>
    rw [clean_of_absolute h, isAbsolute_append (by decide)]
    exact isAbsolute_iff.mpr ⟨[], rfl⟩
  | false =>
    by_cases hk : kept p = []
    · rw [clean_of_here h hk]
      exact isAbsolute_of_slash (by decide)
    · rw [clean_of_relative h hk]
      exact isAbsolute_intercalate (kept_normal p).slash

theorem segments_empty : segments "" = [""] := segments_of_slash (by simp)

theorem segments_clean {p : String} (hk : kept p ≠ []) :
    segments (clean p) = if isAbsolute p then "" :: kept p else kept p := by
  have hkept := segments_intercalate hk fun k hk => ((kept_normal p).slash k hk).2
  cases h : isAbsolute p with
  | true =>
    have hsplit := segments_append "" ("/".intercalate (kept p))
    rw [String.empty_append, hkept, segments_empty] at hsplit
    rw [clean_of_absolute h, hsplit]
    rfl
  | false =>
    rw [clean_of_relative h hk, hkept]
    rfl

theorem kept_clean (p : String) : kept (clean p) = kept p := by
  by_cases hk : kept p = []
  · rw [hk]
    cases h : isAbsolute p with
    | true =>
      rw [clean_of_absolute h, hk, String.intercalate_nil]
      decide +kernel
    | false =>
      rw [clean_of_here h hk]
      decide +kernel
  · have hclean : cleanSegments (isAbsolute p) [] (kept p) = kept p :=
      cleanSegments_of_normal (kept_normal p)
    rw [kept, isAbsolute_clean, segments_clean hk]
    cases h : isAbsolute p with
    | true =>
      rw [if_pos rfl, cleanSegments_cons, if_pos (.inl rfl), ← h]
      exact hclean
    | false =>
      rw [if_neg (by decide), ← h]
      exact hclean

theorem clean_clean (p : String) : clean (clean p) = clean p := by
  have habs := isAbsolute_clean p
  have hkept := kept_clean p
  cases h : isAbsolute p with
  | true => rw [clean_of_absolute (habs.trans h), hkept, clean_of_absolute h]
  | false =>
    by_cases hk : kept p = []
    · rw [clean_of_here (habs.trans h) (hkept.trans hk), clean_of_here h hk]
    · rw [clean_of_relative (habs.trans h) (hkept.trans_ne hk), hkept, clean_of_relative h hk]

/-! ## Paths below a directory -/

/-- A path of names. -/
def OfNames (q : String) : Prop := ∀ s ∈ segments q, IsName s

theorem OfNames.ne_empty {q : String} (h : OfNames q) : q ≠ "" := by
  rintro rfl
  exact (h "" (by simp [segments_empty])).ne_empty rfl

theorem IsName.ofNames {s : String} (h : IsName s) : OfNames s := by
  intro t ht
  rw [segments_of_slash h.slash, List.mem_singleton] at ht
  exact ht ▸ h

theorem OfNames.relative {q : String} (h : OfNames q) : isAbsolute q = false := by
  rw [Bool.eq_false_iff]
  intro habs
  obtain ⟨cs, hcs⟩ := isAbsolute_iff.mp habs
  have hq : q = "" ++ "/" ++ String.ofList cs := by
    rw [← String.toList_inj]
    simpa using hcs
  refine (h "" ?_).ne_empty rfl
  rw [hq, segments_append, segments_empty]
  exact .head _

theorem join_pair {q : String} (hq : q ≠ "") (root : String) :
    join [root, q] = clean (if root = "" then q else root ++ "/" ++ q) := by
  by_cases hr : root = ""
  · simp [join, hr, hq]
  · simp [join, hr, hq]

theorem isAbsolute_join {q : String} (h : OfNames q) (root : String) :
    isAbsolute (join [root, q]) = isAbsolute root := by
  rw [join_pair h.ne_empty, isAbsolute_clean]
  split
  next hr =>
    rw [h.relative, hr]
    exact (isAbsolute_of_slash (by simp)).symm
  next hr => rw [String.append_assoc, isAbsolute_append hr]

/-- A path of names stands below the directory that it is joined to. -/
theorem kept_join {q : String} (h : OfNames q) (root : String) :
    kept (join [root, q]) = kept root ++ segments q := by
  rw [join_pair h.ne_empty, kept_clean]
  split
  next hr =>
    rw [hr, kept, h.relative]
    exact cleanSegments_of_normal (Normal.names (.nil _) h)
  next hr =>
    rw [kept, String.append_assoc, isAbsolute_append hr, ← String.append_assoc, segments_append,
      cleanSegments_append]
    have hroot := (kept_normal root).names h
    have hnames : cleanSegments (isAbsolute root) (kept root).reverse (segments q) =
        (kept root).reverse.reverse ++ segments q :=
      cleanSegments_of_normal (by rwa [List.reverse_reverse])
    rw [List.reverse_reverse] at hnames
    exact hnames

end Scaffold.Disk
