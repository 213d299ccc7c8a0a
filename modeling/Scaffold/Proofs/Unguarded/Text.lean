import Mathlib.Data.List.Basic
import Scaffold.Proofs.Text.Search
import Scaffold.Proofs.Text.Words
import Scaffold.Storage.Plan

/-! # Words without a guard

A program that indexes a list, or follows a reference that leads nowhere, stops with a crash. Here
stand the functions that do so again, as they index: they give none where the program would crash.
Each is shown to give what the function does, so no access is out of range. -/
namespace Scaffold.Unguarded

open Scaffold.Text

/-- The part of a list between two indices, which have to be in order and in range. -/
def slice? {α : Type} (xs : List α) (i j : Nat) : Option (List α) :=
  if i ≤ j ∧ j ≤ xs.length then some ((xs.take j).drop i) else none

/-- What stands at an index, if it is in range: an access behind a guard. -/
def guarded? {α : Type} (xs : List α) (i : Nat) : Option (Option α) :=
  if i < xs.length then (xs[i]?).map some else some none

section Slice

variable {α : Type}

theorem guarded?_eq (xs : List α) (i : Nat) : guarded? xs i = some xs[i]? := by
  unfold guarded?
  split
  next h => rw [List.getElem?_eq_getElem h, Option.map_some]
  next h => rw [List.getElem?_eq_none (Nat.le_of_not_lt h)]

theorem slice?_append (before mid after : List α) :
    slice? (before ++ mid ++ after) before.length (before.length + mid.length) = some mid := by
  rw [slice?, if_pos (by simp), List.take_left' (by simp), List.drop_left]

theorem slice?_take {xs : List α} {k : Nat} (h : k ≤ xs.length) :
    slice? xs 0 k = some (xs.take k) := by
  rw [slice?, if_pos ⟨Nat.zero_le k, h⟩, List.drop_zero]

theorem slice?_drop {xs : List α} {k : Nat} (h : k ≤ xs.length) :
    slice? xs k xs.length = some (xs.drop k) := by
  rw [slice?, if_pos ⟨h, Nat.le_refl _⟩, List.take_length]

end Slice

/-! ## Words -/

/-- Close the word that is open since `start`, at the index `i`. -/
def flush? (cs : List Char) (start : Option Nat) (i : Nat) (out : List (List Char)) :
    Option (List (List Char)) :=
  match start with
  | none => some out
  | some s =>
    if s < i then do
      let word ← slice? cs s i
      some (out ++ [word])
    else some out

/-- The words of `cs` from the index `i` on, where `rest` begins. -/
def wordsFrom? (cs : List Char) :
    Nat → Option Nat → List (List Char) → List Char → Option (List (List Char))
  | i, start, out, [] => flush? cs start i out
  | i, start, out, c :: rest =>
    if !isWordChar c then do
      let out ← flush? cs start i out
      wordsFrom? cs (i + 1) none out rest
    else match start with
      | none => wordsFrom? cs (i + 1) (some i) out rest
      | some s => do
        let before ← cs[i - 1]?
        let after ← guarded? cs (i + 1)
        if startsWord before c after then do
          let out ← flush? cs (some s) i out
          wordsFrom? cs (i + 1) (some i) out rest
        else wordsFrom? cs (i + 1) (some s) out rest

def words? (s : String) : Option (List (List Char)) := wordsFrom? s.toList 0 none [] s.toList

theorem flush?_open {cs before current rest : List Char}
    (hcs : cs = before ++ current.reverse ++ rest) (hne : current ≠ [])
    (out : List (List Char)) :
    flush? cs (some before.length) (before.length + current.length) out =
      some (out ++ [current.reverse]) := by
  have hpos := List.length_pos_iff.mpr hne
  have hslice := slice?_append before current.reverse rest
  rw [List.length_reverse, ← hcs] at hslice
  simp only [flush?, hslice]
  rw [if_pos (by omega)]
  rfl

/-- Between two words nothing is open; an open word lies between its start and the index. -/
theorem wordsFrom?_eq {cs : List Char} (rest : List Char) :
    (∀ (before : List Char) (out : List (List Char)), cs = before ++ rest →
      wordsFrom? cs before.length none out rest = some (out ++ wordsFrom [] rest)) ∧
    ∀ (before current : List Char) (out : List (List Char)), current ≠ [] →
      cs = before ++ current.reverse ++ rest →
        wordsFrom? cs (before.length + current.length) (some before.length) out rest =
          some (out ++ wordsFrom current rest) := by
  induction rest with
  | nil =>
    constructor
    · intro before out hcs
      simp [wordsFrom?, flush?, wordsFrom]
    · intro before current out hne hcs
      rw [wordsFrom?, flush?_open hcs hne]
      cases current with
      | nil => exact absurd rfl hne
      | cons => rfl
  | cons c rest ih =>
    obtain ⟨hskip, hopen⟩ := ih
    constructor
    · intro before out hcs
      rw [wordsFrom?, wordsFrom]
      cases hc : isWordChar c with
      | true => simpa [hc] using hopen before [c] out (by simp) (by simp [hcs])
      | false => simpa [hc, flush?] using hskip (before ++ [c]) out (by simp [hcs])
    · intro before current out hne hcs
      have hflush := flush?_open hcs hne out
      obtain ⟨d, ds, rfl⟩ := List.exists_cons_of_ne_nil hne
      -- The character before is the last of the open word, the one behind is the next to come.
      have hbefore : cs[before.length + (d :: ds).length - 1]? = some d := by
        rw [hcs]
        simp
      have hafter : cs[before.length + (d :: ds).length + 1]? = rest.head? := by
        rw [hcs, List.getElem?_append_right (by simp)]
        simp [List.head?_eq_getElem?]
      have hlen : (before ++ (d :: ds).reverse).length = before.length + (d :: ds).length := by simp
      rw [wordsFrom?, wordsFrom]
      cases hc : isWordChar c with
      | false =>
        have hnext := hskip (before ++ (d :: ds).reverse ++ [c]) (out ++ [(d :: ds).reverse])
          (by simp [hcs])
        rw [List.length_append, hlen] at hnext
        simp only [Bool.not_false, if_true, hflush, Option.bind_eq_bind, Option.bind_some]
        exact hnext.trans (by simp)
      | true =>
        simp only [Bool.not_true, Bool.false_eq_true, if_false, hbefore, guarded?_eq, hafter,
          Option.bind_eq_bind, Option.bind_some]
        cases hstart : startsWord d c rest.head? with
        | true =>
          have hnext := hopen (before ++ (d :: ds).reverse) [c] (out ++ [(d :: ds).reverse])
            (by simp) (by simp [hcs])
          rw [hlen] at hnext
          simp only [if_true, hflush, Option.bind_some]
          exact hnext.trans (by simp)
        | false => exact hopen before (c :: d :: ds) out (by simp) (by simp [hcs])

theorem words?_eq (s : String) : words? s = some ((words s).map String.toList) := by
  have h := (wordsFrom?_eq s.toList).1 [] [] rfl
  simpa [words?, words] using h

/-! ## Names -/

/-- A word with its first character in upper case. -/
def capital? (w : List Char) : Option (List Char) := do
  let c ← w[0]?
  let rest ← slice? w 1 w.length
  some (upper c :: rest)

def pascal? (s : String) : Option String := do
  let ws ← words? s
  let parts ← ws.mapM capital?
  some (String.ofList parts.flatten)

def camel? (s : String) : Option String := do
  let name ← pascal? s
  let cs := name.toList
  let lead := (cs.takeWhile isUpper).length
  let cut := if lead = cs.length then lead else if lead > 1 then lead - 1 else lead
  let start ← slice? cs 0 cut
  let rest ← slice? cs cut cs.length
  some (String.ofList (start.map lower ++ rest))

theorem mapM_eq_some {α β : Type} {f : α → Option β} {g : α → β} {xs : List α}
    (h : ∀ x ∈ xs, f x = some (g x)) : xs.mapM f = some (xs.map g) := by
  induction xs with
  | nil => rfl
  | cons x xs ih =>
    obtain ⟨hx, hxs⟩ := List.forall_mem_cons.mp h
    simp [List.mapM_cons, hx, ih hxs]

theorem capital?_eq {w : List Char} (h : w ≠ []) :
    capital? w = some (capitalized (String.ofList w)).toList := by
  obtain ⟨c, cs, rfl⟩ := List.exists_cons_of_ne_nil h
  have hrest : slice? (c :: cs) 1 (c :: cs).length = some cs := slice?_drop (by simp)
  simp only [capital?, hrest, List.getElem?_cons_zero, Option.bind_eq_bind, Option.bind_some]
  simp [capitalized]

/-- No word is empty, so each has a first letter. -/
theorem pascal?_eq (s : String) : pascal? s = some (pascal s) := by
  have hcaps : ((words s).map String.toList).mapM capital? =
      some (((words s).map String.toList).map fun w => (capitalized (String.ofList w)).toList) := by
    refine mapM_eq_some fun w hw => capital?_eq ?_
    obtain ⟨v, hv, rfl⟩ := List.mem_map.mp hw
    exact mt String.toList_eq_nil_iff.mp (words_chars hv).1
  have hjoin : ((words s).map fun w => (capitalized w).toList).flatten = (pascal s).toList := by
    rw [pascal, String.toList_join, List.flatMap_map, List.flatMap_def]
  simp only [pascal?, words?_eq, hcaps, Option.bind_eq_bind, Option.bind_some, List.map_map,
    Function.comp_def, String.ofList_toList, hjoin]

theorem camel?_eq (s : String) : camel? s = some (camel s) := by
  have hlead := (List.takeWhile_prefix isUpper (l := (pascal s).toList)).length_le
  have hcut : ∀ n, n ≤ (pascal s).toList.length →
      (if n = (pascal s).toList.length then n else if n > 1 then n - 1 else n) ≤
        (pascal s).toList.length := by
    intro n hn
    split
    · exact hn
    · split <;> omega
  simp only [camel?, pascal?_eq, Option.bind_eq_bind, Option.bind_some,
    slice?_take (hcut _ hlead), slice?_drop (hcut _ hlead)]
  rfl

/-- The plural of a noun, with the letter before its last read by index. -/
def plural? (s : String) : Option String :=
  let cs := s.toList
  if ["ss", "x", "z", "ch", "sh"].any (endsWith s) then some (s ++ "es")
  else if endsWith s "s" then some s
  else if endsWith s "y" && 1 < cs.length then do
    let c ← cs[cs.length - 2]?
    if Storage.isVowel c then some (s ++ "s")
    else do
      let stem ← slice? cs 0 (cs.length - 1)
      some (String.ofList stem ++ "ies")
  else some (s ++ "s")

theorem plural?_eq (s : String) : plural? s = some (Storage.plural s) := by
  unfold plural? Storage.plural
  split
  · rfl
  split
  · rfl
  by_cases h : ∃ cs c, s.toList = cs ++ [c, 'y']
  · obtain ⟨cs, c, hs⟩ := h
    have hends : endsWith s "y" = true := endsWith_iff.mpr ⟨cs ++ [c], by simp [hs]⟩
    have hget : s.toList[s.toList.length - 2]? = some c := by simp [hs]
    have hstem : slice? s.toList 0 (s.toList.length - 1) = some (cs ++ [c]) := by
      rw [slice?_take (by omega), hs, List.append_cons, List.take_left' (by simp)]
    have hrev : s.toList.reverse = 'y' :: c :: cs.reverse := by simp [hs]
    have hlong : 1 < s.toList.length := by simp [hs]
    simp only [hends, hlong, hget, hstem, hrev]
    cases hc : Storage.isVowel c <;> simp [hc]
  · have hguard : ¬ (endsWith s "y" && decide (1 < s.toList.length)) = true := by
      intro hboth
      obtain ⟨hends, hlong⟩ := Bool.and_eq_true_iff.mp hboth
      obtain ⟨cs, hs⟩ := endsWith_iff.mp hends
      rcases List.eq_nil_or_concat cs with rfl | ⟨cs, c, rfl⟩
      · simp [hs] at hlong
      · exact h ⟨cs, c, by simpa using hs⟩
    rw [if_neg hguard]
    split
    next c rest hrev =>
      exact absurd ⟨rest.reverse, c, by simpa using congrArg List.reverse hrev⟩ h
    next => rfl

end Scaffold.Unguarded
