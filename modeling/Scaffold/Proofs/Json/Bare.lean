import Scaffold.Proofs.Json.RoundTrip
import Scaffold.Proofs.Output.Unmarked

/-! # Values without markers

A value is printed without markers when no key, no text and no number in it has one: what is escaped
begins with a character of no marker, and so does all that is printed around a text. -/
namespace Scaffold.Json

open Scaffold.Output
open Scaffold.Text (hexDigit hexDigits)

/-! ## Texts of a value -/

mutual

/-- The keys, the texts and the numbers of a value, at any depth. -/
def texts : Json → List String
  | null | bool _ => []
  | number raw => [raw]
  | string text => [text]
  | array elems => elemTexts elems
  | object members => memberTexts members

def elemTexts : List Json → List String
  | [] => []
  | x :: xs => texts x ++ elemTexts xs

def memberTexts : List (String × Json) → List String
  | [] => []
  | (k, x) :: ms => k :: texts x ++ memberTexts ms

end

/-- No text of a value has a marker. -/
def Bare (j : Json) : Prop := ∀ t ∈ j.texts, Unmarked t

/-- No text among members has a marker. -/
def BareMembers (ms : List (String × Json)) : Prop := ∀ m ∈ ms, Unmarked m.1 ∧ m.2.Bare

@[simp] theorem bare_null : null.Bare := by simp [Bare, texts]

@[simp] theorem bare_bool (value : Bool) : (bool value).Bare := by simp [Bare, texts]

@[simp] theorem bare_number (raw : String) : (number raw).Bare ↔ Unmarked raw := by
  simp [Bare, texts]

@[simp] theorem bare_string (text : String) : (string text).Bare ↔ Unmarked text := by
  simp [Bare, texts]

@[simp] theorem bare_array (xs : List Json) : (array xs).Bare ↔ ∀ x ∈ xs, x.Bare := by
  rw [Bare, texts]
  induction xs with
  | nil => simp [elemTexts]
  | cons x xs ih => rw [elemTexts, List.forall_mem_append, List.forall_mem_cons, ih, Bare]

@[simp] theorem bare_object (ms : List (String × Json)) : (object ms).Bare ↔ BareMembers ms := by
  rw [Bare, texts, BareMembers]
  induction ms with
  | nil => simp [memberTexts]
  | cons m ms ih =>
    rw [memberTexts, List.cons_append, List.forall_mem_cons, List.forall_mem_append,
      List.forall_mem_cons, ih, Bare, and_assoc]

@[simp] theorem bare_strings (xs : List String) : (strings xs).Bare ↔ ∀ x ∈ xs, Unmarked x := by
  simp [strings]

/-! ## Members -/

@[simp] theorem bareMembers_nil : BareMembers [] := by simp [BareMembers]

@[simp] theorem bareMembers_cons (m : String × Json) (ms : List (String × Json)) :
    BareMembers (m :: ms) ↔ (Unmarked m.1 ∧ m.2.Bare) ∧ BareMembers ms := List.forall_mem_cons

@[simp] theorem bareMembers_append (ms ns : List (String × Json)) :
    BareMembers (ms ++ ns) ↔ BareMembers ms ∧ BareMembers ns := List.forall_mem_append

section Members

variable {key : String} (hkey : Unmarked key)
include hkey

@[simp] theorem bare_textMember (text : String) :
    BareMembers (textMember key text) ↔ Unmarked text := by
  unfold textMember
  split
  next h => simp [h, unmarked_empty]
  next => simp [hkey]

@[simp] theorem bare_flagMember (flag : Bool) : BareMembers (flagMember key flag) := by
  unfold flagMember
  split <;> simp [hkey]

@[simp] theorem bare_listMember (xs : List String) :
    BareMembers (listMember key xs) ↔ ∀ x ∈ xs, Unmarked x := by
  unfold listMember
  split
  next h => simp [List.isEmpty_iff.mp h]
  next => simp [hkey]

@[simp] theorem bare_optionMember {α : Type} (f : α → Json) (x : Option α) :
    BareMembers (optionMember key f x) ↔ ∀ y, x = some y → (f y).Bare := by
  cases x <;> simp [optionMember, hkey]

end Members

/-! ## Printed values -/

theorem s_notMem_hexDigits (width n : Nat) : 's' ∉ hexDigits width n := by
  have hdigit : ∀ d < 16, hexDigit d ≠ 's' := by decide
  induction width generalizing n with
  | zero => simp [hexDigits]
  | succ width ih =>
    rw [hexDigits, List.mem_append, List.mem_singleton, not_or]
    exact ⟨ih (n / 16), Ne.symm (hdigit _ (Nat.mod_lt n (by decide)))⟩

theorem backslash_notMem : ∀ m ∈ markers, '\\' ∉ m := by decide

/-- An escaped character begins with a backslash. -/
theorem isSeal_escapeChar (html : Bool) (c : Char) :
    escapeChar html c = [c] ∨ IsSeal (String.ofList (escapeChar html c)) := by
  unfold escapeChar
  split
  on_goal 8 =>
    split
    · refine .inr (isSeal_cons backslash_notMem (by decide) ?_)
      simp [s_notMem_hexDigits]
    · exact .inl rfl
  all_goals exact .inr (isSeal_cons backslash_notMem (by decide) (by decide))

theorem unmarked_quoteText (html : Bool) {s : String} (h : Unmarked s) :
    Unmarked (quoteText html s) := by
  have hquote : IsSeal "\"" := by decide
  rw [quoteText, unmarked_before hquote, unmarked_after hquote]
  exact unmarked_escaped (isSeal_escapeChar html) h

/-- A colon may stand in a marker, but not next to a quote. -/
theorem unmarked_member (html : Bool) {k s : String} (hk : Unmarked k) (hs : Unmarked s) :
    Unmarked (quoteText html k ++ ":" ++ s) := by
  have hcolon : "\":" = "\"" ++ ":" := by decide
  have hmember : quoteText html k ++ ":" ++ s =
      "\"" ++ String.ofList (k.toList.flatMap (escapeChar html)) ++ "\":" ++ s := by
    simp only [quoteText, hcolon, String.append_assoc]
  rw [hmember, unmarked_sealed (by decide), unmarked_after (by decide)]
  exact ⟨unmarked_escaped (isSeal_escapeChar html) hk, hs⟩

theorem elems_compact (html : Bool) (xs : List Json) :
    compactElems html xs = xs.map (compact html) := by
  induction xs with
  | nil => rfl
  | cons x xs ih => rw [compactElems, ih, List.map_cons]

theorem members_compact (html : Bool) (ms : List (String × Json)) : compactMembers html ms =
    ms.map fun m => quoteText html m.1 ++ ":" ++ compact html m.2 := by
  induction ms with
  | nil => rfl
  | cons m ms ih => rw [compactMembers, ih, List.map_cons]

theorem unmarked_compact (html : Bool) {j : Json} (h : j.Bare) : Unmarked (compact html j) := by
  induction j using induct with
  | null => exact unmarked_of_colon (s := "null") (by decide)
  | bool value => cases value <;> simp only [compact] <;> exact unmarked_of_colon (by decide)
  | number raw => exact (bare_number raw).mp h
  | string text => exact unmarked_quoteText html ((bare_string text).mp h)
  | array xs ih =>
    rw [bare_array] at h
    rw [compact, elems_compact, unmarked_before (by decide), unmarked_after (by decide),
      unmarked_intercalate (by decide), List.forall_mem_map]
    exact fun x hx => ih x hx (h x hx)
  | object ms ih =>
    rw [bare_object, BareMembers] at h
    rw [compact, members_compact, unmarked_before (by decide), unmarked_after (by decide),
      unmarked_intercalate (by decide), List.forall_mem_map]
    exact fun m hm => unmarked_member html (h m hm).1 (ih m hm (h m hm).2)

/-! ## Indented values -/

theorem isSeal_newLine (level : Nat) : IsSeal (newLine level) := by
  have hline : newLine level = String.ofList ('\n' :: List.replicate (2 * level) ' ') := by
    simp [newLine, String.ofList_cons]
  rw [hline]
  exact isSeal_cons (by decide) (by decide) (by simp)

theorem isSeal_comma_newLine (level : Nat) : IsSeal ("," ++ newLine level) := by
  have hline : "," ++ newLine level =
      String.ofList (',' :: '\n' :: List.replicate (2 * level) ' ') := by
    simp [newLine, String.ofList_cons]
  rw [hline]
  exact isSeal_cons (by decide) (by decide) (by simp)

theorem unmarked_bracketed {opening closing : String} (ho : Unmarked opening)
    (hc : Unmarked closing) (hjoint : Unmarked (opening ++ closing)) (level : Nat)
    {items : List String} (h : ∀ x ∈ items, Unmarked x) :
    Unmarked (bracketed opening closing level items) := by
  unfold bracketed
  split
  · exact hjoint
  · rw [unmarked_sealed (isSeal_newLine level), unmarked_sealed (isSeal_newLine (level + 1)),
      unmarked_intercalate (isSeal_comma_newLine (level + 1))]
    exact ⟨⟨ho, h⟩, hc⟩

theorem elems_indented (html : Bool) (level : Nat) (xs : List Json) :
    indentedElems html level xs = xs.map (indented html level) := by
  induction xs with
  | nil => rfl
  | cons x xs ih => rw [indentedElems, ih, List.map_cons]

theorem members_indented (html : Bool) (level : Nat) (ms : List (String × Json)) :
    indentedMembers html level ms =
      ms.map fun m => quoteText html m.1 ++ ": " ++ indented html level m.2 := by
  induction ms with
  | nil => rfl
  | cons m ms ih => rw [indentedMembers, ih, List.map_cons]

theorem unmarked_indented (html : Bool) (level : Nat) {j : Json} (h : j.Bare) :
    Unmarked (indented html level j) := by
  induction j using induct generalizing level with
  | null => exact unmarked_of_colon (s := "null") (by decide)
  | bool value => cases value <;> simp only [indented] <;> exact unmarked_of_colon (by decide)
  | number raw => exact (bare_number raw).mp h
  | string text => exact unmarked_quoteText html ((bare_string text).mp h)
  | array xs ih =>
    rw [bare_array] at h
    rw [indented, elems_indented]
    refine unmarked_bracketed (by decide) (by decide) (by decide) level ?_
    exact List.forall_mem_map.mpr fun x hx => ih x hx (level + 1) (h x hx)
  | object ms ih =>
    rw [bare_object, BareMembers] at h
    rw [indented, members_indented]
    refine unmarked_bracketed (by decide) (by decide) (by decide) level ?_
    refine List.forall_mem_map.mpr fun m hm => ?_
    rw [unmarked_sealed (by decide)]
    exact ⟨unmarked_quoteText html (h m hm).1, ih m hm (level + 1) (h m hm).2⟩

end Scaffold.Json
