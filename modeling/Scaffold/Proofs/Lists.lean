import Mathlib.Data.List.Basic
import Mathlib.Data.List.Forall2

/-! # Lists

Conditions on the entries before an entry, what holds of two lists pair by pair, and lists that
keep the first of several members that count as the same. -/
namespace Scaffold

/-! ## Lists in order -/

/-- Every entry meets the condition on those before it. -/
def InOrder {α : Type} (P : List α → α → Prop) (xs : List α) : Prop :=
  ∀ before x after, xs = before ++ x :: after → P before x

namespace InOrder

variable {α : Type} {P : List α → α → Prop} {xs ys : List α} {x : α}

theorem nil (P : List α → α → Prop) : InOrder P [] := by
  intro before x after h
  simp at h

theorem left (h : InOrder P (xs ++ ys)) : InOrder P xs := by
  rintro before x after rfl
  exact h before x (after ++ ys) (by simp)

theorem concat (h : InOrder P xs) (hx : P xs x) : InOrder P (xs ++ [x]) := by
  intro before y after heq
  rcases List.eq_nil_or_concat after with rfl | ⟨rest, last, rfl⟩
  · obtain ⟨rfl, hxy⟩ := List.append_inj' heq rfl
    obtain rfl : x = y := by simpa using hxy
    exact hx
  · have hcat : xs ++ [x] = (before ++ y :: rest) ++ [last] := by simpa using heq
    exact h before y rest (List.append_inj' hcat rfl).1

end InOrder

/-! ## Lists side by side -/

theorem exists_of_mem_right {α β : Type} {R : α → β → Prop} {xs : List α} {ys : List β}
    (h : List.Forall₂ R xs ys) {y : β} (hy : y ∈ ys) : ∃ x ∈ xs, R x y := by
  induction h with
  | nil => cases hy
  | cons hxy _ ih =>
    rcases List.mem_cons.mp hy with rfl | hy
    · exact ⟨_, List.mem_cons_self, hxy⟩
    · obtain ⟨x, hx, hr⟩ := ih hy
      exact ⟨x, List.mem_cons_of_mem _ hx, hr⟩

theorem exists_of_mem_left {α β : Type} {R : α → β → Prop} {xs : List α} {ys : List β}
    (h : List.Forall₂ R xs ys) {x : α} (hx : x ∈ xs) : ∃ y ∈ ys, R x y :=
  exists_of_mem_right h.flip hx

theorem forall₂_imp_of_mem {α β : Type} {R S : α → β → Prop} {xs : List α} {ys : List β}
    (h : List.Forall₂ R xs ys) (hRS : ∀ x ∈ xs, ∀ y ∈ ys, R x y → S x y) :
    List.Forall₂ S xs ys := by
  induction h with
  | nil => exact .nil
  | cons hxy _ ih =>
    refine .cons (hRS _ (.head _) _ (.head _) hxy) (ih fun x hx y hy => ?_)
    exact hRS x (.tail _ hx) y (.tail _ hy)

theorem map_eq_of_forall₂ {α β γ : Type} {f : α → γ} {g : β → γ} {xs : List α} {ys : List β}
    (h : List.Forall₂ (fun x y => g y = f x) xs ys) : ys.map g = xs.map f := by
  rw [← List.forall₂_eq_eq_eq, List.forall₂_map_left_iff, List.forall₂_map_right_iff]
  exact h.flip

theorem forall₂_map {α β : Type} {r : α → β → Prop} {g : α → β} {xs : List α}
    (h : ∀ x ∈ xs, r x (g x)) : List.Forall₂ r xs (xs.map g) := by
  rw [List.forall₂_map_right_iff, List.forall₂_same]
  exact h

/-- A reader that can use every member drops none. -/
theorem forall₂_filterMap {α β : Type} {r : α → β → Prop} {g : α → Option β} {xs : List α}
    (h : ∀ x ∈ xs, ∃ y, g x = some y ∧ r x y) : List.Forall₂ r xs (xs.filterMap g) := by
  induction xs with
  | nil => exact .nil
  | cons x xs ih =>
    obtain ⟨⟨y, hy, hr⟩, hxs⟩ := List.forall_mem_cons.mp h
    rw [List.filterMap_cons_some hy]
    exact .cons hr (ih hxs)

/-! ## Members in order of first appearance -/

/-- Keep the members for which nothing was kept before that counts as the same. -/
def keepFirst {α : Type} (seenBy : List α → α → Bool) (seen xs : List α) : List α :=
  xs.foldl (fun seen x => if seenBy seen x then seen else seen ++ [x]) seen

theorem keepFirst_cons {α : Type} {seenBy : List α → α → Bool} {seen xs : List α} {x : α} :
    keepFirst seenBy seen (x :: xs) =
      keepFirst seenBy (if seenBy seen x then seen else seen ++ [x]) xs := rfl

/-- A property that is shared by all that count as the same is not lost. -/
theorem exists_mem_keepFirst {α : Type} {seenBy : List α → α → Bool} {q : α → Prop}
    (hsame : ∀ seen x, seenBy seen x = true → q x → ∃ y ∈ seen, q y) {seen xs : List α}
    (h : (∃ y ∈ seen, q y) ∨ ∃ y ∈ xs, q y) : ∃ y ∈ keepFirst seenBy seen xs, q y := by
  induction xs generalizing seen with
  | nil => exact h.resolve_right (by simp)
  | cons x xs ih =>
    rw [keepFirst_cons]
    apply ih
    by_cases hc : seenBy seen x = true
    · rw [if_pos hc]
      rcases h with h | ⟨y, hy, hq⟩
      · exact .inl h
      · rcases List.mem_cons.mp hy with rfl | hy
        · exact .inl (hsame seen y hc hq)
        · exact .inr ⟨y, hy, hq⟩
    · rw [if_neg hc]
      rcases h with ⟨y, hy, hq⟩ | ⟨y, hy, hq⟩
      · exact .inl ⟨y, List.mem_append_left _ hy, hq⟩
      · rcases List.mem_cons.mp hy with rfl | hy
        · exact .inl ⟨y, by simp, hq⟩
        · exact .inr ⟨y, hy, hq⟩

/-- Where members count as the same by a key, their keys stay as they first appear. -/
theorem keepFirst_keys {α κ : Type} [BEq κ] [LawfulBEq κ] (key : α → κ) (seen xs : List α) :
    (keepFirst (fun seen x => seen.any fun y => key y == key x) seen xs).map key =
      seen.map key ++ ((xs.map key).filter fun k => !(seen.map key).contains k).eraseDups := by
  induction xs generalizing seen with
  | nil => simp [keepFirst]
  | cons x xs ih =>
    have hseen : (seen.any fun y => key y == key x) = (seen.map key).contains (key x) := by
      rw [Bool.eq_iff_iff]
      simp
    have hmap : (seen ++ [x]).map key = seen.map key ++ [key x] := by simp
    rw [keepFirst_cons, ih, hseen, apply_ite (List.map key), hmap, List.map_cons,
      List.filter_cons]
    generalize seen.map key = kept
    by_cases hc : key x ∈ kept
    · simp [hc]
    · have hnew (k : κ) : (!decide (k ∈ kept ++ [key x])) =
          (!(k == key x) && !decide (k ∈ kept)) := by
        by_cases hk : k = key x <;> simp [hk]
      simp only [List.contains_eq_mem, hc, decide_false, Bool.not_false, Bool.false_eq_true,
        if_true, if_false, List.eraseDups_cons, List.filter_filter, hnew, List.append_assoc,
        List.singleton_append]

theorem foldl_contains {α : Type} [BEq α] [LawfulBEq α] (xs : List α) :
    xs.foldl (fun seen x => if seen.contains x then seen else seen ++ [x]) [] = xs.eraseDups := by
  simpa [keepFirst, List.contains_eq_any_beq, BEq.comm] using keepFirst_keys (fun x : α => x) [] xs

end Scaffold
