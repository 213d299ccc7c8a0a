import Mathlib.Data.List.Infix
import Mathlib.Tactic.Common
import Scaffold.Output.Tree
import Scaffold.Output.Region

/-! # Texts without markers

A text between two others keeps markers out of the joints when it can neither begin nor end nor be
part of one. Fixed code is such a text, so a line has no marker when the texts in it have none. -/
namespace Scaffold.Output

/-- The characters of the begin and the end marker of a region, without the blank behind them. -/
def markers : List (List Char) :=
  [['s', 't', 'a', 'l', 'm', 'e', 'r', ':', 'c', 'u', 's', 't', 'o', 'm', ':', 'b', 'e', 'g', 'i',
      'n'],
    ['s', 't', 'a', 'l', 'm', 'e', 'r', ':', 'c', 'u', 's', 't', 'o', 'm', ':', 'e', 'n', 'd']]

theorem markers_eq : markers = [beginMarker.toList, endMarker.toList] := by decide

/-- No marker occurs among the characters. -/
def Free (cs : List Char) : Prop := ∀ m ∈ markers, ¬ m <:+: cs

instance (cs : List Char) : Decidable (Free cs) :=
  inferInstanceAs (Decidable (∀ m ∈ markers, ¬ m <:+: cs))

/-! ## Overlaps -/

/-- Whether one text begins with the other. -/
def agree : List Char → List Char → Bool
  | c :: cs, d :: ds => c == d && agree cs ds
  | _, _ => true

/-- Whether the second text begins among the characters of the first, and may run on behind them. -/
def overlaps : List Char → List Char → Bool
  | [], _ => false
  | c :: cs, ds => agree (c :: cs) ds || overlaps cs ds

theorem agree_iff {cs ds : List Char} : agree cs ds = true ↔ cs <+: ds ∨ ds <+: cs := by
  fun_induction agree cs ds with
  | case1 c cs d ds ih =>
    rw [Bool.and_eq_true, beq_iff_eq, ih, List.cons_prefix_cons, List.cons_prefix_cons]
    constructor
    · rintro ⟨rfl, h⟩
      simpa using h
    · rintro (⟨rfl, h⟩ | ⟨rfl, h⟩)
      · exact ⟨rfl, .inl h⟩
      · exact ⟨rfl, .inr h⟩
  | case2 cs ds h =>
    cases cs with
    | nil => simp
    | cons c cs =>
      cases ds with
      | nil => simp
      | cons d ds => exact absurd rfl (h c cs d ds rfl)

theorem overlaps_of_suffix {cs ds t : List Char} (ht : t <:+ cs) (hne : t ≠ [])
    (h : t <+: ds ∨ ds <+: t) : overlaps cs ds = true := by
  induction cs with
  | nil => exact absurd (List.suffix_nil.mp ht) hne
  | cons c cs ih =>
    rw [overlaps, Bool.or_eq_true]
    rcases List.suffix_cons_iff.mp ht with rfl | ht
    · exact .inl (agree_iff.mpr h)
    · exact .inr (ih ht)

/-- A text that begins nowhere in another does not occur in it. -/
theorem not_infix_of_overlaps {m cs : List Char} (hne : m ≠ []) (h : overlaps cs m = false) :
    ¬ m <:+: cs := by
  rintro ⟨before, after, rfl⟩
  have hend : m ++ after <:+ before ++ m ++ after := ⟨before, by simp⟩
  have hin := overlaps_of_suffix hend (by simp [hne]) (.inr (List.prefix_append m after))
  rw [h] at hin
  cases hin

theorem exists_of_overlaps {cs ds : List Char} (h : overlaps cs ds = true) :
    ∃ c rest, c :: rest <:+ cs ∧ agree (c :: rest) ds = true := by
  induction cs with
  | nil => cases h
  | cons c cs ih =>
    rcases Bool.or_eq_true_iff.mp h with h | h
    · exact ⟨c, cs, List.suffix_refl _, h⟩
    · obtain ⟨d, rest, hsuffix, hagree⟩ := ih h
      exact ⟨d, rest, hsuffix.trans (List.suffix_cons c cs), hagree⟩

theorem overlaps_of_notMem {d : Char} {cs : List Char} (h : d ∉ cs) (ds : List Char) :
    overlaps cs (d :: ds) = false := by
  induction cs with
  | nil => rfl
  | cons c cs ih =>
    rw [List.mem_cons, not_or] at h
    rw [overlaps, agree, ih h.2, beq_eq_false_iff_ne.mpr (Ne.symm h.1)]
    rfl

/-! ## Joints -/

/-- A text that does not overlap with the characters between two others occurs in one of these or
nowhere. -/
theorem infix_sealed {m ps : List Char} (hne : m ≠ []) (hp : overlaps ps m = false)
    (hm : overlaps m ps = false) (cs ds : List Char) :
    m <:+: cs ++ ps ++ ds ↔ m <:+: cs ∨ m <:+: ds := by
  constructor
  · intro h
    rw [List.append_assoc, List.infix_append_iff_ne_nil, List.infix_append_iff_ne_nil] at h
    rcases h with h | (h | h | ⟨x, y, hx, -, rfl, hend, -⟩) | ⟨x, y, -, hy, rfl, -, hstart⟩
    · exact .inl h
    · exact absurd h (not_infix_of_overlaps hne hp)
    · exact .inr h
    · have hin := overlaps_of_suffix hend hx (.inl (List.prefix_append x y))
      rw [hp] at hin
      cases hin
    · have hin := overlaps_of_suffix (List.suffix_append x y) hy
        (List.prefix_or_prefix_of_prefix hstart (List.prefix_append ps ds))
      rw [hm] at hin
      cases hin
  · rintro (h | h)
    · exact h.trans ⟨[], ps ++ ds, by simp⟩
    · exact h.trans ⟨cs ++ ps, [], by simp⟩

/-- No marker overlaps with the characters on either side. -/
def Seals (cs : List Char) : Prop :=
  ∀ m ∈ markers, overlaps cs m = false ∧ overlaps m cs = false

instance (cs : List Char) : Decidable (Seals cs) :=
  inferInstanceAs (Decidable (∀ m ∈ markers, overlaps cs m = false ∧ overlaps m cs = false))

theorem ne_nil_of_mem_markers {m : List Char} (h : m ∈ markers) : m ≠ [] := by
  have hall : ∀ m ∈ markers, m ≠ [] := by decide
  exact hall m h

theorem Free.of_infix {cs ds : List Char} (h : Free ds) (hin : cs <:+: ds) : Free cs :=
  fun m hm hc => h m hm (hc.trans hin)

/-- A seal keeps the texts on its sides apart. -/
theorem free_sealed {ps : List Char} (hp : Seals ps) (cs ds : List Char) :
    Free (cs ++ ps ++ ds) ↔ Free cs ∧ Free ds := by
  have hmarker (m : List Char) (hm : m ∈ markers) :
      m <:+: cs ++ ps ++ ds ↔ m <:+: cs ∨ m <:+: ds :=
    infix_sealed (ne_nil_of_mem_markers hm) (hp m hm).1 (hp m hm).2 cs ds
  constructor
  · exact fun h => ⟨fun m hm hc => h m hm ((hmarker m hm).mpr (.inl hc)),
      fun m hm hd => h m hm ((hmarker m hm).mpr (.inr hd))⟩
  · exact fun ⟨hc, hd⟩ m hm h => ((hmarker m hm).mp h).elim (hc m hm) (hd m hm)

/-- A character of no marker is a seal, and so are characters behind it in which no marker begins. -/
theorem seals_cons {c : Char} {cs : List Char} (hc : ∀ m ∈ markers, c ∉ m) (hs : 's' ∉ cs) :
    Seals (c :: cs) := by
  have hheads : ∀ m ∈ markers, m.head? = some 's' := by decide
  intro m hm
  refine ⟨?_, overlaps_of_notMem (hc m hm) cs⟩
  cases m with
  | nil => cases hheads _ hm
  | cons d ds =>
    obtain rfl : d = 's' := by simpa using hheads _ hm
    refine overlaps_of_notMem ?_ ds
    rw [List.mem_cons, not_or]
    exact ⟨fun he => hc _ hm (he ▸ .head _), hs⟩

/-- Other characters in place of some bring in no marker when they keep markers apart. -/
theorem free_flatMap {α : Type} {xs : List α} {plain image : α → List Char}
    (h : ∀ x ∈ xs, image x = plain x ∨ Seals (image x)) (hfree : Free (xs.flatMap plain)) :
    Free (xs.flatMap image) := by
  -- `cs` are the characters kept since the last seal
  have hkept (cs : List Char) (hcs : Free (cs ++ xs.flatMap plain)) :
      Free (cs ++ xs.flatMap image) := by
    induction xs generalizing cs with
    | nil => exact hcs
    | cons x xs ih =>
      obtain ⟨hx, hxs⟩ := List.forall_mem_cons.mp h
      rw [List.flatMap_cons] at hcs ⊢
      have hrest : Free (xs.flatMap plain) := hcs.of_infix ⟨cs ++ plain x, [], by simp⟩
      rw [← List.append_assoc] at hcs ⊢
      rcases hx with hx | hx
      · rw [hx]
        exact ih hxs hrest _ hcs
      · have hnil := ih hxs hrest [] hrest
        exact (free_sealed hx cs _).mpr ⟨hcs.of_infix ⟨[], plain x ++ xs.flatMap plain, by simp⟩,
          hnil⟩
  exact hkept [] hfree

/-! ## Texts -/

/-- The characters of a text without carriage returns. -/
def shown (s : String) : List Char := s.toList.filter (· != '\r')

/-- A text in which no marker occurs, not even where a comment drops its carriage returns. -/
def Unmarked (s : String) : Prop := Free (shown s)

instance (s : String) : Decidable (Unmarked s) := inferInstanceAs (Decidable (Free (shown s)))

/-- A text that keeps markers apart. -/
def IsSeal (s : String) : Prop := Seals (shown s)

instance (s : String) : Decidable (IsSeal s) := inferInstanceAs (Decidable (Seals (shown s)))

theorem shown_append (s t : String) : shown (s ++ t) = shown s ++ shown t := by
  simp [shown]

theorem unmarked_sealed {p : String} (hp : IsSeal p) (s t : String) :
    Unmarked (s ++ p ++ t) ↔ Unmarked s ∧ Unmarked t := by
  rw [Unmarked, shown_append, shown_append]
  exact free_sealed hp (shown s) (shown t)

theorem unmarked_empty : Unmarked "" := by decide

theorem unmarked_after {p : String} (hp : IsSeal p) (t : String) :
    Unmarked (p ++ t) ↔ Unmarked t := by
  simpa [unmarked_empty] using unmarked_sealed hp "" t

theorem unmarked_before {p : String} (hp : IsSeal p) (s : String) :
    Unmarked (s ++ p) ↔ Unmarked s := by
  simpa [unmarked_empty] using unmarked_sealed hp s ""

theorem IsSeal.unmarked {p : String} (hp : IsSeal p) : Unmarked p := by
  have h := (unmarked_after hp "").mpr unmarked_empty
  rwa [String.append_empty] at h

/-- A seal that begins with a character of no marker. -/
theorem isSeal_cons {c : Char} {cs : List Char} (hc : ∀ m ∈ markers, c ∉ m) (hr : c ≠ '\r')
    (hs : 's' ∉ cs) : IsSeal (String.ofList (c :: cs)) := by
  have hshown : shown (String.ofList (c :: cs)) = c :: cs.filter (· != '\r') := by
    simp [shown, hr]
  rw [IsSeal, hshown]
  exact seals_cons hc fun h => hs (List.mem_of_mem_filter h)

/-! A fixed text is looked at by its characters, which is quicker than by its bytes, and these are
compared by their code points, which is quicker again. The lemmas are used below an `id`, so that
the text stays as it is written in what is proved of it. -/

/-- Whether there is no carriage return, and what follows each `d` passes a check. -/
def checked (d : Nat) (check : List Char → Bool) : List Char → Bool
  | [] => true
  | c :: cs =>
    bif Nat.beq c.toNat 0x0D then false
    else bif Nat.beq c.toNat d then check cs && checked d check cs
    else checked d check cs

theorem checked_spec {d : Nat} {check : List Char → Bool} {cs : List Char}
    (h : checked d check cs = true) :
    '\r' ∉ cs ∧ ∀ c rest, c.toNat = d → c :: rest <:+ cs → check rest = true := by
  induction cs with
  | nil => simp
  | cons x cs ih =>
    rw [checked] at h
    cases hreturn : Nat.beq x.toNat 0x0D with
    | true => simp [hreturn] at h
    | false =>
      have hne : '\r' ≠ x := fun he => by simp [← he] at hreturn
      rw [hreturn, cond_false] at h
      cases hd : Nat.beq x.toNat d with
      | true =>
        rw [hd, cond_true, Bool.and_eq_true] at h
        refine ⟨List.not_mem_cons_of_ne_of_not_mem hne (ih h.2).1, fun c rest hc hin => ?_⟩
        rcases List.suffix_cons_iff.mp hin with heq | hin
        · cases heq
          exact h.1
        · exact (ih h.2).2 c rest hc hin
      | false =>
        rw [hd, cond_false] at h
        refine ⟨List.not_mem_cons_of_ne_of_not_mem hne (ih h).1, fun c rest hc hin => ?_⟩
        rcases List.suffix_cons_iff.mp hin with heq | hin
        · cases heq
          simp [hc] at hd
        · exact (ih h).2 c rest hc hin

theorem shown_of_checked {d : Nat} {check : List Char → Bool} {cs : List Char}
    (h : checked d check cs = true) : shown (String.ofList cs) = cs := by
  rw [shown, String.toList_ofList, List.filter_eq_self]
  exact fun c hc => bne_iff_ne.mpr fun he => (checked_spec h).1 (he ▸ hc)

/-- Each marker has a colon before a small `c`. -/
theorem unmarked_ofList {cs : List Char}
    (h : checked 0x3A (fun rest => rest.head? != some 'c') cs = true) :
    Unmarked (String.ofList cs) := by
  have hcolon : ∀ m ∈ markers, [':', 'c'] <:+: m := by decide
  rw [Unmarked, shown_of_checked h]
  intro m hm hin
  obtain ⟨before, after, rfl⟩ := (hcolon m hm).trans hin
  have hnext := (checked_spec h).2 ':' ('c' :: after) rfl ⟨before, by simp⟩
  simp at hnext

theorem agree_of_prefix {cs ds es : List Char} (h : ds <+: es) (ha : agree cs es = true) :
    agree cs ds = true := by
  rw [agree_iff] at ha ⊢
  rcases ha with ha | ha
  · exact List.prefix_or_prefix_of_prefix ha h
  · exact .inr (h.trans ha)

/-- Each marker begins with the same four letters. -/
theorem isSeal_ofList {cs : List Char}
    (h : (checked 0x73 (fun rest => !agree rest ['t', 'a', 'l']) cs &&
      markers.all fun m => !overlaps m cs) = true) : IsSeal (String.ofList cs) := by
  have hstart : ∀ m ∈ markers, ['s', 't', 'a', 'l'] <+: m := by decide
  obtain ⟨hcs, hm⟩ := Bool.and_eq_true_iff.mp h
  rw [IsSeal, shown_of_checked hcs]
  refine fun m hin => ⟨?_, by simpa using List.all_eq_true.mp hm m hin⟩
  refine Bool.eq_false_iff.mpr fun hover => ?_
  obtain ⟨c, rest, hsuffix, hagree⟩ := exists_of_overlaps hover
  have hshort := agree_of_prefix (hstart m hin) hagree
  rw [agree, Bool.and_eq_true, beq_iff_eq] at hshort
  have hnext := (checked_spec hcs).2 c rest (by rw [hshort.1]; rfl) hsuffix
  simp [hshort.2] at hnext

/-- A side condition about a fixed text settles what is said of it. -/
theorem unmarked_fixed {s : String} (h : Unmarked s) : Unmarked s ↔ True := iff_true_intro h

theorem unmarked_nil : (∀ s ∈ ([] : List String), Unmarked s) ↔ True :=
  iff_true_intro (List.forall_mem_nil _)

theorem unmarked_generatedHeader : Unmarked generatedHeader := by
  unfold generatedHeader
  with_reducible refine unmarked_ofList ?_
  decide

/-- Each marker has a colon. -/
theorem unmarked_of_colon {s : String} (h : ':' ∉ s.toList) : Unmarked s := by
  have hcolon : ∀ m ∈ markers, ':' ∈ m := by decide
  exact fun m hm hin => h (List.mem_of_mem_filter (hin.subset (hcolon m hm)))

/-- Nothing is marked in a text that is shown as no marker. -/
theorem Unmarked.not_infix {s : String} (h : Unmarked s) {m : List Char} (hm : m ∈ markers) :
    ¬ m <:+: s.toList := by
  have hreturn : ∀ m ∈ markers, m.filter (· != '\r') = m := by decide
  rintro ⟨before, after, hs⟩
  refine h m hm ⟨before.filter (· != '\r'), after.filter (· != '\r'), ?_⟩
  rw [shown, ← hs, List.filter_append, List.filter_append, hreturn m hm]

theorem Unmarked.of_infix {s t : String} (h : Unmarked t) (hin : s.toList <:+: t.toList) :
    Unmarked s := Free.of_infix h (hin.filter _)

theorem unmarked_intercalate {p : String} (hp : IsSeal p) (ss : List String) :
    Unmarked (p.intercalate ss) ↔ ∀ s ∈ ss, Unmarked s := by
  induction ss with
  | nil => simp [unmarked_empty]
  | cons s ss ih =>
    cases ss with
    | nil => simp
    | cons t ts =>
      rw [String.intercalate_cons_cons, unmarked_sealed hp, ih]
      exact List.forall_mem_cons.symm

/-- A text that may stand behind any other. -/
def Attachable (s : String) : Prop := ∀ t, Unmarked t → Unmarked (t ++ s)

theorem attachable_empty : Attachable "" := fun t ht => by rwa [String.append_empty]

theorem IsSeal.attachable {p : String} (hp : IsSeal p) : Attachable p :=
  fun t ht => (unmarked_before hp t).mpr ht

theorem IsSeal.attach {p : String} (hp : IsSeal p) {s : String} (hs : Unmarked s) :
    Attachable (p ++ s) := fun t ht => by
  rw [← String.append_assoc, unmarked_sealed hp]
  exact ⟨ht, hs⟩

theorem attachable_join {ss : List String} (h : ∀ s ∈ ss, Attachable s) :
    Attachable (String.join ss) := by
  induction ss with
  | nil => exact attachable_empty
  | cons s ss ih =>
    obtain ⟨hs, hss⟩ := List.forall_mem_cons.mp h
    intro t ht
    rw [String.join_cons, ← String.append_assoc]
    exact ih hss _ (hs t ht)

/-- Characters with others in place of some of them. -/
theorem unmarked_flatMap {α : Type} {xs : List α} (plain : α → List Char) {image : α → List Char}
    (h : ∀ x ∈ xs, image x = plain x ∨ IsSeal (String.ofList (image x)))
    (hs : Unmarked (String.ofList (xs.flatMap plain))) :
    Unmarked (String.ofList (xs.flatMap image)) := by
  have hshown (g : α → List Char) : shown (String.ofList (xs.flatMap g)) =
      xs.flatMap fun x => (g x).filter (· != '\r') := by
    simp [shown, List.filter_flatMap]
  rw [Unmarked, hshown] at hs ⊢
  refine free_flatMap (fun x hx => ?_) hs
  rcases h x hx with hplain | hseal
  · exact .inl (by rw [hplain])
  · exact .inr (by simpa [IsSeal, shown] using hseal)

/-- A text with other characters in place of some. -/
theorem unmarked_escaped {f : Char → List Char}
    (h : ∀ c, f c = [c] ∨ IsSeal (String.ofList (f c))) {s : String} (hs : Unmarked s) :
    Unmarked (String.ofList (s.toList.flatMap f)) :=
  unmarked_flatMap (fun c => [c]) (fun c _ => h c) (by simpa using hs)

end Scaffold.Output
