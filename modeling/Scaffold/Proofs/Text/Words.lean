import Mathlib.Tactic.Common
import Scaffold.Text.Case
import Scaffold.Text.Letter
import Scaffold.Text.Search
import Scaffold.Text.Words

/-! # Characters of generated names

The words of an identifier consist of letters and digits, so the spellings that are built from them
hold no marks beside those that join the words. Changing the case of a character never turns it into
a blank or one of these marks, and the upper case of a character is no small ASCII letter; outside
of ASCII this is read off the tables of shifts.

Where each word of a name in small letters starts with a letter, the capitals of its other spelling
show where the words start, so the name can be read off again. A digit has no capital: `a1` and
`a_1` are spelled alike.

Cutting a name into words loses its marks and nothing else. The words in small letters, with a mark
between them, are cut into the same words again, if the small letter of each character is one: a
capital without a small letter starts a word where its neighbours are lowered. -/
namespace Scaffold.Text

/-! ## Code points -/

theorem toNat_ofNat_eq {m n : Nat} (hn : 0 < n) (h : (Char.ofNat m).toNat = n) : m = n := by
  by_cases hm : m.isValidChar
  · rw [Char.ofNat, dif_pos hm] at h
    exact h
  · rw [Char.ofNat, dif_neg hm] at h
    change 0 = n at h
    omega

/-- What holds of the first 128 characters holds of each of them. -/
theorem of_ascii {p : Char → Prop} (h : ∀ n < 128, p (Char.ofNat n)) {c : Char}
    (hc : c.toNat < 128) : p c := by
  have := h c.toNat hc
  rwa [Char.ofNat_toNat] at this

/-- Whether a code point is where some shift ends. -/
def landsOn (shifts : List Shift) (n : Nat) : Bool :=
  shifts.any fun s => s.span.contains ((n : Int) - s.distance).toNat

/-- A code point where no shift ends is only reached from itself. -/
theorem shifted_eq {shifts : List Shift} {m n : Nat} (hn : landsOn shifts n = false)
    (hpos : 0 < n) (h : shifted shifts m = n) : m = n := by
  unfold shifted at h
  split at h
  next s hs =>
    have hm : m = ((n : Int) - s.distance).toNat := by omega
    have hcontains : s.span.contains m = true := by simpa using List.find?_some hs
    have hland : landsOn shifts n = true :=
      List.any_eq_true.mpr ⟨s, List.mem_of_find?_eq_some hs, hm ▸ hcontains⟩
    rw [hn] at hland
    cases hland
  next => exact h

/-! ## Marks -/

/-- Code points of the blanks, of the full stop, the colon, the hyphen, the underscore and the
braces. -/
def marks : List Nat :=
  [0x09, 0x0A, 0x0B, 0x0C, 0x0D, 0x20, 0x2D, 0x2E, 0x3A, 0x5F, 0x7B, 0x7D, 0x85, 0xA0, 0x1680,
    0x2000, 0x2001, 0x2002, 0x2003, 0x2004, 0x2005, 0x2006, 0x2007, 0x2008, 0x2009, 0x200A, 0x2028,
    0x2029, 0x202F, 0x205F, 0x3000]

def IsMark (c : Char) : Prop := c.toNat ∈ marks

instance (c : Char) : Decidable (IsMark c) := inferInstanceAs (Decidable (c.toNat ∈ marks))

theorem isMark_of_isBlank {c : Char} (h : isBlank c = true) : IsMark c := by
  have hascii : ∀ n < 0x0E, 0x09 ≤ n → n ∈ marks := by decide
  have hquad : ∀ k < 11, 0x2000 + k ∈ marks := by decide
  simp only [isBlank, Bool.or_eq_true, Bool.and_eq_true, decide_eq_true_eq, beq_iff_eq] at h
  unfold IsMark
  generalize c.toNat = n at h ⊢
  obtain (((((hstart | hquads) | rfl) | rfl) | rfl) | rfl) | rfl := h
  on_goal 2 =>
    obtain ⟨k, rfl⟩ := Nat.exists_eq_add_of_le hquads.1
    exact hquad k (by omega)
  · obtain (((hcontrol | rfl) | rfl) | rfl) | rfl := hstart
    · exact hascii n (by omega) hcontrol.1
    all_goals decide
  all_goals decide

theorem not_isBlank {c : Char} (h : ¬ IsMark c) : isBlank c = false := by
  cases hb : isBlank c with
  | false => rfl
  | true => exact absurd (isMark_of_isBlank hb) h

theorem marks_pos : ∀ n ∈ marks, 0 < n := by decide

/-- Changing the case of an ASCII character makes no mark, and capitals are no small letters. -/
theorem ascii_case : ∀ n < 128,
    (IsMark (upper (Char.ofNat n)) → IsMark (Char.ofNat n)) ∧
    (IsMark (lower (Char.ofNat n)) → IsMark (Char.ofNat n)) ∧
    ¬ (97 ≤ (upper (Char.ofNat n)).toNat ∧ (upper (Char.ofNat n)).toNat ≤ 122) := by
  decide +kernel

/-- Whether no code point of a range is where the shift ends, seen from its ends alone. -/
def Shift.avoids (lo hi : Nat) (s : Shift) : Bool :=
  Nat.blt 0 s.span.lo && match s.distance with
    | .ofNat up => Nat.blt (s.span.hi + up) lo || Nat.blt hi (s.span.lo + up)
    | .negSucc down =>
      Nat.blt s.span.hi (lo + (down + 1)) || Nat.blt (hi + (down + 1)) s.span.lo

theorem landsOn_of_avoids {shifts : List Shift} {lo hi : Nat}
    (h : shifts.all (Shift.avoids lo hi) = true) {n : Nat} (hlo : lo ≤ n) (hhi : n ≤ hi) :
    landsOn shifts n = false := by
  refine List.any_eq_false.mpr fun s hs hcontains => ?_
  have havoids := List.all_eq_true.mp h s hs
  cases hd : s.distance with
  | ofNat up | negSucc =>
    simp only [Shift.avoids, Span.contains, hd, Int.ofNat_eq_natCast, Nat.blt_eq,
      Bool.or_eq_true, Bool.and_eq_true, decide_eq_true_eq] at havoids hcontains
    omega

theorem notMem_of_apart {spans : List Span} {lo hi : Nat}
    (h : spans.all (fun s => Nat.blt s.hi lo || Nat.blt hi s.lo) = true) {n : Nat} (hlo : lo ≤ n)
    (hhi : n ≤ hi) : inSpans spans n = false := by
  refine List.any_eq_false.mpr fun s hs hcontains => ?_
  have hapart := List.all_eq_true.mp h s hs
  simp only [Span.contains, Nat.blt_eq, Bool.or_eq_true, Bool.and_eq_true,
    decide_eq_true_eq] at hapart hcontains
  omega

/-- Ranges that hold all marks, and neither letters nor digits beyond ASCII. -/
def markRanges : List (Nat × Nat) :=
  [(0x09, 0x3A), (0x5F, 0x5F), (0x7B, 0x7D), (0x85, 0xA0), (0x1680, 0x1680), (0x2000, 0x205F),
    (0x3000, 0x3000)]

theorem exists_markRange : ∀ n ∈ marks, ∃ r ∈ markRanges, r.1 ≤ n ∧ n ≤ r.2 := by decide

theorem markRanges_apart : ∀ r ∈ markRanges, upperShifts.all (Shift.avoids r.1 r.2) = true ∧
    lowerShifts.all (Shift.avoids r.1 r.2) = true ∧ (128 ≤ r.2 →
      letterSpans.all (fun s => Nat.blt s.hi r.1 || Nat.blt r.2 s.lo) = true ∧
      digitSpans.all (fun s => Nat.blt s.hi r.1 || Nat.blt r.2 s.lo) = true) := by
  decide +kernel

theorem marks_ascii : ∀ n ∈ marks, n < 128 → isWordChar (Char.ofNat n) = false := by decide

theorem marks_valid : ∀ n ∈ marks, n.isValidChar := by decide

/-- No shift ends at a mark, and no mark is part of a word. -/
theorem marks_apart : ∀ n ∈ marks, landsOn upperShifts n = false ∧ landsOn lowerShifts n = false ∧
    isWordChar (Char.ofNat n) = false := by
  intro n hn
  obtain ⟨r, hr, hlo, hhi⟩ := exists_markRange n hn
  obtain ⟨hupper, hlower, hword⟩ := markRanges_apart r hr
  refine ⟨landsOn_of_avoids hupper hlo hhi, landsOn_of_avoids hlower hlo hhi, ?_⟩
  by_cases hascii : n < 128
  · exact marks_ascii n hn hascii
  · obtain ⟨hletter, hdigit⟩ := hword (by omega)
    have hchar : (Char.ofNat n).toNat = n := by
      rw [Char.ofNat, dif_pos (marks_valid n hn)]
      rfl
    simp only [isWordChar, isLetter, isDigit, hchar, hascii, if_false,
      notMem_of_apart hletter hlo hhi, notMem_of_apart hdigit hlo hhi, Bool.or_self]

theorem isMark_upper {c : Char} (h : IsMark (upper c)) : IsMark c := by
  by_cases hc : c.toNat < 128
  · exact of_ascii (p := fun c => IsMark (upper c) → IsMark c) (fun n hn => (ascii_case n hn).1) hc h
  · have hm := h
    simp only [IsMark, upper, hc, if_false] at hm
    have hpos := marks_pos _ hm
    have heq := shifted_eq (marks_apart _ hm).1 hpos (toNat_ofNat_eq hpos rfl)
    rw [IsMark, heq]
    exact hm

theorem isMark_lower {c : Char} (h : IsMark (lower c)) : IsMark c := by
  by_cases hc : c.toNat < 128
  · exact of_ascii (p := fun c => IsMark (lower c) → IsMark c) (fun n hn => (ascii_case n hn).2.1) hc h
  · have hm := h
    simp only [IsMark, lower, hc, if_false] at hm
    have hpos := marks_pos _ hm
    have heq := shifted_eq (marks_apart _ hm).2.1 hpos (toNat_ofNat_eq hpos rfl)
    rw [IsMark, heq]
    exact hm

/-- Words are made of letters and digits, and none of these is a mark. -/
theorem not_isMark {c : Char} (h : isWordChar c = true) : ¬ IsMark c := by
  intro hm
  have hword := (marks_apart _ hm).2.2
  rw [Char.ofNat_toNat, h] at hword
  cases hword

/-! ## Capitals -/

/-- A small letter of ASCII. -/
def IsSmall (c : Char) : Prop := 97 ≤ c.toNat ∧ c.toNat ≤ 122

theorem upperShifts_small : upperShifts.all (Shift.avoids 97 122) = true := by decide +kernel

theorem not_isSmall_upper (c : Char) : ¬ IsSmall (upper c) := by
  by_cases hc : c.toNat < 128
  · exact of_ascii (p := fun c => ¬ IsSmall (upper c)) (fun n hn => (ascii_case n hn).2.2) hc
  · intro ⟨hlo, hhi⟩
    simp only [upper, hc, if_false] at hlo hhi
    have hpos : 0 < (Char.ofNat (shifted upperShifts c.toNat)).toNat := by omega
    have hland := landsOn_of_avoids upperShifts_small hlo hhi
    have heq := shifted_eq hland hpos (toNat_ofNat_eq hpos rfl)
    omega

/-! ## Words -/

theorem wordsFrom_chars (current cs : List Char) (hc : ∀ c ∈ current, isWordChar c = true) :
    ∀ w ∈ wordsFrom current cs, w ≠ [] ∧ ∀ c ∈ w, isWordChar c = true := by
  fun_induction wordsFrom current cs with
  | case1 => simp
  | case2 current hne => simpa using ⟨hne, hc⟩
  | case3 c rest hword ih => exact ih (by simpa using hword)
  | case4 c rest hword ih => exact ih (by simp)
  | case5 before earlier c rest hword ih =>
    refine List.forall_mem_cons.mpr ⟨⟨by simp, fun d hd => hc d (List.mem_reverse.mp hd)⟩, ?_⟩
    exact ih (by simp)
  | case6 before earlier c rest hword hstart ih =>
    refine List.forall_mem_cons.mpr ⟨⟨by simp, fun d hd => hc d (List.mem_reverse.mp hd)⟩, ?_⟩
    exact ih (by simpa using hword)
  | case7 before earlier c rest hword hstart ih =>
    exact ih (List.forall_mem_cons.mpr ⟨by simpa using hword, hc⟩)

theorem words_chars {s w : String} (h : w ∈ words s) :
    w ≠ "" ∧ ∀ c ∈ w.toList, isWordChar c = true := by
  obtain ⟨cs, hcs, rfl⟩ := List.mem_map.mp h
  obtain ⟨hne, hall⟩ := wordsFrom_chars [] s.toList (by simp) cs hcs
  exact ⟨by simpa using hne, by simpa using hall⟩

/-! ## Capitalized words -/

/-- The characters of a word with a capital. -/
theorem capitalized_chars {w : String} (hw : ∀ c ∈ w.toList, isWordChar c = true) :
    ∀ c ∈ (capitalized w).toList, ¬ IsMark c := by
  unfold capitalized
  cases hcs : w.toList with
  | nil => simp
  | cons d rest =>
    rw [hcs] at hw
    obtain ⟨hd, hrest⟩ := List.forall_mem_cons.mp hw
    simp only [String.toList_ofList]
    exact List.forall_mem_cons.mpr
      ⟨fun h => not_isMark hd (isMark_upper h), fun c hc => not_isMark (hrest c hc)⟩

theorem pascal_chars (s : String) : ∀ c ∈ (pascal s).toList, ¬ IsMark c := by
  intro c hc
  rw [pascal, String.toList_join, List.flatMap_map] at hc
  obtain ⟨w, hw, hcw⟩ := List.mem_flatMap.mp hc
  exact capitalized_chars (words_chars hw).2 c hcw

theorem camel_chars (s : String) : ∀ c ∈ (camel s).toList, ¬ IsMark c := by
  intro c hc
  simp only [camel, String.toList_ofList] at hc
  rcases List.mem_append.mp hc with hc | hc
  · obtain ⟨d, hd, rfl⟩ := List.mem_map.mp hc
    exact fun h => pascal_chars s d (List.mem_of_mem_take hd) (isMark_lower h)
  · exact pascal_chars s c (List.mem_of_mem_drop hc)

/-- What starts with a capitalized name, if anything, starts with no small letter. -/
theorem pascal_append_ne (s : String) {rest name : String} {c : Char}
    (hname : name.toList.head? = some c) (hc : IsSmall c) (hrest : rest ≠ name) :
    pascal s ++ rest ≠ name := by
  intro h
  subst h
  cases hws : words s with
  | nil => simp [pascal, hws] at hrest
  | cons w ws =>
    have hw := (words_chars (hws ▸ List.mem_cons_self : w ∈ words s)).1
    cases hcs : w.toList with
    | nil => exact hw (by simpa using hcs)
    | cons d cs =>
      simp only [pascal, hws, List.map_cons, capitalized, hcs, String.toList_append,
        String.toList_join, List.flatMap_cons, String.toList_ofList, List.cons_append,
        List.head?_cons, Option.some.injEq] at hname
      exact not_isSmall_upper d (hname ▸ hc)

/-! ## Joined words -/

theorem downcase_chars {w : String} (hw : ∀ c ∈ w.toList, isWordChar c = true) :
    ∀ c ∈ (downcase w).toList, ¬ IsMark c := by
  intro c hc
  rw [downcase, String.toList_map] at hc
  obtain ⟨d, hd, rfl⟩ := List.mem_map.mp hc
  exact fun h => not_isMark (hw d hd) (isMark_lower h)

/-- The mark `sep` in place of the marks that join words. -/
def rejoin (sep c : Char) : Char := if c = '_' ∨ c = '-' then sep else c

theorem rejoin_of_not_isMark {c : Char} (sep : Char) (h : ¬ IsMark c) : rejoin sep c = c := by
  rw [rejoin, if_neg]
  rintro (rfl | rfl)
  · exact h (by decide)
  · exact h (by decide)

theorem map_rejoin_intercalate {ws : List (List Char)} (hws : ∀ w ∈ ws, ∀ c ∈ w, ¬ IsMark c)
    {sep : Char} (hsep : sep = '_' ∨ sep = '-') (sep' : Char) :
    ([sep].intercalate ws).map (rejoin sep') = [sep'].intercalate ws := by
  have hword (w : List Char) (hw : ∀ c ∈ w, ¬ IsMark c) : w.map (rejoin sep') = w := by
    have hfix : ∀ c ∈ w, rejoin sep' c = id c := fun c hc => rejoin_of_not_isMark sep' (hw c hc)
    rw [List.map_congr_left hfix, List.map_id]
  induction ws with
  | nil => rfl
  | cons w ws ih =>
    obtain ⟨hw, hrest⟩ := List.forall_mem_cons.mp hws
    cases ws with
    | nil => simp [hword w hw]
    | cons v ws =>
      have hjoin : rejoin sep' sep = sep' := if_pos hsep
      rw [List.intercalate_cons_cons, List.intercalate_cons_cons, List.map_append, List.map_append,
        List.map_singleton, hword w hw, hjoin, ih hrest]

theorem words_downcase (s : String) :
    ∀ w ∈ ((words s).map downcase).map String.toList, ∀ c ∈ w, ¬ IsMark c := by
  intro w hw
  obtain ⟨x, hx, rfl⟩ := List.mem_map.mp hw
  obtain ⟨y, hy, rfl⟩ := List.mem_map.mp hx
  exact downcase_chars (words_chars hy).2

theorem intercalate_chars {sep : Char} {ws : List (List Char)}
    (h : ∀ w ∈ ws, ∀ c ∈ w, ¬ IsMark c) : ∀ c ∈ [sep].intercalate ws, c = sep ∨ ¬ IsMark c := by
  intro c hc
  induction ws with
  | nil => cases hc
  | cons w ws ih =>
    obtain ⟨hw, hrest⟩ := List.forall_mem_cons.mp h
    cases ws with
    | nil => exact .inr (hw c (by simpa using hc))
    | cons v ws =>
      rw [List.intercalate_cons_cons, List.mem_append, List.mem_append] at hc
      rcases hc with (hc | hc) | hc
      · exact .inr (hw c hc)
      · exact .inl (by simpa using hc)
      · exact ih hrest hc

theorem kebab_chars (s : String) : ∀ c ∈ (kebab s).toList, c = '-' ∨ ¬ IsMark c := by
  rw [kebab, String.toList_intercalate]
  exact intercalate_chars (words_downcase s)

theorem snake_chars (s : String) : ∀ c ∈ (snake s).toList, c = '_' ∨ ¬ IsMark c := by
  rw [snake, String.toList_intercalate]
  exact intercalate_chars (words_downcase s)

/-- The two spellings with small letters differ in the marks between the words only. -/
theorem kebab_eq (s : String) : (kebab s).toList = (snake s).toList.map (rejoin '-') := by
  rw [kebab, snake, String.toList_intercalate, String.toList_intercalate]
  exact (map_rejoin_intercalate (words_downcase s) (.inl rfl) '-').symm

theorem snake_eq (s : String) : (snake s).toList = (kebab s).toList.map (rejoin '_') := by
  rw [kebab, snake, String.toList_intercalate, String.toList_intercalate]
  exact (map_rejoin_intercalate (words_downcase s) (.inr rfl) '_').symm

/-! ## Letters of ASCII -/

instance (c : Char) : Decidable (IsSmall c) := inferInstanceAs (Decidable (_ ∧ _))

/-- A small letter or a digit of ASCII. -/
def IsPlain (c : Char) : Prop := IsSmall c ∨ (48 ≤ c.toNat ∧ c.toNat ≤ 57)

instance (c : Char) : Decidable (IsPlain c) := inferInstanceAs (Decidable (_ ∨ _))

theorem IsPlain.ascii {c : Char} (h : IsPlain c) : c.toNat < 128 := by
  unfold IsPlain IsSmall at h
  omega

/-- A capital of ASCII. -/
def isCapital (c : Char) : Bool := 65 ≤ c.toNat ∧ c.toNat ≤ 90

theorem plain_ascii : ∀ n < 128, IsPlain (Char.ofNat n) →
    isWordChar (Char.ofNat n) = true ∧ isUpper (Char.ofNat n) = false ∧
      isCapital (Char.ofNat n) = false := by
  decide +kernel

theorem small_ascii : ∀ n < 128, IsSmall (Char.ofNat n) →
    isCapital (upper (Char.ofNat n)) = true ∧
      lower (upper (Char.ofNat n)) = Char.ofNat n := by
  decide +kernel

theorem IsPlain.word {c : Char} (h : IsPlain c) :
    isWordChar c = true ∧ isUpper c = false ∧ isCapital c = false :=
  of_ascii (p := fun c => IsPlain c →
    isWordChar c = true ∧ isUpper c = false ∧ isCapital c = false) plain_ascii h.ascii h

theorem IsSmall.capital {c : Char} (h : IsSmall c) :
    isCapital (upper c) = true ∧ lower (upper c) = c :=
  of_ascii (p := fun c => IsSmall c →
    isCapital (upper c) = true ∧ lower (upper c) = c) small_ascii (IsPlain.ascii (.inl h)) h

/-! ## Capitals in place of underscores -/

/-- Small letters, digits and underscores, with a small letter after each underscore. -/
def isLettered : List Char → Bool
  | [] => true
  | '_' :: c :: cs => IsSmall c && isLettered cs
  | c :: cs => IsPlain c && isLettered cs

/-- A capital for each underscore and the letter after it. -/
def capitals : List Char → List Char
  | [] => []
  | '_' :: c :: cs => upper c :: capitals cs
  | c :: cs => c :: capitals cs

/-- An underscore and a small letter for a capital. -/
def uncapital (c : Char) : List Char := if isCapital c then ['_', lower c] else [c]

theorem flatMap_uncapital {cs : List Char} (h : isLettered cs = true) :
    (capitals cs).flatMap uncapital = cs := by
  fun_induction isLettered cs with
  | case1 => rfl
  | case2 c cs ih =>
    obtain ⟨hc, hcs⟩ : IsSmall c ∧ isLettered cs = true := by simpa using h
    simp [capitals, uncapital, hc.capital, ih hcs]
  | case3 c cs hother ih =>
    obtain ⟨hc, hcs⟩ : IsPlain c ∧ isLettered cs = true := by simpa using h
    simp [capitals, uncapital, hc.word, ih hcs]

def capitalChars : List Char → List Char
  | [] => []
  | c :: cs => upper c :: cs

theorem toList_capitalized (w : List Char) :
    (capitalized (String.ofList w)).toList = capitalChars w := by
  cases w <;> simp [capitalized, capitalChars]

theorem capitalChars_append {ws : List Char} (h : ws ≠ []) (cs : List Char) :
    capitalChars (ws ++ cs) = capitalChars ws ++ cs := by
  cases ws with
  | nil => exact absurd rfl h
  | cons w ws => rfl

/-- With a word open, what is to come adds its letters to it. -/
theorem flatMap_wordsFrom {cs : List Char} (h : isLettered cs = true) (d : Char) (ds : List Char) :
    (wordsFrom (d :: ds) cs).flatMap capitalChars =
      capitalChars (d :: ds).reverse ++ capitals cs := by
  fun_induction isLettered cs generalizing d ds with
  | case1 => simp [wordsFrom, capitals]
  | case2 c cs ih =>
    obtain ⟨hc, hcs⟩ : IsSmall c ∧ isLettered cs = true := by simpa using h
    have hunder : isWordChar '_' = false := by decide
    simp [wordsFrom, hunder, (IsPlain.word (.inl hc)).1, ih hcs, capitals, capitalChars]
  | case3 c cs hother ih =>
    obtain ⟨hc, hcs⟩ : IsPlain c ∧ isLettered cs = true := by simpa using h
    have hopen : wordsFrom (d :: ds) (c :: cs) = wordsFrom (c :: d :: ds) cs := by
      simp [wordsFrom, startsWord, hc.word]
    rw [hopen, ih hcs, capitals.eq_3 c cs hother, List.reverse_cons,
      capitalChars_append (by simp), List.append_assoc, List.singleton_append]

/-- The words of a lettered name with their capitals. -/
theorem toList_pascal {s : String} (h : isLettered ('_' :: s.toList) = true) :
    (pascal s).toList = capitals ('_' :: s.toList) := by
  have hwords : (pascal s).toList = (wordsFrom [] s.toList).flatMap capitalChars := by
    simp [pascal, words, String.toList_join, List.flatMap_map, toList_capitalized]
  rw [hwords]
  cases hs : s.toList with
  | nil =>
    rw [hs] at h
    revert h
    decide
  | cons c cs =>
    rw [hs] at h
    obtain ⟨hc, hcs⟩ : IsSmall c ∧ isLettered cs = true := by simpa [isLettered] using h
    simp [wordsFrom, (IsPlain.word (.inl hc)).1, flatMap_wordsFrom hcs, capitals, capitalChars]

/-! ## Nothing is lost -/

theorem flatten_wordsFrom (current cs : List Char) :
    (wordsFrom current cs).flatten = current.reverse ++ cs.filter isWordChar := by
  fun_induction wordsFrom current cs with
  | case1 => rfl
  | case2 current hne => simp
  | case3 c rest hword ih => simpa [hword] using ih
  | case4 c rest hword ih => simpa [hword] using ih
  | case5 before earlier c rest hword ih =>
    have hmark : isWordChar c = false := by simpa using hword
    simp [ih, hmark]
  | case6 before earlier c rest hword hstart ih =>
    have hword : isWordChar c = true := by simpa using hword
    simp [ih, hword]
  | case7 before earlier c rest hword hstart ih =>
    have hword : isWordChar c = true := by simpa using hword
    simp [ih, hword]

theorem join_words (s : String) :
    String.join (words s) = String.ofList (s.toList.filter isWordChar) := by
  apply String.toList_inj.mp
  rw [String.toList_join, words, List.flatMap_map, String.toList_ofList]
  simpa [List.flatMap_id'] using flatten_wordsFrom [] s.toList

/-! ## Words that are cut again -/

/-- A character that stays in the word before it. -/
def IsSettled (c : Char) : Prop := isWordChar c = true ∧ isUpper c = false

instance (c : Char) : Decidable (IsSettled c) := inferInstanceAs (Decidable (_ ∧ _))

theorem wordsFrom_settled {w : List Char} (hw : ∀ c ∈ w, IsSettled c) {current : List Char}
    (hopen : current ≠ []) (rest : List Char) :
    wordsFrom current (w ++ rest) = wordsFrom (w.reverse ++ current) rest := by
  induction w generalizing current with
  | nil => rfl
  | cons c w ih =>
    obtain ⟨⟨hword, hupper⟩, hw⟩ := List.forall_mem_cons.mp hw
    obtain ⟨before, earlier, rfl⟩ := List.exists_cons_of_ne_nil hopen
    have hstep : wordsFrom (before :: earlier) (c :: (w ++ rest)) =
        wordsFrom (c :: before :: earlier) (w ++ rest) := by
      simp [wordsFrom, startsWord, hword, hupper]
    rw [List.cons_append, hstep, ih hw (by simp)]
    simp

/-- A word ends at a mark, and at the end of the text. -/
theorem wordsFrom_nil {w : List Char} (hne : w ≠ []) : wordsFrom w.reverse [] = [w] := by
  obtain ⟨c, cs, hcs⟩ := List.exists_cons_of_ne_nil (List.reverse_ne_nil_iff.mpr hne)
  rw [hcs, wordsFrom, ← hcs, List.reverse_reverse]
  simp

theorem wordsFrom_mark {w : List Char} (hne : w ≠ []) {sep : Char} (hsep : isWordChar sep = false)
    (rest : List Char) : wordsFrom w.reverse (sep :: rest) = w :: wordsFrom [] rest := by
  obtain ⟨c, cs, hcs⟩ := List.exists_cons_of_ne_nil (List.reverse_ne_nil_iff.mpr hne)
  have hw : (c :: cs).reverse = w := by rw [← hcs, List.reverse_reverse]
  rw [hcs]
  simp [wordsFrom, hsep, ← hw]

theorem wordsFrom_word {w : List Char} (hne : w ≠ []) (hw : ∀ c ∈ w, IsSettled c)
    (rest : List Char) : wordsFrom [] (w ++ rest) = wordsFrom w.reverse rest := by
  obtain ⟨c, cs, rfl⟩ := List.exists_cons_of_ne_nil hne
  obtain ⟨hc, hcs⟩ := List.forall_mem_cons.mp hw
  have hfirst : wordsFrom [] (c :: cs ++ rest) = wordsFrom [c] (cs ++ rest) := by
    simp [wordsFrom, hc.1]
  rw [hfirst, wordsFrom_settled hcs (by simp), List.reverse_cons]

/-- Words in which no other word starts are told apart by the marks between them. -/
theorem wordsFrom_intercalate {sep : Char} (hsep : isWordChar sep = false) {ws : List (List Char)}
    (hws : ∀ w ∈ ws, w ≠ [] ∧ ∀ c ∈ w, IsSettled c) :
    wordsFrom [] ([sep].intercalate ws) = ws := by
  induction ws with
  | nil => rfl
  | cons w ws ih =>
    obtain ⟨⟨hne, hw⟩, hws⟩ := List.forall_mem_cons.mp hws
    cases ws with
    | nil => simpa [wordsFrom_nil hne] using wordsFrom_word hne hw []
    | cons v ws =>
      rw [List.intercalate_cons_cons, List.append_assoc, wordsFrom_word hne hw,
        List.singleton_append, wordsFrom_mark hne hsep, ih hws]

/-! ## Letters of ASCII in words -/

/-- The small letter of an ASCII letter or digit is one, starts no word and has no other. -/
theorem lower_ascii : ∀ n < 128, isWordChar (Char.ofNat n) = true →
    IsSettled (lower (Char.ofNat n)) ∧ lower (lower (Char.ofNat n)) = lower (Char.ofNat n) := by
  decide +kernel

theorem settled_lower {c : Char} (hascii : c.toNat < 128) (hword : isWordChar c = true) :
    IsSettled (lower c) ∧ lower (lower c) = lower c :=
  of_ascii (p := fun c => isWordChar c = true → IsSettled (lower c) ∧ lower (lower c) = lower c)
    lower_ascii hascii hword

theorem mem_of_mem_words {s w : String} (hw : w ∈ words s) {c : Char} (hc : c ∈ w.toList) :
    c ∈ s.toList := by
  have hkept := congrArg String.toList (join_words s)
  rw [String.toList_join, String.toList_ofList] at hkept
  have hmem : c ∈ (words s).flatMap String.toList := List.mem_flatMap.mpr ⟨w, hw, hc⟩
  rw [hkept] at hmem
  exact (List.mem_filter.mp hmem).1

theorem settled_words {s : String} (hs : ∀ c ∈ s.toList, c.toNat < 128) {w : String}
    (hw : w ∈ words s) {c : Char} (hc : c ∈ w.toList) :
    IsSettled (lower c) ∧ lower (lower c) = lower c :=
  settled_lower (hs c (mem_of_mem_words hw hc)) ((words_chars hw).2 c hc)

/-! ## Spellings -/

theorem toList_downcase (w : String) : (downcase w).toList = w.toList.map lower := by
  rw [downcase, String.toList_map]

/-- The small letters of a name are the words of its spelling. -/
theorem words_snake {s : String} (hs : ∀ c ∈ s.toList, c.toNat < 128) :
    words (snake s) = (words s).map downcase := by
  have hsettled : ∀ w ∈ ((words s).map downcase).map String.toList,
      w ≠ [] ∧ ∀ c ∈ w, IsSettled c := by
    intro w hw
    obtain ⟨v, hv, rfl⟩ := List.mem_map.mp hw
    obtain ⟨u, hu, rfl⟩ := List.mem_map.mp hv
    rw [toList_downcase]
    refine ⟨by simpa using (words_chars hu).1, fun c hc => ?_⟩
    obtain ⟨d, hd, rfl⟩ := List.mem_map.mp hc
    exact (settled_words hs hu hd).1
  have hcut := wordsFrom_intercalate (show isWordChar '_' = false by decide) hsettled
  rw [words, snake, String.toList_intercalate]
  change (wordsFrom [] (['_'].intercalate _)).map String.ofList = _
  rw [hcut, List.map_map]
  simp

theorem downcase_words {s : String} (hs : ∀ c ∈ s.toList, c.toNat < 128) :
    ((words s).map downcase).map downcase = (words s).map downcase := by
  rw [List.map_map]
  refine List.map_congr_left fun w hw => String.toList_inj.mp ?_
  rw [Function.comp_apply, toList_downcase, toList_downcase, List.map_map]
  exact List.map_congr_left fun c hc => (settled_words hs hw hc).2

theorem kebab_eq_replaceChar (s : String) : kebab s = replaceChar '_' "-" (snake s) := by
  have hmark (c : Char) : (if c = '_' then "-".toList else [c]) = [rejoin '-' c] := by
    by_cases hunder : c = '_'
    · simp [rejoin, hunder]
    · by_cases hhyphen : c = '-' <;> simp [rejoin, hunder, hhyphen]
  apply String.toList_inj.mp
  rw [kebab_eq, replaceChar, String.toList_ofList, List.map_eq_flatMap]
  simp only [hmark]

/-- The words of a text are its letters and digits, none of them empty. A name of ASCII spelled in
small letters has the same words in small letters, so it is spelled like itself, and the spellings
with hyphens and with underscores differ in these marks alone. -/
theorem words_lossless (s : String) :
    (∀ w ∈ words s, w ≠ "") ∧
      String.join (words s) = String.ofList (s.toList.filter fun c => isLetter c || isDigit c) ∧
      kebab s = replaceChar '_' "-" (snake s) ∧
      ((∀ c ∈ s.toList, c.toNat < 128) →
        words (snake s) = (words s).map downcase ∧ snake (snake s) = snake s) := by
  refine ⟨fun w hw => (words_chars hw).1, join_words s, kebab_eq_replaceChar s, fun hs => ?_⟩
  have hwords := words_snake hs
  refine ⟨hwords, ?_⟩
  rw [snake, hwords, downcase_words hs, snake]

theorem words_lossless_server :
    (∀ c ∈ "HTTPServer_2ndDraft".toList, c.toNat < 128) ∧
      words "HTTPServer_2ndDraft" = ["HTTP", "Server", "2nd", "Draft"] ∧
      words (snake "HTTPServer_2ndDraft") = (words "HTTPServer_2ndDraft").map downcase ∧
      snake (snake "HTTPServer_2ndDraft") = snake "HTTPServer_2ndDraft" := by
  have hascii : ∀ c ∈ "HTTPServer_2ndDraft".toList, c.toNat < 128 := by simp
  exact ⟨hascii, by decide +kernel, (words_lossless "HTTPServer_2ndDraft").2.2.2 hascii⟩

/-- Beyond ASCII a capital may be without a small letter. -/
example : words "Aℂ" = ["Aℂ"] ∧ words (snake "Aℂ") = ["a", "ℂ"] := by decide +kernel

end Scaffold.Text
