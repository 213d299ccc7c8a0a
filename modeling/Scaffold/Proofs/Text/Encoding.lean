import Mathlib.Data.List.DropRight
import Scaffold.Proofs.Unguarded.Lexer

/-! # Characters and the bytes that spell them

A character that decoding finds is spelled by the bytes it was read from, unless these were no
character at all. A line feed is one byte, and no other character has that byte in it, so lines can
be counted in bytes. -/
namespace Scaffold.Text

open Scaffold.Unguarded (firstRune_width decode_cons decode_append width)

/-- The bytes that spell a text. -/
def bytesOf (s : String) : List Nat := s.toUTF8.data.toList.map UInt8.toNat

/-- The bytes that spell a character. -/
def octets (c : Char) : List Nat := (String.utf8EncodeChar c).map UInt8.toNat

theorem bytesOf_ofList (cs : List Char) : bytesOf (String.ofList cs) = cs.flatMap octets := by
  rw [bytesOf, String.toUTF8_eq_toByteArray, String.toByteArray_ofList, List.utf8Encode,
    List.data_toByteArray, List.toList_toArray, List.map_flatMap]
  rfl

theorem toNat_ofNat {n : Nat} (h : n.isValidChar) : (Char.ofNat n).val.toNat = n := by
  rw [Char.ofNat, dif_pos h]
  rfl

theorem octets_ofNat {n : Nat} (h : n.isValidChar) : octets (Char.ofNat n) =
    if n ≤ 0x7F then [n]
    else if n ≤ 0x7FF then [n / 64 % 32 + 0xC0, n % 64 + 0x80]
    else if n ≤ 0xFFFF then [n / 4096 % 16 + 0xE0, n / 64 % 64 + 0x80, n % 64 + 0x80]
    else [n / 262144 % 8 + 0xF0, n / 4096 % 64 + 0x80, n / 64 % 64 + 0x80, n % 64 + 0x80] := by
  rw [octets, String.utf8EncodeChar, toNat_ofNat h]
  split_ifs <;> simp [UInt8.toNat_ofNat'] <;> omega

theorem octets_eq (c : Char) : octets c =
    if c.toNat ≤ 0x7F then [c.toNat]
    else if c.toNat ≤ 0x7FF then [c.toNat / 64 % 32 + 0xC0, c.toNat % 64 + 0x80]
    else if c.toNat ≤ 0xFFFF then
      [c.toNat / 4096 % 16 + 0xE0, c.toNat / 64 % 64 + 0x80, c.toNat % 64 + 0x80]
    else [c.toNat / 262144 % 8 + 0xF0, c.toNat / 4096 % 64 + 0x80, c.toNat / 64 % 64 + 0x80,
      c.toNat % 64 + 0x80] := by
  have h := octets_ofNat (n := c.toNat) c.valid
  rwa [Char.ofNat_toNat] at h

theorem octets_ascii {c : Char} (h : c.toNat < 0x80) : octets c = [c.toNat] := by
  rw [octets_eq, if_pos (by omega)]

/-- Other characters than those of ASCII have none of their bytes. -/
theorem le_of_mem_octets {c : Char} (h : 0x80 ≤ c.toNat) : ∀ n ∈ octets c, 0x80 ≤ n := by
  rw [octets_eq, if_neg (by omega)]
  split_ifs <;> simp

/-- What a first byte says about itself and the byte behind it. -/
theorem leadOf_eq {b len lo hi : Nat} (h : leadOf b = (len, lo, hi)) :
    (len = 1 → b < 0x80) ∧
    (len = 2 → 0xC2 ≤ b ∧ b < 0xE0 ∧ 0x80 ≤ lo ∧ hi ≤ 0xBF) ∧
    (len = 3 → 0xE0 ≤ b ∧ b < 0xF0 ∧ 0x80 ≤ lo ∧ hi ≤ 0xBF ∧
      (b = 0xE0 → 0xA0 ≤ lo) ∧ (b = 0xED → hi ≤ 0x9F)) ∧
    (len = 4 → 0xF0 ≤ b ∧ b ≤ 0xF4 ∧ 0x80 ≤ lo ∧ hi ≤ 0xBF ∧
      (b = 0xF0 → 0x90 ≤ lo) ∧ (b = 0xF4 → hi ≤ 0x8F)) := by
  revert h
  fun_cases leadOf b
  all_goals
    rintro ⟨⟩
    omega

/-- A character that is read from well-formed bytes is spelled by them. -/
theorem octets_firstRune {b : Nat} {rest : List Nat}
    (h : firstRune b rest ≠ ⟨replacement, 1⟩) :
    (b :: rest).take (firstRune b rest).width = octets (firstRune b rest).char := by
  revert h
  fun_cases firstRune b rest
  case case3 | case5 | case7 | case8 => exact fun h => absurd rfl h
  case case1 lo hi hlead =>
    have hb := (leadOf_eq hlead).1 rfl
    intro
    rw [octets_ofNat (.inl (by omega)), if_pos (by omega)]
    rfl
  case case2 lo hi c rest hc hlead =>
    obtain ⟨hlo, hhi⟩ := Bool.and_eq_true_iff.mp hc
    rw [decide_eq_true_eq] at hlo hhi
    have hb := (leadOf_eq hlead).2.1 rfl
    intro
    rw [octets_ofNat (.inl (by omega)), if_neg (by omega), if_pos (by omega)]
    simp only [List.take_succ_cons, List.take_zero, List.cons.injEq, and_true]
    omega
  case case4 lo hi c d rest hcd hlead =>
    simp only [isContinuation, Bool.and_eq_true, decide_eq_true_eq] at hcd
    have hb := (leadOf_eq hlead).2.2.1 rfl
    intro
    rw [octets_ofNat (show _ ∨ _ by omega), if_neg (by omega), if_neg (by omega),
      if_pos (by omega)]
    simp only [List.take_succ_cons, List.take_zero, List.cons.injEq, and_true]
    omega
  case case6 lo hi c d e rest hcde hlead =>
    simp only [isContinuation, Bool.and_eq_true, decide_eq_true_eq] at hcde
    have hb := (leadOf_eq hlead).2.2.2 rfl
    intro
    rw [octets_ofNat (show _ ∨ _ by omega), if_neg (by omega), if_neg (by omega),
      if_neg (by omega)]
    simp only [List.take_succ_cons, List.take_zero, List.cons.injEq, and_true]
    omega

/-- Bytes that read as characters other than the replacement are the bytes of these. -/
theorem octets_decode {bytes : List Nat} {cs : List Char}
    (h : (decode bytes).map (·.char) = cs) (hcs : replacement ∉ cs) :
    cs.flatMap octets = bytes := by
  induction cs generalizing bytes with
  | nil =>
    cases bytes with
    | nil => rfl
    | cons b bytes => cases h
  | cons c cs ih =>
    cases bytes with
    | nil => cases h
    | cons b bytes =>
      rw [decode_cons, List.map_cons, List.cons.injEq] at h
      obtain ⟨rfl, h⟩ := h
      have hne : firstRune b bytes ≠ ⟨replacement, 1⟩ := fun heq => hcs (by simp [heq])
      have hpos := (firstRune_width b bytes).1
      have hrest := ih h (List.not_mem_of_not_mem_cons hcs)
      rw [List.flatMap_cons, hrest, ← octets_firstRune hne]
      obtain ⟨n, hn⟩ := Nat.exists_eq_add_of_le' hpos
      rw [hn, List.take_succ_cons, List.cons_append, Nat.add_sub_cancel, List.take_append_drop]

/-- A first byte of three announces them. -/
theorem exists_leadOf_three {b c : Nat} (hb : b < 16) (hlow : b = 0 → 0x20 ≤ c)
    (hhigh : b = 13 → c < 0x20) (hc : c < 64) :
    ∃ lo hi, leadOf (b + 0xE0) = (3, lo, hi) ∧ lo ≤ c + 0x80 ∧ c + 0x80 ≤ hi := by
  by_cases hzero : b = 0
  · exact ⟨0xA0, 0xBF, by rw [hzero]; rfl, by have := hlow hzero; omega, by omega⟩
  by_cases hthirteen : b = 13
  · exact ⟨0x80, 0x9F, by rw [hthirteen]; rfl, by omega, by have := hhigh hthirteen; omega⟩
  refine ⟨0x80, 0xBF, ?_, by omega, by omega⟩
  rw [leadOf, if_neg (by omega), if_neg (by omega), if_neg (by omega), if_neg (by omega),
    if_neg (by omega), if_pos (by omega)]

/-- A first byte of four announces them. -/
theorem exists_leadOf_four {b c : Nat} (hb : b ≤ 4) (hlow : b = 0 → 0x10 ≤ c)
    (hhigh : b = 4 → c < 0x10) (hc : c < 64) :
    ∃ lo hi, leadOf (b + 0xF0) = (4, lo, hi) ∧ lo ≤ c + 0x80 ∧ c + 0x80 ≤ hi := by
  obtain rfl | rfl | rfl | rfl | rfl : b = 0 ∨ b = 1 ∨ b = 2 ∨ b = 3 ∨ b = 4 := by omega
  · exact ⟨0x90, 0xBF, rfl, by have := hlow rfl; omega, by omega⟩
  · exact ⟨0x80, 0xBF, rfl, by omega, by omega⟩
  · exact ⟨0x80, 0xBF, rfl, by omega, by omega⟩
  · exact ⟨0x80, 0xBF, rfl, by omega, by omega⟩
  · exact ⟨0x80, 0x8F, rfl, by omega, by have := hhigh rfl; omega⟩

theorem firstRune_octets (c : Char) (rest : List Nat) : ∃ b more, octets c = b :: more ∧
    firstRune b (more ++ rest) = ⟨c, (octets c).length⟩ := by
  have hvalid : c.toNat < 0xD800 ∨ 0xDFFF < c.toNat ∧ c.toNat < 0x110000 := c.valid
  have hsame := Char.ofNat_toNat c
  rw [octets_eq]
  generalize c.toNat = n at hvalid hsame
  subst hsame
  split_ifs with h1 h2 h3
  · refine ⟨_, _, rfl, ?_⟩
    have hlead : leadOf n = (1, 0, 0) := if_pos (by omega)
    simp [firstRune, hlead]
  · refine ⟨_, _, rfl, ?_⟩
    have hlead : leadOf (n / 64 % 32 + 0xC0) = (2, 0x80, 0xBF) := by
      rw [leadOf, if_neg (by omega), if_neg (by omega), if_pos (by omega)]
    have hn : (n / 64 % 32 + 0xC0) % 0x20 * 0x40 + (n % 64 + 0x80) % 0x40 = n := by omega
    have hsecond : 0x80 ≤ n % 64 + 0x80 ∧ n % 64 + 0x80 ≤ 0xBF := by omega
    simp only [firstRune, hlead, List.cons_append, hn, hsecond, decide_true, Bool.and_self,
      if_true, List.length_cons, List.length_nil]
  · refine ⟨_, _, rfl, ?_⟩
    have hlow : n / 4096 % 16 = 0 → 0x20 ≤ n / 64 % 64 := by omega
    have hhigh : n / 4096 % 16 = 13 → n / 64 % 64 < 0x20 := by omega
    obtain ⟨lo, hi, hlead, hsecond⟩ :=
      exists_leadOf_three (Nat.mod_lt (n / 4096) (by decide)) hlow hhigh (Nat.mod_lt _ (by decide))
    have hn : ((n / 4096 % 16 + 0xE0) % 0x10 * 0x40 + (n / 64 % 64 + 0x80) % 0x40) * 0x40 +
        (n % 64 + 0x80) % 0x40 = n := by omega
    have hthird : 0x80 ≤ n % 64 + 0x80 ∧ n % 64 + 0x80 ≤ 0xBF := by omega
    simp only [firstRune, isContinuation, hlead, List.cons_append, hn, hsecond, hthird,
      decide_true, Bool.and_self, if_true, List.length_cons, List.length_nil]
  · refine ⟨_, _, rfl, ?_⟩
    have hlow : n / 262144 % 8 = 0 → 0x10 ≤ n / 4096 % 64 := by omega
    have hhigh : n / 262144 % 8 = 4 → n / 4096 % 64 < 0x10 := by omega
    obtain ⟨lo, hi, hlead, hsecond⟩ :=
      exists_leadOf_four (by omega) hlow hhigh (Nat.mod_lt (n / 4096) (by decide))
    have hn : (((n / 262144 % 8 + 0xF0) % 0x08 * 0x40 + (n / 4096 % 64 + 0x80) % 0x40) * 0x40 +
        (n / 64 % 64 + 0x80) % 0x40) * 0x40 + (n % 64 + 0x80) % 0x40 = n := by omega
    have hthird : 0x80 ≤ n / 64 % 64 + 0x80 ∧ n / 64 % 64 + 0x80 ≤ 0xBF := by omega
    have hfourth : 0x80 ≤ n % 64 + 0x80 ∧ n % 64 + 0x80 ≤ 0xBF := by omega
    simp only [firstRune, isContinuation, hlead, List.cons_append, hn, hsecond, hthird, hfourth,
      decide_true, Bool.and_self, if_true, List.length_cons, List.length_nil]

/-- The bytes that spell a character read as it, whatever follows them. -/
theorem decode_octets (c : Char) (rest : List Nat) :
    decode (octets c ++ rest) = ⟨c, (octets c).length⟩ :: decode rest := by
  obtain ⟨b, more, hc, hfirst⟩ := firstRune_octets c rest
  rw [hc] at hfirst ⊢
  rw [List.cons_append, decode_cons, hfirst]
  simp

theorem decode_flatMap_octets (cs : List Char) (rest : List Nat) :
    decode (cs.flatMap octets ++ rest) =
      (cs.map fun c => ⟨c, (octets c).length⟩) ++ decode rest := by
  induction cs with
  | nil => rfl
  | cons c cs ih =>
    rw [List.flatMap_cons, List.append_assoc, decode_octets, ih, List.map_cons, List.cons_append]

/-- A text in UTF-8 reads as its characters. -/
theorem decode_bytesOf (s : String) : decode (bytesOf s) = runes s := by
  have hread := decode_flatMap_octets s.toList []
  have hnil : decode [] = [] := rfl
  rw [hnil, List.append_nil, List.append_nil, ← bytesOf_ofList, String.ofList_toList] at hread
  rw [hread, runes]
  refine List.map_congr_left fun c _ => ?_
  rw [octets, List.length_map, String.length_utf8EncodeChar]

/-! ## Line feeds -/

theorem count_octets (c : Char) : (octets c).count 10 = if c = '\n' then 1 else 0 := by
  have hfeed : c = '\n' ↔ c.toNat = 10 := by
    rw [← Char.toNat_inj]
    rfl
  simp only [octets_eq, hfeed]
  generalize c.toNat = n
  split_ifs <;> simp [List.count_cons] <;> omega

theorem count_firstRune (b : Nat) (rest : List Nat) :
    ((b :: rest).take (firstRune b rest).width).count 10 =
      if (firstRune b rest).char = '\n' then 1 else 0 := by
  by_cases h : firstRune b rest = ⟨replacement, 1⟩
  · have hb : b ≠ 10 := by
      rintro rfl
      exact absurd h (by simp [firstRune, leadOf, replacement])
    rw [h]
    simp [replacement, hb]
  · rw [octets_firstRune h, count_octets]

/-- Decoding finds every line feed, and no others. -/
theorem count_decode (bytes : List Nat) :
    bytes.count 10 = (decode bytes).countP (·.char = '\n') := by
  induction hn : bytes.length using Nat.strongRecOn generalizing bytes with
  | ind n ih =>
    cases bytes with
    | nil => rfl
    | cons b bytes =>
      subst hn
      have hpos := (firstRune_width b bytes).1
      obtain ⟨k, hk⟩ := Nat.exists_eq_add_of_le' hpos
      have hshorter : (bytes.drop k).length < (b :: bytes).length := by
        rw [List.length_drop, List.length_cons]
        omega
      have hrest := ih _ hshorter (bytes.drop k) rfl
      have hfirst := count_firstRune b bytes
      rw [decode_cons, List.countP_cons, hk, Nat.add_sub_cancel, ← hrest]
      rw [hk, List.take_succ_cons] at hfirst
      simp only [decide_eq_true_eq]
      rw [← hfirst, Nat.add_comm, ← List.count_append, List.cons_append, List.take_append_drop]

theorem width_append (run more : List Rune) : width (run ++ more) = width run + width more := by
  induction run with
  | nil => simp [width]
  | cons r run ih =>
    simp only [width, List.cons_append, List.foldr_cons] at ih ⊢
    omega

theorem width_decode (bytes : List Nat) : width (decode bytes) = bytes.length := by
  obtain ⟨hle, -, hdrop⟩ := @decode_append bytes _ _ (List.append_nil _).symm
  have hnil : bytes.drop (width (decode bytes)) = [] := by
    cases hrest : bytes.drop (width (decode bytes)) with
    | nil => rfl
    | cons b rest =>
      rw [hrest, decode_cons] at hdrop
      cases hdrop
  have hlen := List.drop_eq_nil_iff.mp hnil
  omega

theorem bytes_of_feed {bytes : List Nat} {r : Rune} (h : decode bytes = [r])
    (hr : r.char = '\n') : bytes = [10] := by
  have hfeed : (decode bytes).map (·.char) = ['\n'] := by simp [h, hr]
  exact (octets_decode hfeed (by decide)).symm

theorem rtakeWhile_append_cons {α : Type} {p : α → Bool} {x : α} (hx : p x = false)
    (before : List α) {after : List α} (hafter : ∀ y ∈ after, p y = true) :
    (before ++ x :: after).rtakeWhile p = after := by
  rw [List.rtakeWhile, List.reverse_append, List.reverse_cons, List.append_assoc,
    List.takeWhile_append_of_pos (by simpa using hafter)]
  simp [hx]

/-- The last line of a text of bytes is the last line of its characters. -/
theorem decode_lastLine (bytes : List Nat) :
    decode (bytes.rtakeWhile (· ≠ 10)) = (decode bytes).rtakeWhile (·.char ≠ '\n') := by
  have hsplit := (List.rdropWhile_append_rtakeWhile (p := fun r : Rune => decide (r.char ≠ '\n'))
    (l := decode bytes)).symm
  obtain ⟨-, htake, hdrop⟩ := decode_append hsplit
  set cut := width ((decode bytes).rdropWhile fun r => decide (r.char ≠ '\n')) with hcut
  have hline : ∀ b ∈ bytes.drop cut, decide (b ≠ 10) = true := by
    have hcount := count_decode (bytes.drop cut)
    rw [hdrop, List.countP_eq_zero.mpr fun r hr => by
      simpa using List.mem_rtakeWhile_imp hr] at hcount
    intro b hb
    rw [decide_eq_true_eq]
    rintro rfl
    exact List.count_eq_zero.mp hcount hb
  rw [← hdrop]
  congr 1
  rcases List.eq_nil_or_concat ((decode bytes).rdropWhile fun r => decide (r.char ≠ '\n')) with
    hnil | ⟨before, r, hr⟩
  · rw [hcut, hnil, width, List.foldr_nil, List.drop_zero] at hline ⊢
    exact List.rtakeWhile_eq_self_iff.mpr hline
  · have hfeed : r.char = '\n' := by
      have hlast := List.rdropWhile_last_not (fun r : Rune => decide (r.char ≠ '\n'))
        (decode bytes) (by rw [hr]; simp)
      simp only [hr, List.concat_eq_append, List.getLast_concat] at hlast
      simpa using hlast
    rw [hr, List.concat_eq_append] at htake
    obtain ⟨-, -, hone⟩ := decode_append htake
    have hbytes : bytes = (bytes.take cut).take (width before) ++ 10 :: bytes.drop cut := by
      conv_lhs => rw [← List.take_append_drop cut bytes,
        ← List.take_append_drop (width before) (bytes.take cut), bytes_of_feed hone hfeed]
      simp
    conv_lhs => rw [hbytes]
    exact rtakeWhile_append_cons (by decide) _ hline

end Scaffold.Text
