import Scaffold.Proofs.Json.RoundTrip
import Scaffold.Proofs.Source.Values

/-! # Numbers of JSON

A value can be printed if each of its numbers, at any depth, is a number of JSON. The lexer knows
more numbers: digits of any script, and any number of leading zeros. -/
namespace Scaffold.Json

open Scaffold.Source (IsDigits IsNumeral)

/-! ## Numbers of a value -/

mutual

/-- The numbers in a value as they are written, at any depth. -/
def numbers : Json → List String
  | number raw => [raw]
  | array elems => elemNumbers elems
  | object members => memberNumbers members
  | _ => []

def elemNumbers : List Json → List String
  | [] => []
  | x :: xs => numbers x ++ elemNumbers xs

def memberNumbers : List (String × Json) → List String
  | [] => []
  | (_, x) :: ms => numbers x ++ memberNumbers ms

end

theorem elemNumbers_eq (xs : List Json) : elemNumbers xs = xs.flatMap numbers := by
  induction xs with
  | nil => rfl
  | cons x xs ih => rw [elemNumbers, List.flatMap_cons, ih]

theorem memberNumbers_eq (ms : List (String × Json)) :
    memberNumbers ms = ms.flatMap (numbers ·.2) := by
  induction ms with
  | nil => rfl
  | cons m ms ih => rw [memberNumbers, List.flatMap_cons, ih]

theorem numbers_number (raw : String) : (number raw).numbers = [raw] := rfl

theorem numbers_array (xs : List Json) : (array xs).numbers = xs.flatMap numbers :=
  elemNumbers_eq xs

theorem numbers_object (ms : List (String × Json)) :
    (object ms).numbers = ms.flatMap (numbers ·.2) :=
  memberNumbers_eq ms

/-- A value has a printed form exactly when its numbers are numbers of the format. -/
theorem printable_iff (j : Json) :
    j.printable = true ↔ ∀ raw ∈ j.numbers, isNumber raw = true := by
  induction j using induct with
  | null | bool value | string text => simp [printable, numbers]
  | number raw => simp [printable, numbers]
  | array elems ih =>
    simp only [printable, allPrintable_eq, List.all_eq_true, numbers, elemNumbers_eq,
      List.mem_flatMap, forall_exists_index, and_imp]
    constructor
    · exact fun h raw x hx hraw => (ih x hx).mp (h x hx) raw hraw
    · exact fun h x hx => (ih x hx).mpr fun raw hraw => h raw x hx hraw
  | object members ih =>
    simp only [printable, membersPrintable_eq, List.all_eq_true, numbers, memberNumbers_eq,
      List.mem_flatMap, forall_exists_index, and_imp]
    constructor
    · exact fun h raw m hm hraw => (ih m hm).mp (h m hm) raw hraw
    · exact fun h m hm => (ih m hm).mpr fun raw hraw => h raw m hm hraw

theorem isSome_text? (j : Json) : j.text?.isSome = j.printable := by
  unfold text?
  split <;> simp_all

theorem isSome_lines? (j : Json) : j.lines?.isSome = j.printable := by
  unfold lines?
  split <;> simp_all

/-! ## Numerals -/

/-- Digits of ASCII and a point perhaps, and no zero in front of another digit. -/
structure IsPlain (numeral : List Char) : Prop where
  ascii : ∀ c ∈ numeral, c.isDigit = true ∨ c = '.'
  leading : ∀ c rest, numeral = '0' :: c :: rest → c = '.'

theorem isPlain_iff {numeral : List Char} : IsPlain numeral ↔
    (∀ c ∈ numeral, c.isDigit = true ∨ c = '.') ∧
      (numeral.head? = some '0' → ∀ c ∈ numeral.tail.head?, c = '.') := by
  constructor
  · rintro ⟨hascii, hleading⟩
    refine ⟨hascii, fun hzero c hc => ?_⟩
    match numeral, hzero, hc with
    | _ :: _ :: rest, rfl, rfl => exact hleading c rest rfl
  · rintro ⟨hascii, hleading⟩
    refine ⟨hascii, ?_⟩
    rintro c rest rfl
    exact hleading rfl c rfl

instance (numeral : List Char) : Decidable (IsPlain numeral) :=
  -- by the members of the lists and not by all characters there are
  haveI := List.decidableBAll (fun c => c.isDigit = true ∨ c = '.') numeral
  haveI : Decidable (∀ c ∈ numeral.tail.head?, c = '.') := Option.decidableForallMem _
  decidable_of_iff' _ isPlain_iff

theorem ne_of_isDigit {c d : Char} (h : Text.isDigit c = true) (hd : Text.isDigit d = false) :
    c ≠ d := by
  rintro rfl
  rw [h] at hd
  cases hd

theorem isDigit_of_ascii {c : Char} (h : c.isDigit = true) : Text.isDigit c = true := by
  have hlt : c.toNat < 128 := Nat.lt_of_le_of_lt (Char.isDigit_iff_toNat.mp h).2 (by decide)
  rw [Text.isDigit, if_pos hlt]
  exact h

/-- A digit starts no exponent. -/
theorem skipExponent_digit {d : Char} (h : Text.isDigit d = true) (cs : List Char) :
    skipExponent (d :: cs) = some (d :: cs) := by
  simp [skipExponent, ne_of_isDigit h (by decide : Text.isDigit 'e' = false),
    ne_of_isDigit h (by decide : Text.isDigit 'E' = false)]

/-- What may follow the whole part of a number. -/
def skipEnding (cs : List Char) : Option (List Char) := (skipFraction cs).bind skipExponent

theorem skipEnding_digit {d : Char} (h : Text.isDigit d = true) (cs : List Char) :
    skipEnding (d :: cs) = some (d :: cs) := by
  have hpoint := ne_of_isDigit h (by decide : Text.isDigit '.' = false)
  have hfraction : skipFraction (d :: cs) = some (d :: cs) := by
    unfold skipFraction
    split
    next heq => exact absurd (List.cons.inj heq).1 hpoint
    next heq => exact absurd (List.cons.inj heq).1 hpoint
    next => rfl
  rw [skipEnding, hfraction, Option.bind_some, skipExponent_digit h]

/-- Digits are skipped up to the first that is not of ASCII, where no reader `f` gets on. -/
theorem skipDigits_append {f : List Char → Option (List Char)}
    (hf : ∀ d cs, Text.isDigit d = true → f (d :: cs) = some (d :: cs)) {digits : List Char}
    (h : ∀ c ∈ digits, Text.isDigit c = true) (rest : List Char) :
    f (skipDigits (digits ++ rest)) = some [] ↔
      (∀ c ∈ digits, c.isDigit = true) ∧ f (skipDigits rest) = some [] := by
  induction digits with
  | nil => simp
  | cons d ds ih =>
    obtain ⟨hd, hds⟩ := List.forall_mem_cons.mp h
    by_cases hascii : d.isDigit = true
    · have hskip : skipDigits (d :: ds ++ rest) = skipDigits (ds ++ rest) :=
        List.dropWhile_cons_of_pos hascii
      rw [hskip, ih hds, List.forall_mem_cons, and_iff_right hascii]
    · have hskip : skipDigits (d :: ds ++ rest) = d :: (ds ++ rest) :=
        List.dropWhile_cons_of_neg hascii
      rw [hskip, hf d _ hd]
      simp [hascii]

/-- A fraction ends a number if its digits are of ASCII. -/
theorem skipEnding_fraction {digits : List Char} (h : IsDigits digits) :
    skipEnding ('.' :: digits) = some [] ↔ ∀ c ∈ digits, c.isDigit = true := by
  obtain ⟨hne, hdigits⟩ := h
  obtain ⟨d, ds, rfl⟩ := List.exists_cons_of_ne_nil hne
  by_cases hascii : d.isDigit = true
  · have hskip : skipEnding ('.' :: d :: ds) = skipExponent (skipDigits (d :: ds ++ [])) := by
      simp [skipEnding, skipFraction, skipDigits, hascii]
    rw [hskip, skipDigits_append (fun d cs hd => skipExponent_digit hd cs) hdigits]
    exact and_iff_left rfl
  · have hskip : skipEnding ('.' :: d :: ds) = none := by
      simp [skipEnding, skipFraction, hascii]
    simp [hskip, hascii]

theorem ascii_digits {digits : List Char} (h : ∀ c ∈ digits, Text.isDigit c = true) :
    (∀ c ∈ digits, c.isDigit = true ∨ c = '.') ↔ ∀ c ∈ digits, c.isDigit = true := by
  refine forall₂_congr fun c hc => or_iff_left ?_
  exact ne_of_isDigit (h c hc) (by decide : Text.isDigit '.' = false)

/-- A numeral is read to its end if it is plain. -/
theorem skipInteger_numeral {numeral : List Char} (h : IsNumeral numeral) :
    (skipInteger numeral).bind skipEnding = some [] ↔ IsPlain numeral := by
  obtain ⟨whole, fraction, rfl, ⟨hne, hwhole⟩, hfraction⟩ := h
  obtain ⟨w, ws, rfl⟩ := List.exists_cons_of_ne_nil hne
  obtain ⟨hw, hws⟩ := List.forall_mem_cons.mp hwhole
  have hskip : skipDigits fraction = fraction := by
    rcases hfraction with rfl | ⟨digits, rfl, -⟩ <;> rfl
  have hending : skipEnding fraction = some [] ↔ ∀ c ∈ fraction, c.isDigit = true ∨ c = '.' := by
    rcases hfraction with rfl | ⟨digits, rfl, hdigits⟩
    · simp [skipEnding, skipFraction, skipExponent]
    · simp [skipEnding_fraction hdigits, ascii_digits hdigits.2]
  by_cases hzero : w = '0'
  · subst hzero
    have hrest : skipInteger ('0' :: ws ++ fraction) = some (ws ++ fraction) := rfl
    rw [hrest, Option.bind_some]
    cases ws with
    | nil =>
      rw [List.nil_append, hending]
      constructor
      · refine fun hascii => ⟨List.forall_mem_cons.mpr ⟨.inl rfl, hascii⟩, fun c rest heq => ?_⟩
        rcases hfraction with rfl | ⟨digits, rfl, -⟩
        · cases heq
        · exact (List.cons.inj (List.cons.inj heq).2).1.symm
      · exact fun hplain c hc => hplain.ascii c (.tail _ hc)
    | cons d ds =>
      have hd : Text.isDigit d = true := hws d (.head _)
      have hstuck : skipEnding (d :: ds ++ fraction) ≠ some [] := by
        rw [List.cons_append, skipEnding_digit hd]
        simp
      refine iff_of_false hstuck fun hplain => ?_
      exact ne_of_isDigit hd (by decide : Text.isDigit '.' = false) (hplain.leading d _ rfl)
  · have hplain : IsPlain (w :: ws ++ fraction) ↔
        ∀ c ∈ w :: ws ++ fraction, c.isDigit = true ∨ c = '.' :=
      ⟨IsPlain.ascii, fun hascii => ⟨hascii, fun c rest heq => absurd (List.cons.inj heq).1 hzero⟩⟩
    have hrest : skipInteger (w :: ws ++ fraction) =
        if w.isDigit then some (skipDigits (ws ++ fraction)) else none := by
      rw [List.cons_append, skipInteger]
      exact fun heq => hzero heq
    rw [hplain, hrest, List.forall_mem_append, ascii_digits hwhole, ← hending,
      List.forall_mem_cons]
    by_cases hascii : w.isDigit = true
    · rw [if_pos hascii, Option.bind_some, and_iff_right hascii,
        skipDigits_append (fun d cs hd => skipEnding_digit hd cs) hws, hskip]
    · simp [hascii]

/-- The digits of a number behind its sign. -/
def unsigned : List Char → List Char
  | '-' :: digits => digits
  | digits => digits

theorem unsigned_numeral {numeral : List Char} (h : IsNumeral numeral) :
    unsigned numeral = numeral := by
  obtain ⟨whole, fraction, rfl, ⟨hne, hwhole⟩, -⟩ := h
  obtain ⟨w, ws, rfl⟩ := List.exists_cons_of_ne_nil hne
  have hsign := ne_of_isDigit (hwhole w (.head _)) (by decide : Text.isDigit '-' = false)
  unfold unsigned
  split
  next heq => exact absurd (List.cons.inj heq).1 hsign
  next => rfl

theorem isNumber_iff (raw : String) :
    isNumber raw = true ↔ (skipInteger (unsigned raw.toList)).bind skipEnding = some [] := by
  have hskip : skipNumber raw.toList = (skipInteger (unsigned raw.toList)).bind skipEnding := by
    rfl
  rw [isNumber, hskip, beq_iff_eq]

/-- A numeral, with a sign or without, is a number of the format exactly when it is plain. -/
theorem isNumber_numeral {raw : String} (h : IsNumeral (unsigned raw.toList)) :
    isNumber raw = true ↔ IsPlain (unsigned raw.toList) := by
  rw [isNumber_iff, skipInteger_numeral h]

/-! ## Numbers that are computed -/

/-- A number with more than one digit does not start with a zero. -/
theorem toDigits_leading {n : Nat} (hn : 0 < n) (rest : List Char) :
    Nat.toDigits 10 n ≠ '0' :: rest := by
  induction n using Nat.strongRecOn generalizing rest with
  | ind n ih =>
    by_cases hlt : n < 10
    · rw [Nat.toDigits_of_lt_base hlt]
      intro heq
      have hzero : ∀ d, d < 10 → Nat.digitChar d = '0' → d = 0 := by decide
      have := hzero n hlt (List.cons.inj heq).1
      omega
    · rw [Nat.toDigits_of_base_le (by decide) (by omega)]
      have hhead := ih (n / 10) (by omega) (by omega)
      cases hdigits : Nat.toDigits 10 (n / 10) with
      | nil => exact absurd hdigits Nat.toDigits_ne_nil
      | cons d ds =>
        intro heq
        obtain rfl : d = '0' := (List.cons.inj heq).1
        exact hhead ds hdigits

theorem isDigits_toDigits (n : Nat) : IsDigits (Nat.toDigits 10 n) :=
  ⟨Nat.toDigits_ne_nil, fun _ hc =>
    isDigit_of_ascii (Nat.isDigit_of_mem_toDigits (by decide) (by decide) hc)⟩

theorem isPlain_toDigits (n : Nat) : IsPlain (Nat.toDigits 10 n) := by
  refine ⟨fun c hc => .inl (Nat.isDigit_of_mem_toDigits (by decide) (by decide) hc), ?_⟩
  intro c rest heq
  by_cases hn : 0 < n
  · exact absurd heq (toDigits_leading hn _)
  · obtain rfl : n = 0 := by omega
    cases heq

/-- A numeral of the digits of a number, with a sign or without, is a number of the format. -/
theorem isNumber_toDigits {raw : String} {n : Nat}
    (h : raw.toList = Nat.toDigits 10 n ∨ raw.toList = '-' :: Nat.toDigits 10 n) :
    isNumber raw = true := by
  have hnumeral : IsNumeral (Nat.toDigits 10 n) :=
    ⟨_, [], (List.append_nil _).symm, isDigits_toDigits n, .inl rfl⟩
  have hunsigned : unsigned raw.toList = Nat.toDigits 10 n := by
    rcases h with h | h
    · rw [h, unsigned_numeral hnumeral]
    · rw [h]
      rfl
  rw [isNumber_numeral (by rwa [hunsigned]), hunsigned]
  exact isPlain_toDigits n

theorem isNumber_ofNat (n : Nat) : isNumber (toString n) = true :=
  isNumber_toDigits (.inl Nat.toList_repr)

theorem isNumber_ofInt (n : Int) : isNumber (toString n) = true := by
  cases n with
  | ofNat n => exact isNumber_toDigits (.inl Nat.toList_repr)
  | negSucc n =>
    have htext : (toString (Int.negSucc n)).toList = '-' :: Nat.toDigits 10 (n + 1) := by
      change ("-" ++ (n + 1).repr).toList = _
      simp
    exact isNumber_toDigits (.inr htext)

end Scaffold.Json
