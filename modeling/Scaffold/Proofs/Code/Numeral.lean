import Mathlib.Data.List.TakeDrop
import Mathlib.Data.Rat.Cast.CharZero
import Scaffold.Code.Term
import Scaffold.Proofs.Json.Number

/-! # What a number literal stands for

Numbers go into generated code as they are written in the source. There the digits of a number are
read in base ten. In the code those of a whole number with a zero in front are read in base eight,
so such a number keeps its value only if no more than one digit follows the zeros. -/
namespace Scaffold.Code

/-! ## Digits in a base -/

def digitValue (c : Char) : Nat := c.toNat - '0'.toNat

/-- Digits read in a base, the highest first. -/
def positional (base : Nat) (digits : List Char) : Nat :=
  digits.foldl (fun n c => base * n + digitValue c) 0

theorem positional_singleton (base : Nat) (c : Char) : positional base [c] = digitValue c := by
  simp [positional]

theorem positional_dropWhile (base : Nat) (digits : List Char) :
    positional base (digits.dropWhile (· == '0')) = positional base digits := by
  induction digits with
  | nil => rfl
  | cons c cs ih =>
    by_cases hc : c = '0'
    · subst hc
      rw [List.dropWhile_cons_of_pos (by simp), ih]
      rfl
    · rw [List.dropWhile_cons_of_neg (by simpa using hc)]

theorem foldl_lt {base base' : Nat} (h : base ≤ base') {n m : Nat} (hnm : n < m)
    (hbase : 0 < base) (digits : List Char) :
    digits.foldl (fun n c => base * n + digitValue c) n <
      digits.foldl (fun n c => base' * n + digitValue c) m := by
  induction digits generalizing n m with
  | nil => exact hnm
  | cons c cs ih =>
    refine ih (Nat.add_lt_add_right ?_ _)
    calc base * n < base * m := Nat.mul_lt_mul_of_pos_left hnm hbase
      _ ≤ base' * m := Nat.mul_le_mul_right m h

theorem digitValue_pos {c : Char} (h : c.isDigit = true) (hc : c ≠ '0') : 0 < digitValue c := by
  obtain ⟨hlow, -⟩ := Char.isDigit_iff_toNat.mp h
  have hne : c.toNat ≠ '0'.toNat := fun he => hc (Char.toNat_inj.mp he)
  unfold digitValue
  have hzero : '0'.toNat = 48 := rfl
  omega

/-- Two digits or more behind the zeros stand for more in a larger base. -/
theorem positional_eq_iff {digits : List Char} (h : ∀ c ∈ digits, c.isDigit = true) :
    positional 8 digits = positional 10 digits ↔
      (digits.dropWhile (· == '0')).length < 2 := by
  rw [← positional_dropWhile 8, ← positional_dropWhile 10]
  match hd : digits.dropWhile (· == '0') with
  | [] => simp [positional]
  | [c] => simp [positional_singleton]
  | c :: d :: rest =>
    have hc : c.isDigit = true := h c ((List.dropWhile_subset _) (hd ▸ List.mem_cons_self))
    have hzero : c ≠ '0' := by
      have hhead := List.head?_dropWhile_not (· == '0') digits
      rw [hd] at hhead
      simpa using hhead
    have hpos := digitValue_pos hc hzero
    have hlt : positional 8 (c :: d :: rest) < positional 10 (c :: d :: rest) := by
      have hstart : 8 * (8 * 0 + digitValue c) + digitValue d <
          10 * (10 * 0 + digitValue c) + digitValue d := by omega
      exact foldl_lt (by decide) hstart (by decide) rest
    simp [hlt.ne]

/-! ## Values -/

/-- The value of a numeral without a sign, given the base of a whole number. Around a point all
digits are decimal. -/
def numeral (base : List Char → Nat) (cs : List Char) : ℚ :=
  match cs.span (·.isDigit) with
  | (whole, '.' :: fraction) => positional 10 (whole ++ fraction) / 10 ^ fraction.length
  | (whole, _) => positional (base whole) whole

def signed (value : List Char → ℚ) (raw : String) : ℚ :=
  match raw.toList with
  | '-' :: cs => -value cs
  | cs => value cs

/-- The value of a number of the source. -/
def decimalValue (raw : String) : ℚ := signed (numeral fun _ => 10) raw

/-- In the code a zero in front makes a whole number octal. A zero by itself is none in any base. -/
def wholeBase (whole : List Char) : Nat := if whole.head? = some '0' then 8 else 10

/-- The value of a number literal of the code. -/
def codeValue (raw : String) : ℚ := signed (numeral wholeBase) raw

/-- A whole number with a zero in front and at least two digits behind the zeros. -/
def isPaddedWhole (cs : List Char) : Bool :=
  cs.all (·.isDigit) && cs.head? == some '0' && decide (2 ≤ (cs.dropWhile (· == '0')).length)

/-- Whether a number is read in another base than it is meant in. -/
def isMisread (raw : String) : Bool := isPaddedWhole (Json.unsigned raw.toList)

/-- A literal is a whole number, and perhaps a fraction. -/
theorem exists_parts {cs : List Char} (h : isUnsignedLiteral cs = true) :
    ∃ whole tail, cs.span (·.isDigit) = (whole, tail) ∧ cs = whole ++ tail ∧
      (∀ c ∈ whole, c.isDigit = true) ∧ (tail = [] ∨ ∃ fraction, tail = '.' :: fraction) := by
  refine ⟨_, _, List.span_eq_takeWhile_dropWhile _ cs, List.takeWhile_append_dropWhile.symm,
    List.all_eq_true.mp List.all_takeWhile, ?_⟩
  simp only [isUnsignedLiteral, List.span_eq_takeWhile_dropWhile] at h
  split at h
  next => cases h
  next heq => exact .inl (Prod.mk.inj heq).2
  next whole fraction _ heq => exact .inr ⟨fraction, (Prod.mk.inj heq).2⟩
  next => cases h

theorem numeral_eq_iff {cs : List Char} (h : isUnsignedLiteral cs = true) :
    numeral wholeBase cs = numeral (fun _ => 10) cs ↔ isPaddedWhole cs = false := by
  obtain ⟨whole, tail, hspan, hcs, hdigits, rfl | ⟨fraction, rfl⟩⟩ := exists_parts h
  · rw [List.append_nil] at hcs
    have hall : whole.all (·.isDigit) = true := List.all_eq_true.mpr hdigits
    simp only [numeral, hspan]
    rw [isPaddedWhole, hcs, hall, Bool.true_and]
    by_cases hzero : whole.head? = some '0'
    · simp [wholeBase, hzero, positional_eq_iff hdigits]
    · simp [wholeBase, hzero]
  · have hpoint : cs.all (·.isDigit) = false := by simp [hcs]
    simp only [numeral, hspan, isPaddedWhole, hpoint, Bool.false_and]

theorem signed_minus {raw : String} {cs : List Char} (h : raw.toList = '-' :: cs)
    (value : List Char → ℚ) : signed value raw = -value cs := by
  simp only [signed, h]

theorem signed_plain {raw : String} (h : ∀ cs, raw.toList ≠ '-' :: cs) (value : List Char → ℚ) :
    signed value raw = value raw.toList := by
  unfold signed
  split
  next cs hraw => exact absurd hraw (h cs)
  next => rfl

theorem unsigned_plain {cs : List Char} (h : ∀ ds, cs ≠ '-' :: ds) : Json.unsigned cs = cs := by
  unfold Json.unsigned
  split
  next ds => exact absurd rfl (h ds)
  next => rfl

/-- A number literal of the code stands for the number of the source unless it is misread. -/
theorem codeValue_eq_iff {raw : String} (h : isNumberLiteral raw = true) :
    codeValue raw = decimalValue raw ↔ isMisread raw = false := by
  unfold isNumberLiteral at h
  split at h
  next cs hraw =>
    have hunsigned : Json.unsigned raw.toList = cs := by rw [hraw, Json.unsigned]
    rw [codeValue, decimalValue, signed_minus hraw, signed_minus hraw, neg_inj, isMisread,
      hunsigned]
    exact numeral_eq_iff h
  next hplain =>
    rw [codeValue, decimalValue, signed_plain hplain, signed_plain hplain, isMisread,
      unsigned_plain hplain]
    exact numeral_eq_iff h

end Scaffold.Code
