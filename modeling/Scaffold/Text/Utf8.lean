/-! # Decoded source text

Source text is a list of characters, each with the number of bytes it takes in UTF-8. A byte that
starts no well-formed sequence reads as the replacement character of width one, so every byte
string has a reading and offsets always count bytes. -/
namespace Scaffold.Text

/-- A character and the number of bytes that spell it. -/
structure Rune where
  char : Char
  width : Nat
  deriving DecidableEq, Repr

def replacement : Char := Char.ofNat 0xFFFD

def runes (s : String) : List Rune :=
  s.toList.map fun c => ⟨c, c.utf8Size⟩

/-- A fixed text is read by its characters, which is quicker than by its bytes. -/
theorem runes_ofList (cs : List Char) :
    runes (String.ofList cs) = cs.map fun c => ⟨c, c.utf8Size⟩ := by
  simp [runes]

def isContinuation (b : Nat) : Bool := 0x80 ≤ b && b ≤ 0xBF

/-- The sequence length announced by a first byte, with the bounds on the byte after it; zero
when no sequence starts here. -/
def leadOf (b : Nat) : Nat × Nat × Nat :=
  if b < 0x80 then (1, 0, 0)
  else if b < 0xC2 then (0, 0, 0)
  else if b < 0xE0 then (2, 0x80, 0xBF)
  else if b = 0xE0 then (3, 0xA0, 0xBF)
  else if b = 0xED then (3, 0x80, 0x9F)
  else if b < 0xF0 then (3, 0x80, 0xBF)
  else if b = 0xF0 then (4, 0x90, 0xBF)
  else if b < 0xF4 then (4, 0x80, 0xBF)
  else if b = 0xF4 then (4, 0x80, 0x8F)
  else (0, 0, 0)

/-- The first character of a byte string that starts with `b`. -/
def firstRune (b : Nat) (rest : List Nat) : Rune :=
  let (len, lo, hi) := leadOf b
  match len, rest with
  | 1, _ => ⟨Char.ofNat b, 1⟩
  | 2, c :: _ =>
    if lo ≤ c && c ≤ hi then ⟨Char.ofNat ((b % 0x20) * 0x40 + c % 0x40), 2⟩ else ⟨replacement, 1⟩
  | 3, c :: d :: _ =>
    if lo ≤ c && c ≤ hi && isContinuation d then
      ⟨Char.ofNat (((b % 0x10) * 0x40 + c % 0x40) * 0x40 + d % 0x40), 3⟩
    else ⟨replacement, 1⟩
  | 4, c :: d :: e :: _ =>
    if lo ≤ c && c ≤ hi && isContinuation d && isContinuation e then
      ⟨Char.ofNat ((((b % 0x08) * 0x40 + c % 0x40) * 0x40 + d % 0x40) * 0x40 + e % 0x40), 4⟩
    else ⟨replacement, 1⟩
  | _, _ => ⟨replacement, 1⟩

/-- Decode a byte string, skipping the bytes that the previous character has used. -/
def decodeFrom : Nat → List Nat → List Rune
  | _, [] => []
  | skip + 1, _ :: rest => decodeFrom skip rest
  | 0, b :: rest =>
    let r := firstRune b rest
    r :: decodeFrom (r.width - 1) rest

def decode (bytes : List Nat) : List Rune := decodeFrom 0 bytes

end Scaffold.Text
