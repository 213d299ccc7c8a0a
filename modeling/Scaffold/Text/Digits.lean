/-! # Digits

Numbers in decimal digits, and UUIDs in hexadecimal ones. -/
namespace Scaffold.Text

/-- The number that decimal digits write. -/
def valueOf (cs : List Char) : Nat := cs.foldl (fun n c => 10 * n + (c.toNat - '0'.toNat)) 0

/-- A text of decimal digits as a number. -/
def digits? (s : String) : Option Nat :=
  if s ≠ "" && s.toList.all Char.isDigit then some (valueOf s.toList) else none

/-- The value of a hexadecimal digit. -/
def hexValue? (c : Char) : Option Nat :=
  if c.isDigit then some (c.toNat - '0'.toNat)
  else if 'a' ≤ c && c ≤ 'f' then some (c.toNat - 'a'.toNat + 10)
  else if 'A' ≤ c && c ≤ 'F' then some (c.toNat - 'A'.toNat + 10)
  else none

/-! ## UUIDs in text

Thirty-two hexadecimal digits, bare or in the groups 8-4-4-4-12; a grouped UUID may follow
`urn:uuid:` or stand between two further characters, which are meant to be braces. -/
namespace Uuid

def isHex (c : Char) : Bool := (hexValue? c).isSome

/-- Whether the first 36 characters are a grouped UUID. -/
def grouped (cs : List Char) : Bool :=
  36 ≤ cs.length && ((cs.take 36).zipIdx.all fun (c, i) =>
    if i = 8 || i = 13 || i = 18 || i = 23 then c = '-' else isHex c)

def valid (s : String) : Bool :=
  let cs := s.toList
  cs.all (·.toNat < 128) &&
    match cs.length with
    | 32 => cs.all isHex
    | 36 => grouped cs
    | 38 => grouped (cs.drop 1)
    | 45 => (cs.take 9).map Char.toLower == "urn:uuid:".toList && grouped (cs.drop 9)
    | _ => false

end Uuid

end Scaffold.Text
