import Scaffold.Number.Double

/-! # Decimal texts

A decimal is read exactly, as a fraction, and then rounded to the nearest double. -/
namespace Scaffold.Number

/-- Digits with single underscores between them, read as a number: its value and how many digits
it has. -/
def digitsValue (cs : List Char) : Nat × Nat :=
  cs.foldl (fun (value, count) c =>
    if c.isDigit then (10 * value + (c.toNat - '0'.toNat), count + 1) else (value, count)) (0, 0)

/-- An exponent; digits after the fifth no longer count. -/
def exponentValue (cs : List Char) : Nat :=
  cs.foldl (fun e c => if e < 10000 && c.isDigit then 10 * e + (c.toNat - '0'.toNat) else e) 0

/-- An unsigned decimal as a fraction. -/
structure Fraction where
  num : Nat
  den : Nat
  deriving DecidableEq, Repr

def Fraction.scaled (mantissa : Nat) (places : Nat) (exponent : Int) : Fraction :=
  let shift : Int := exponent - places
  if 0 ≤ shift then ⟨mantissa * power 10 shift.toNat, 1⟩
  else ⟨mantissa, power 10 (-shift).toNat⟩

/-- Whether a character may stand in a run of digits. -/
def isDigitOrGap (c : Char) : Bool := c.isDigit || c = '_'

/-- The decimal at the head of a text: digits with an optional point, then an optional exponent.
Underscores are passed over. -/
def readDecimal (cs : List Char) : Option (Fraction × List Char) := do
  let (whole, rest) := cs.span isDigitOrGap
  let (fraction, rest) := match rest with
    | '.' :: r => r.span isDigitOrGap
    | r => ([], r)
  let (mantissa, count) := digitsValue (whole ++ fraction)
  let places := (digitsValue fraction).2
  if count = 0 then none
  else match rest with
    | c :: r =>
      if c = 'e' || c = 'E' then
        let (negative, r) := match r with
          | '+' :: r => (false, r)
          | '-' :: r => (true, r)
          | r => (false, r)
        let (digits, r) := r.span isDigitOrGap
        if digits.head?.any (·.isDigit) then
          let e : Int := exponentValue digits
          some (.scaled mantissa places (if negative then -e else e), r)
        else none
      else some (.scaled mantissa places 0, c :: r)
    | [] => some (.scaled mantissa places 0, [])

/-- Whether an underscore stands only between two digits. -/
def gapsInside : (afterDigit : Bool) → List Char → Bool
  | _, [] => true
  | afterDigit, '_' :: c :: cs => afterDigit && c.isDigit && gapsInside true cs
  | _, ['_'] => false
  | _, c :: cs => gapsInside c.isDigit cs

/-- The power of two that leaves `f` with 53 binary digits before the point. -/
def Fraction.unit (f : Fraction) : Int :=
  let guess : Int := (f.num.log2 : Int) - (f.den.log2 : Int) - 52
  let reaches (e : Int) : Bool :=
    if 0 ≤ e then power 2 53 * (f.den * power 2 e.toNat) ≤ f.num
    else power 2 53 * f.den ≤ f.num * power 2 (-e).toNat
  let short (e : Int) : Bool :=
    if 0 ≤ e then f.num < power 2 52 * (f.den * power 2 e.toNat)
    else f.num * power 2 (-e).toNat < power 2 52 * f.den
  if reaches guess then guess + 1 else if short guess then guess - 1 else guess

/-- The nearest double, as a fraction. -/
def Fraction.rounded (f : Fraction) : Fraction :=
  if f.num = 0 then f
  else
    let e := f.unit
    if 0 ≤ e then ⟨roundDiv f.num (f.den * power 2 e.toNat) * power 2 e.toNat, 1⟩
    else ⟨roundDiv (f.num * power 2 (-e).toNat) f.den, power 2 (-e).toNat⟩

def Fraction.times (f g : Fraction) : Fraction := ⟨f.num * g.num, f.den * g.den⟩

/-- The integer part of the nearest double, or none when there is no finite one. -/
def Fraction.truncated? (f : Fraction) : Option Nat :=
  if f.num = 0 then some 0
  else
    let e := f.unit
    if 0 ≤ e then
      let m := roundDiv f.num (f.den * power 2 e.toNat)
      let value := m * power 2 e.toNat
      if value < power 2 1024 then some value else none
    else some (roundDiv (f.num * power 2 (-e).toNat) f.den / power 2 (-e).toNat)

end Scaffold.Number
