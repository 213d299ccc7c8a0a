import Scaffold.Number.Decimal
import Scaffold.Text.Quoted

/-! # Durations

A duration is a number of nanoseconds in 64 bits with a sign. It is written as numbers with units:
`1h30m`, `1.5s`. -/
namespace Scaffold.Number

open Scaffold.Text (hexDigits)

def durationUnits : List (String × Nat) :=
  [("ns", 1), ("us", 1000), ("µs", 1000), ("μs", 1000), ("ms", 1000000), ("s", 1000000000),
    ("m", 60000000000), ("h", 3600000000000)]

inductive DurationError
  | invalid (text : String)
  | missingUnit (text : String)
  | unknownUnit (unit text : String)
  deriving DecidableEq, Repr

/-- A text between quotes with every byte outside of printable ASCII by its number. -/
def byteQuoted (s : String) : String :=
  "\"" ++ String.ofList (s.toList.flatMap fun c =>
    if c.toNat < 0x20 || 0x80 ≤ c.toNat then
      c.toString.toUTF8.toList.flatMap fun b => '\\' :: 'x' :: hexDigits 2 b.toNat
    else if c = '"' || c = '\\' then ['\\', c]
    else [c]) ++ "\""

def DurationError.message : DurationError → String
  | invalid text => "time: invalid duration " ++ byteQuoted text
  | missingUnit text => "time: missing unit in duration " ++ byteQuoted text
  | unknownUnit unit text =>
    "time: unknown unit " ++ byteQuoted unit ++ " in duration " ++ byteQuoted text

/-- Digits as a number, unless it gets too large. -/
def boundedDigits (cs : List Char) : Option Nat :=
  cs.foldlM (fun n c =>
    let m := 10 * n + (c.toNat - '0'.toNat)
    if signBound / 10 < n || signBound < m then none else some m) 0

/-- Digits of a fraction with the power of ten they are divided by; those that no longer fit do not
count. -/
def fractionDigits : (value scale : Nat) → List Char → Nat × Nat
  | value, scale, [] => (value, scale)
  | value, scale, c :: cs =>
    let next := 10 * value + (c.toNat - '0'.toNat)
    if (signBound - 1) / 10 < value || signBound < next then (value, scale)
    else fractionDigits next (10 * scale) cs

/-- A part of a unit in whole nanoseconds, as doubles give it. -/
def fractionOf (value scale unit : Nat) : Nat :=
  ((Fraction.rounded ⟨value, 1⟩).times (Fraction.rounded ⟨unit, scale⟩)).truncated?.getD 0

def isUnitEnd (c : Char) : Bool := c = '.' || c.isDigit

/-- Read numbers with units; `total` is what they have come to. -/
def durationFrom (text : String) : (fuel : Nat) → (total : Nat) → List Char →
    Except DurationError Nat
  | 0, total, _ => .ok total
  | _, total, [] => .ok total
  | fuel + 1, total, c :: cs =>
    if !isUnitEnd c then .error (.invalid text)
    else
      let (whole, rest) := (c :: cs).span Char.isDigit
      let (part, rest) := match rest with
        | '.' :: r => r.span Char.isDigit
        | r => ([], r)
      match boundedDigits whole with
      | none => .error (.invalid text)
      | some v =>
        if whole.isEmpty && part.isEmpty then .error (.invalid text)
        else
          let (name, rest) := rest.span (!isUnitEnd ·)
          if name.isEmpty then .error (.missingUnit text)
          else match durationUnits.lookup (String.ofList name) with
            | none => .error (.unknownUnit (String.ofList name) text)
            | some unit =>
              let (f, scale) := fractionDigits 0 1 part
              let v := v * unit + fractionOf f scale unit
              if signBound < v || signBound < total + v then .error (.invalid text)
              else durationFrom text fuel (total + v) rest

/-- Read a duration. -/
def parseDuration (text : String) : Except DurationError Int :=
  let (negative, cs) := match text.toList with
    | '-' :: cs => (true, cs)
    | '+' :: cs => (false, cs)
    | cs => (false, cs)
  if cs = ['0'] then .ok 0
  else if cs.isEmpty then .error (.invalid text)
  else match durationFrom text cs.length 0 cs with
    | .error e => .error e
    | .ok n =>
      if negative then .ok (-(n : Int))
      else if n = signBound then .error (.invalid text)
      else .ok n

/-- A number with a fraction of `places` digits, without the zeros at its end. -/
def withFraction (n places : Nat) : String :=
  let digits := (toString (n % power 10 places)).toList
  let padded := List.replicate (places - digits.length) '0' ++ digits
  let kept := (padded.reverse.dropWhile (· = '0')).reverse
  toString (n / power 10 places) ++ if kept.isEmpty then "" else "." ++ String.ofList kept

def magnitudeText (n : Nat) : String :=
  if n = 0 then "0s"
  else if n < 1000 then toString n ++ "ns"
  else if n < 1000000 then withFraction n 3 ++ "µs"
  else if n < 1000000000 then withFraction n 6 ++ "ms"
  else
    let minutes := n / 60000000000
    let seconds := withFraction (n % 60000000000) 9 ++ "s"
    if minutes = 0 then seconds
    else if minutes < 60 then toString minutes ++ "m" ++ seconds
    else toString (minutes / 60) ++ "h" ++ toString (minutes % 60) ++ "m" ++ seconds

/-- How a duration is written. -/
def durationText (d : Int) : String :=
  if d < 0 then "-" ++ magnitudeText d.natAbs else magnitudeText d.natAbs

end Scaffold.Number
