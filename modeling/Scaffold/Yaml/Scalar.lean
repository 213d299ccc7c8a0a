import Scaffold.Number.Decimal
import Scaffold.Text.Timestamp

/-! # Plain scalars

What a plain scalar stands for: nothing, a truth value, a number, a time, or else a text. -/
namespace Scaffold.Yaml

open Scaffold.Number

inductive Scalar
  | null
  | bool (value : Bool)
  | int (value : Int)
  /-- A number with a fraction or an exponent, by its integer part; none without one. -/
  | float (truncated : Option Int)
  | time
  | text
  deriving DecidableEq, Repr

/-- Words with a meaning of their own. -/
def words : List (String × Scalar) :=
  ["", "~", "null", "Null", "NULL"].map (·, .null) ++
    ["true", "True", "TRUE"].map (·, .bool true) ++
    ["false", "False", "FALSE"].map (·, .bool false) ++
    [".nan", ".NaN", ".NAN", ".inf", ".Inf", ".INF", "+.inf", "+.Inf", "+.INF"].map
      (·, .float none) ++
    ["-.inf", "-.Inf", "-.INF"].map (·, .float (some Number.minInt64))

def digitIn? (base : Nat) (c : Char) : Option Nat :=
  let n :=
    if c.isDigit then c.toNat - '0'.toNat
    else if 'a' ≤ c && c ≤ 'z' then c.toNat - 'a'.toNat + 10
    else if 'A' ≤ c && c ≤ 'Z' then c.toNat - 'A'.toNat + 10
    else base
  if n < base then some n else none

/-- The number that digits of a base spell. -/
def digits? (base : Nat) (cs : List Char) : Option Nat :=
  if cs.isEmpty then none
  else cs.foldlM (fun n c => (digitIn? base c).map (base * n + ·)) 0

/-- An unsigned integer; a leading zero announces a base other than ten. -/
def magnitude? : List Char → Option Nat
  | '0' :: 'x' :: cs | '0' :: 'X' :: cs => digits? 16 cs
  | '0' :: 'b' :: cs | '0' :: 'B' :: cs => digits? 2 cs
  | '0' :: 'o' :: cs | '0' :: 'O' :: cs => digits? 8 cs
  | ['0'] => some 0
  | '0' :: cs => digits? 8 cs
  | cs => digits? 10 cs

/-- An integer of at most 64 bits, the sign included unless there is none. -/
def integer? (cs : List Char) : Option Int :=
  match cs with
  | '-' :: cs => (magnitude? cs).bind fun n => if n ≤ Number.signBound then some (-(n : Int)) else none
  | '+' :: cs => (magnitude? cs).bind fun n => if n < Number.signBound then some (n : Int) else none
  | cs => (magnitude? cs).bind fun n => if n < 2 * Number.signBound then some (n : Int) else none

/-- A decimal with its sign, as the whole of a text. -/
def decimal? (cs : List Char) : Option Scalar := do
  let (negative, cs) := match cs with
    | '-' :: cs => (true, cs)
    | '+' :: cs => (false, cs)
    | cs => (false, cs)
  let (f, rest) ← readDecimal cs
  if rest.isEmpty then
    let n ← f.truncated?
    some (.float (some (if negative then -(n : Int) else n)))
  else none

/-- What a text that starts with a digit or a sign stands for. -/
def numeric? (s : String) : Option Scalar :=
  let cs := s.toList.filter (· ≠ '_')
  if Text.Timestamp.validLoose s then some .time
  else ((integer? cs).map .int).or (decimal? cs)

/-- What a plain scalar stands for. -/
def resolve (s : String) : Scalar :=
  match words.lookup s with
  | some x => x
  | none =>
    match s.toList with
    | '.' :: cs =>
      if gapsInside false ('.' :: cs) then (decimal? ('.' :: cs)).getD .text else .text
    | c :: _ => if c.isDigit || c = '+' || c = '-' then (numeric? s).getD .text else .text
    | [] => .null

/-- Numbers to the base sixty, which some readers know: `1:30`. -/
def isSexagesimal (s : String) : Bool :=
  let cs := match s.toList with
    | '-' :: cs => cs
    | '+' :: cs => cs
    | cs => cs
  match (splitColons cs) with
  | first :: second :: more =>
    (match first with
      | c :: cs => c.isDigit && cs.all isDigitOrGap
      | [] => false) && isMinutes (second :: more)
  | _ => false
where
  splitColons : List Char → List (List Char)
    | [] => [[]]
    | ':' :: cs => [] :: splitColons cs
    | c :: cs =>
      match splitColons cs with
      | piece :: pieces => (c :: piece) :: pieces
      | [] => [[c]]
  isUnit : List Char → Bool
    | [a] => a.isDigit
    | [a, b] => '0' ≤ a && a ≤ '5' && b.isDigit
    | _ => false
  isMinutes : List (List Char) → Bool
    | [] => true
    | [last] =>
      match last.span (· ≠ '.') with
      | (unit, '.' :: fraction) => isUnit unit && fraction.all isDigitOrGap
      | (unit, _) => isUnit unit
    | unit :: more => isUnit unit && isMinutes more

/-- Words that some readers take for truth values. -/
def looksBoolean (s : String) : Bool :=
  ["y", "Y", "yes", "Yes", "YES", "on", "On", "ON", "n", "N", "no", "No", "NO", "off", "Off",
    "OFF"].contains s

/-- Whether every reader takes a plain scalar for a text. -/
def isPlainText (s : String) : Bool :=
  resolve s = .text && !isSexagesimal s && !looksBoolean s

end Scaffold.Yaml
