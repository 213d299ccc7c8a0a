/-! # Integers as binary floating point

An integer that passes through a double keeps 53 binary digits, and is then written with the
fewest decimal digits that read back as the same double. -/
namespace Scaffold.Number

/-! ## Powers and bounds -/

def power (base exponent : Nat) : Nat := Nat.pow base exponent

/-- Half the range of a word of 64 bits. -/
def signBound : Nat := 9223372036854775808

def minInt64 : Int := -9223372036854775808

def maxInt64 : Int := 9223372036854775807

/-! ## Rounding -/

/-- How far `n` must be shifted right to have 53 binary digits. -/
def excess (n : Nat) : Nat := n.log2 + 1 - 53

/-- `n / d` rounded to the nearest integer, a half to the even neighbour. -/
def roundDiv (n d : Nat) : Nat :=
  let q := n / d
  let r := 2 * (n % d)
  if r < d then q else if d < r then q + 1 else if q % 2 = 0 then q else q + 1

/-- The nearest double of an integer, as an integer. -/
def nearest (n : Nat) : Nat :=
  let unit := power 2 (excess n)
  roundDiv n unit * unit

/-- The nearest multiple of `grid` to a double, if it reads back as that double. -/
def onGrid? (double grid : Nat) : Option Nat :=
  let below := double / grid * grid
  let above := below + grid
  let candidate := if double - below ≤ above - double then below else above
  let other := if double - below ≤ above - double then above else below
  if nearest candidate = double then some candidate
  else if nearest other = double then some other
  else none

/-- The first hit on grids that get finer, down to single units. -/
def shortestFrom (double : Nat) : Nat → Nat
  | 0 => double
  | k + 1 => (onGrid? double (power 10 (k + 1))).getD (shortestFrom double k)

/-- The integer written for the nearest double of `n`. -/
def throughDouble (n : Nat) : Nat :=
  let double := nearest n
  shortestFrom double (toString double).length

/-- The same for a signed integer. -/
def intThroughDouble : Int → Int
  | .ofNat n => throughDouble n
  | .negSucc n => -(throughDouble (n + 1) : Int)

end Scaffold.Number
