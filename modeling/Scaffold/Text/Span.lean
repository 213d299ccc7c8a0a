/-! # Spans of code points

A character class is a list of spans. A span with step two holds every other code point, which
is how alternating upper- and lower-case blocks are written. -/
namespace Scaffold.Text

structure Span where
  lo : Nat
  hi : Nat
  step : Nat
  deriving DecidableEq, Repr

def Span.contains (s : Span) (n : Nat) : Bool :=
  s.lo ≤ n && n ≤ s.hi && (n - s.lo) % s.step == 0

/-- The class described by a list of spans. -/
def inSpans (spans : List Span) (n : Nat) : Bool :=
  spans.any (·.contains n)

/-- A span of code points that all move by the same distance. -/
structure Shift where
  span : Span
  distance : Int
  deriving DecidableEq, Repr

/-- Move a code point by the first shift whose span holds it. -/
def shifted (shifts : List Shift) (n : Nat) : Nat :=
  match shifts.find? (·.span.contains n) with
  | some s => ((n : Int) + s.distance).toNat
  | none => n

end Scaffold.Text
