import Scaffold.Text.Utf8

/-! # Positions in source text -/
namespace Scaffold.Source

/-- Line and column count characters from one; the offset counts bytes from zero. -/
structure Pos where
  line : Nat
  column : Nat
  offset : Nat
  deriving DecidableEq, Repr, Inhabited

namespace Pos

def start : Pos := ⟨1, 1, 0⟩

/-- The position after one character: a line feed starts the next line. -/
def advance (p : Pos) (r : Text.Rune) : Pos :=
  if r.char = '\n' then ⟨p.line + 1, 1, p.offset + r.width⟩
  else ⟨p.line, p.column + 1, p.offset + r.width⟩

def text (p : Pos) : String := s!"{p.line}:{p.column}"

/-- The position with its file, when the file has a name. -/
def located (file : String) (p : Pos) : String :=
  if file = "" then p.text else file ++ ":" ++ p.text

end Pos

end Scaffold.Source
