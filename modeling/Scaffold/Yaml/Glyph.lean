import Scaffold.Yaml.Printer

/-! # Characters in their place

A document is read as characters with the line and column where they stand. Every line end but the
two Unicode separators is one line feed. -/
namespace Scaffold.Yaml

structure Glyph where
  char : Char
  line : Nat
  column : Nat
  index : Nat
  deriving DecidableEq, Repr

/-- Whether a character may occur in a document. -/
def isReadable (c : Char) : Bool :=
  let n := c.toNat
  n = 0x09 || n = 0x0A || n = 0x0D || (0x20 ≤ n && n ≤ 0x7E) || n = 0x85 ||
    (0xA0 ≤ n && n ≤ 0xD7FF) || (0xE000 ≤ n && n ≤ 0xFFFD && n ≠ 0xFEFF) || 0x10000 ≤ n

/-- Replace line ends by line feeds. -/
def unifyBreaks : List Char → List Char
  | '\r' :: '\n' :: cs => '\n' :: unifyBreaks cs
  | c :: cs => (if c = '\r' || c.toNat = 0x85 then '\n' else c) :: unifyBreaks cs
  | [] => []

def glyphsFrom (line column index : Nat) : List Char → List Glyph
  | [] => []
  | c :: cs =>
    ⟨c, line, column, index⟩ ::
      if isBreak c then glyphsFrom (line + 1) 0 (index + 1) cs
      else glyphsFrom line (column + 1) (index + 1) cs

/-- The characters of a document; a mark of the byte order at its start is left out. There are none
if a character is not allowed. -/
def glyphs? (text : String) : Option (List Glyph) :=
  let cs := match text.toList with
    | c :: cs => if c.toNat = 0xFEFF then cs else c :: cs
    | [] => []
  if cs.all isReadable then some (glyphsFrom 0 0 0 (unifyBreaks cs)) else none

def Glyph.isBlank (g : Glyph) : Bool := isBlankChar g.char

def Glyph.isBreak (g : Glyph) : Bool := Yaml.isBreak g.char

/-- Whether a word ends before these characters. -/
def endsWord : List Glyph → Bool
  | [] => true
  | g :: _ => g.isBlank || g.isBreak

def charsOf (gs : List Glyph) : List Char := gs.map (·.char)

/-- Whether a line starts here that marks where a document starts or ends. -/
def isMarker (mark : String) (gs : List Glyph) : Bool :=
  (gs.head?.any (·.column = 0)) && charsOf (gs.take 3) = mark.toList && endsWord (gs.drop 3)

def isAnyMarker (gs : List Glyph) : Bool := isMarker "---" gs || isMarker "..." gs

/-- Blanks and line breaks between the words of a scalar. -/
structure Gap where
  /-- Blanks before the first line break. -/
  blanks : List Char
  broken : Bool
  /-- The first line break, unless it was escaped. -/
  first : Option Char
  /-- Further line breaks. -/
  others : List Char
  deriving DecidableEq, Repr

namespace Gap

def none : Gap := ⟨[], false, .none, []⟩

/-- A gap that an escaped line break opens. -/
def escaped : Gap := ⟨[], true, .none, []⟩

def isNone (g : Gap) : Bool := g.blanks.isEmpty && !g.broken

def addBlank (g : Gap) (c : Char) : Gap :=
  if g.broken then g else { g with blanks := g.blanks ++ [c] }

def addBreak (g : Gap) (c : Char) : Gap :=
  if g.broken then { g with others := g.others ++ [c] } else ⟨[], true, some c, []⟩

/-- What a gap stands for: a single line break is folded into a blank. -/
def text (g : Gap) : List Char :=
  if !g.broken then g.blanks
  else match g.first with
    | some '\n' => if g.others.isEmpty then [' '] else g.others
    | some c => c :: g.others
    | .none => g.others

end Gap

end Scaffold.Yaml
