import Scaffold.Yaml.Glyph

/-! # Scalars in a document

How plain, quoted and block scalars are read: each reader gives the text of the scalar and what
follows it. -/
namespace Scaffold.Yaml

structure Lexeme where
  text : List Char
  rest : List Glyph
  /-- Whether a line break was read after the last word. -/
  broken : Bool

/-! ## Plain scalars -/

/-- Where a plain scalar stands. -/
structure PlainContext where
  inFlow : Bool
  /-- The least column of a further line, outside of flow collections. -/
  indent : Int

/-- Whether a plain scalar ends before these characters, whatever stands before them. -/
def PlainContext.ends (x : PlainContext) : List Glyph → Bool
  | [] => true
  | g :: gs =>
    (g.char = ':' && endsWord gs) || (x.inFlow && ",?[]\x7b\x7d".toList.contains g.char)

/-- Whether a plain scalar ends after a gap. -/
def PlainContext.endsAfterGap (x : PlainContext) (gs : List Glyph) : Bool :=
  match gs with
  | [] => true
  | g :: _ => (!x.inFlow && (g.column : Int) < x.indent) || isAnyMarker gs || g.char = '#'

/-- Read a plain scalar; `done` is its text so far, last character first. -/
def plainFrom (x : PlainContext) : (done : List Char) → Gap → List Glyph → Option Lexeme
  | done, gap, [] => some ⟨done.reverse, [], gap.broken⟩
  | done, gap, g :: gs =>
    if g.isBlank then
      if gap.broken && (g.column : Int) < x.indent && g.char = '\t' then none
      else plainFrom x done (gap.addBlank g.char) gs
    else if g.isBreak then plainFrom x done (gap.addBreak g.char) gs
    else if (!gap.isNone && x.endsAfterGap (g :: gs)) || x.ends (g :: gs) then
      some ⟨done.reverse, g :: gs, gap.broken⟩
    else plainFrom x (g.char :: gap.text.reverse ++ done) .none gs

/-! ## Quoted scalars -/

/-- Read what follows an opening single quote. -/
def singleFrom : (done : List Char) → Gap → List Glyph → Option Lexeme
  | _, _, [] => none
  | done, gap, g :: gs =>
    if isAnyMarker (g :: gs) then none
    else if g.isBlank then singleFrom done (gap.addBlank g.char) gs
    else if g.isBreak then singleFrom done (gap.addBreak g.char) gs
    else
      let done := gap.text.reverse ++ done
      if g.char = '\'' then
        match gs with
        | h :: rest =>
          if h.char = '\'' then singleFrom ('\'' :: done) .none rest
          else some ⟨done.reverse, gs, false⟩
        | [] => some ⟨done.reverse, [], false⟩
      else singleFrom (g.char :: done) .none gs

/-- What a letter means after a backslash. -/
def escapeOf : List (Char × Nat) :=
  [('0', 0x00), ('a', 0x07), ('b', 0x08), ('t', 0x09), ('\t', 0x09), ('n', 0x0A), ('v', 0x0B),
    ('f', 0x0C), ('r', 0x0D), ('e', 0x1B), (' ', 0x20), ('"', 0x22), ('\'', 0x27), ('/', 0x2F),
    ('\\', 0x5C), ('N', 0x85), ('_', 0xA0), ('L', 0x2028), ('P', 0x2029)]

/-- How many hexadecimal digits follow a letter after a backslash. -/
def hexWidth : List (Char × Nat) := [('x', 2), ('u', 4), ('U', 8)]

/-- What the reader of double quotes is inside of. -/
inductive DoubleMode
  | text
  | escape
  | hex (left value : Nat)

def isCodePoint (n : Nat) : Bool := n ≤ 0x10FFFF && !(0xD800 ≤ n && n ≤ 0xDFFF)

/-- Read what follows an opening double quote. -/
def doubleFrom : DoubleMode → (done : List Char) → Gap → List Glyph → Option Lexeme
  | _, _, _, [] => none
  | .escape, done, gap, g :: gs =>
    if g.isBreak then doubleFrom .text done .escaped gs
    else match escapeOf.lookup g.char, hexWidth.lookup g.char with
      | some n, _ => doubleFrom .text (Char.ofNat n :: done) gap gs
      | none, some width => doubleFrom (.hex width 0) done gap gs
      | none, none => none
  | .hex left value, done, gap, g :: gs =>
    match digitIn? 16 g.char with
    | none => none
    | some d =>
      let value := 16 * value + d
      if left ≤ 1 then
        if isCodePoint value then doubleFrom .text (Char.ofNat value :: done) gap gs else none
      else doubleFrom (.hex (left - 1) value) done gap gs
  | .text, done, gap, g :: gs =>
    if isAnyMarker (g :: gs) then none
    else if g.isBlank then doubleFrom .text done (gap.addBlank g.char) gs
    else if g.isBreak then doubleFrom .text done (gap.addBreak g.char) gs
    else
      let done := gap.text.reverse ++ done
      if g.char = '"' then some ⟨done.reverse, gs, false⟩
      else if g.char = '\\' then doubleFrom .escape done .none gs
      else doubleFrom .text (g.char :: done) .none gs

/-! ## Block scalars -/

/-- What becomes of the line breaks at the end of a block. -/
inductive Chomp
  | strip
  | clip
  | keep
  deriving DecidableEq, Repr

def chompOf : List (Char × Chomp) := [('-', .strip), ('+', .keep)]

/-- The marks after `|` or `>`: chomping and indentation in any order. -/
def blockMarks : (chomp : Option Chomp) → (step : Option Nat) → List Glyph →
    Option (Chomp × Nat × List Glyph)
  | chomp, step, [] => some (chomp.getD .clip, step.getD 0, [])
  | chomp, step, g :: gs =>
    match chompOf.lookup g.char, chomp, g.char.isDigit, step with
    | some x, none, _, _ => blockMarks (some x) step gs
    | _, _, true, none =>
      if g.char = '0' then none else blockMarks chomp (some (g.char.toNat - '0'.toNat)) gs
    | _, _, _, _ => some (chomp.getD .clip, step.getD 0, g :: gs)

/-- The rest of the line of a block's marks: blanks and a comment. -/
def blockLine (gs : List Glyph) : Option (List Glyph) :=
  let gs := gs.dropWhile (·.isBlank)
  let gs := match gs with
    | g :: _ => if g.char = '#' then gs.dropWhile fun (h : Glyph) => !h.isBreak else gs
    | [] => []
  match gs with
  | [] => some []
  | g :: rest => if g.isBreak then some rest else none

/-- Indentation and blank lines; gives the widest indentation, the line breaks and what follows.
The indentation `0` is not yet known. -/
def blockBreaks (indent : Nat) : (widest : Nat) → (breaks : List Char) → List Glyph →
    Option (Nat × List Char × List Glyph)
  | widest, breaks, [] => some (widest, breaks.reverse, [])
  | widest, breaks, g :: gs =>
    let inside := indent = 0 || g.column < indent
    if inside && g.char = ' ' then blockBreaks indent (max widest (g.column + 1)) breaks gs
    else if inside && g.char = '\t' then none
    else if g.isBreak then blockBreaks indent (max widest g.column) (g.char :: breaks) gs
    else some (max widest g.column, breaks.reverse, g :: gs)

/-- What is known between two lines of a block. -/
structure BlockState where
  done : List Char
  /-- The line break after the last line. -/
  last : List Char
  /-- Line breaks of blank lines after it. -/
  breaks : List Char
  /-- Whether the last line began with a blank. -/
  indented : Bool
  rest : List Glyph

/-- Add a line to a block. -/
def BlockState.addLine (folded : Bool) (indent : Nat) (s : BlockState) : Option BlockState :=
  let indented := s.rest.head?.any (·.isBlank)
  let fold := folded && !s.indented && !indented && s.last.head? = some '\n'
  let joint := (if fold then (if s.breaks.isEmpty then [' '] else []) else s.last) ++ s.breaks
  let line := charsOf (s.rest.takeWhile (!·.isBreak))
  let (last, rest) := match s.rest.dropWhile (!·.isBreak) with
    | g :: gs => ([g.char], gs)
    | [] => ([], [])
  (blockBreaks indent 0 [] rest).map fun (_, breaks, rest) =>
    ⟨s.done ++ joint ++ line, last, breaks, indented, rest⟩

/-- Read lines as long as they are indented. -/
def blockLines (folded : Bool) (indent : Nat) : (fuel : Nat) → BlockState → Option BlockState
  | 0, s => some s
  | fuel + 1, s =>
    if s.rest.head?.any (·.column = indent) then
      (s.addLine folded indent).bind (blockLines folded indent fuel)
    else some s

/-- Read what follows `|` or `>`; `indent` is the column of the surrounding block. -/
def blockFrom (folded : Bool) (indent : Int) (gs : List Glyph) : Option Lexeme := do
  let (chomp, step, gs) ← blockMarks none none gs
  let gs ← blockLine gs
  let own := if step = 0 then 0 else (max indent 0).toNat + step
  let (widest, breaks, gs) ← blockBreaks own 0 [] gs
  let own := if own = 0 then max (max widest (indent + 1).toNat) 1 else own
  let s ← blockLines folded own (gs.length + 1) ⟨[], [], breaks, false, gs⟩
  let tail := match chomp with
    | .strip => []
    | .clip => s.last
    | .keep => s.last ++ s.breaks
  some ⟨s.done ++ tail, s.rest, true⟩

end Scaffold.Yaml
