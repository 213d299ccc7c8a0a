import Scaffold.Yaml.Lexeme

/-! # Tokens

The structure of a document as tokens. A key is not announced: it is found when its colon appears,
and its token is put in front of what was read since. Reading stops at the first fault, which is
the last token then. -/
namespace Scaffold.Yaml

inductive Token
  | directive
  | documentStart
  | documentEnd
  | blockSequence
  | blockMapping
  | blockEnd
  | openSequence
  | closeSequence
  | openMapping
  | closeMapping
  | blockEntry
  | flowEntry
  | key
  | value
  | alias_ (name : String)
  | anchor (name : String)
  | tag (name : String)
  | scalar (isPlain : Bool) (text : String)
  | streamEnd
  | fault
  deriving DecidableEq, Repr

/-- What may turn out to be a key. -/
structure PendingKey where
  /-- Whether nothing but a key may stand there. -/
  required : Bool
  /-- The number of tokens before it. -/
  position : Nat
  line : Nat
  column : Nat
  index : Nat

structure Scan where
  rest : List Glyph
  /-- The column of the current block; `-1` outside of all. -/
  indent : Int
  /-- The columns of the blocks around it. -/
  outer : List Int
  keyAllowed : Bool
  /-- The pending key here, and those around the open flow collections. -/
  pending : Option PendingKey
  outerPending : List (Option PendingKey)
  tokens : List Token

namespace Scan

def start (gs : List Glyph) : Scan := ⟨gs, -1, [], true, none, [], []⟩

def inFlow (s : Scan) : Bool := !s.outerPending.isEmpty

def emit (s : Scan) (t : Token) : Scan := { s with tokens := s.tokens ++ [t] }

def insertAt (s : Scan) (position : Nat) (t : Token) : Scan :=
  { s with tokens := s.tokens.take position ++ t :: s.tokens.drop position }

def skip (s : Scan) (n : Nat) : Scan := { s with rest := s.rest.drop n }

/-- Close the blocks that are deeper than a column; `blocks` are those around the current one. -/
def closeBlocks (column : Int) : List Int → Scan → Scan
  | [], s => s
  | o :: os, s =>
    if column < s.indent then closeBlocks column os { s.emit .blockEnd with indent := o, outer := os }
    else s

def unroll (s : Scan) (column : Int) : Scan :=
  if s.inFlow then s else closeBlocks column s.outer s

/-- Open a block at a column that is deeper than the current one. -/
def roll (s : Scan) (column : Nat) (position : Nat) (t : Token) : Scan :=
  if !s.inFlow && s.indent < column then
    { s.insertAt position t with indent := column, outer := s.indent :: s.outer }
  else s

/-- Give up the pending key; a required one must not be given up. -/
def dropKey (s : Scan) : Option Scan :=
  match s.pending with
  | some k => if k.required then none else some { s with pending := none }
  | none => some s

/-- Remember that a key may start here. -/
def saveKey (s : Scan) (g : Glyph) : Option Scan :=
  if s.keyAllowed then
    let required := !s.inFlow && s.indent = (g.column : Int)
    let key : PendingKey := ⟨required, s.tokens.length, g.line, g.column, g.index⟩
    s.dropKey.map fun s => { s with pending := some key }
  else some s

/-- The longest key, in characters. -/
def keyReach : Nat := 1024

/-- The pending key, if it can still be one when the reader is at a character. -/
def keyAt (s : Scan) (g : Glyph) : Option (Option PendingKey) :=
  match s.pending with
  | none => some none
  | some k =>
    if k.line < g.line || k.index + keyReach < g.index then
      if k.required then none else some none
    else some (some k)

/-- Pass over blanks, comments and line breaks. -/
def skipBlank (inFlow : Bool) : (keyAllowed inComment : Bool) → List Glyph → List Glyph × Bool
  | keyAllowed, _, [] => ([], keyAllowed)
  | keyAllowed, inComment, g :: gs =>
    if g.isBreak then skipBlank inFlow (keyAllowed || !inFlow) false gs
    else if inComment || g.char = '#' then skipBlank inFlow keyAllowed true gs
    else if g.char = ' ' || (g.char = '\t' && (inFlow || !keyAllowed)) then
      skipBlank inFlow keyAllowed false gs
    else (g :: gs, keyAllowed)

def toNext (s : Scan) : Scan :=
  let (rest, keyAllowed) := skipBlank s.inFlow s.keyAllowed false s.rest
  { s with rest := rest, keyAllowed := keyAllowed }

/-- A character that stands for itself and opens a collection. -/
def openFlow (s : Scan) (g : Glyph) (t : Token) : Option Scan :=
  (s.saveKey g).map fun s =>
    { (s.emit t).skip 1 with
      keyAllowed := true, pending := none, outerPending := s.pending :: s.outerPending }

def closeFlow (s : Scan) (t : Token) : Option Scan :=
  s.dropKey.map fun s =>
    let s := { (s.emit t).skip 1 with keyAllowed := false }
    match s.outerPending with
    | [] => s
    | k :: ks => { s with pending := k, outerPending := ks }

/-- A mark of the block structure: a dash or a question mark. -/
def blockMark (s : Scan) (g : Glyph) (block t : Token) (allowAfter : Bool) : Option Scan :=
  if !s.inFlow && !s.keyAllowed then none
  else
    (s.roll g.column s.tokens.length block).dropKey.map fun s =>
      { (s.emit t).skip 1 with keyAllowed := allowAfter }

/-- A colon: the end of the pending key, or of a key that was announced. -/
def colon (s : Scan) (g : Glyph) : Option Scan := do
  match ← s.keyAt g with
  | some k =>
    let s := (s.insertAt k.position .key).roll k.column k.position .blockMapping
    some { (s.emit .value).skip 1 with pending := none, keyAllowed := false }
  | none =>
    if !s.inFlow && !s.keyAllowed then none
    else
      let s := s.roll g.column s.tokens.length .blockMapping
      some { (s.emit .value).skip 1 with pending := none, keyAllowed := !s.inFlow }

def isNameChar (c : Char) : Bool := c.isAlphanum || c = '_' || c = '-'

/-- A name after `&` or `*`. -/
def named (s : Scan) (g : Glyph) (t : String → Token) : Option Scan := do
  let s ← s.saveKey g
  let (name, rest) := (s.rest.drop 1).span fun h => isNameChar h.char
  let closed := match rest with
    | [] => true
    | h :: _ => h.isBlank || h.isBreak || "?:,]\x7d%@`".toList.contains h.char
  if name.isEmpty || !closed then none
  else some { s.emit (t (String.ofList (charsOf name))) with rest := rest, keyAllowed := false }

/-- A tag; it reaches to the next blank, in flow collections also to the next mark. -/
def tagged (s : Scan) (g : Glyph) : Option Scan := do
  let s ← s.saveKey g
  let (name, rest) := s.rest.span fun h =>
    !(h.isBlank || h.isBreak || (s.inFlow && ",[]\x7b\x7d".toList.contains h.char))
  some { s.emit (.tag (String.ofList (charsOf name))) with rest := rest, keyAllowed := false }

/-- Take over a scalar that was read. -/
def take (s : Scan) (isPlain : Bool) (x : Lexeme) : Scan :=
  { s.emit (.scalar isPlain (String.ofList x.text)) with rest := x.rest, keyAllowed := x.broken }

/-- A directive: only the version 1.1 and tag handles are known. -/
def directive (s : Scan) : Option Scan :=
  let s := s.unroll (-1)
  let line := charsOf (s.rest.takeWhile fun h => !h.isBreak)
  s.dropKey.bind fun s =>
    if line.take 5 = "%TAG ".toList || line.take 9 = "%YAML 1.1".toList then
      some { (s.emit .directive).skip line.length with keyAllowed := false }
    else none

def marker (s : Scan) (t : Token) : Option Scan :=
  (s.unroll (-1)).dropKey.map fun s => { (s.emit t).skip 3 with keyAllowed := false }

/-- Whether a plain scalar may start here. -/
def startsPlain (s : Scan) (g : Glyph) (after : List Glyph) : Bool :=
  !(g.isBlank || g.isBreak || "-?:,[]\x7b\x7d#&*!|>'\"%@`".toList.contains g.char) ||
    (g.char = '-' && !after.head?.any (·.isBlank)) ||
    (!s.inFlow && (g.char = '?' || g.char = ':') && !endsWord after)

/-- Read the token that starts with a character. -/
def token (s : Scan) (g : Glyph) (after : List Glyph) : Option Scan :=
  let context : PlainContext := ⟨s.inFlow, s.indent + 1⟩
  match g.char with
  | '[' => s.openFlow g .openSequence
  | '\x7b' => s.openFlow g .openMapping
  | ']' => s.closeFlow .closeSequence
  | '\x7d' => s.closeFlow .closeMapping
  | ',' => s.dropKey.map fun s => { (s.emit .flowEntry).skip 1 with keyAllowed := true }
  | '*' => s.named g .alias_
  | '&' => s.named g .anchor
  | '!' => s.tagged g
  | '\'' => (s.saveKey g).bind fun s => (singleFrom [] .none after).map (s.take false)
  | '"' => (s.saveKey g).bind fun s => (doubleFrom .text [] .none after).map (s.take false)
  | c =>
    if c = '-' && endsWord after then s.blockMark g .blockSequence .blockEntry true
    else if c = '?' && (s.inFlow || endsWord after) then
      s.blockMark g .blockMapping .key (!s.inFlow)
    else if c = ':' && (s.inFlow || endsWord after) then s.colon g
    else if (c = '|' || c = '>') && !s.inFlow then
      s.dropKey.bind fun s => (blockFrom (c = '>') s.indent after).map (s.take false)
    else if s.startsPlain g after then
      (s.saveKey g).bind fun s => (plainFrom context [] .none (g :: after)).map (s.take true)
    else none

/-- Read one token and what it implies; the end of the text closes all blocks. -/
def step (s : Scan) : Option Scan :=
  let s := s.toNext
  match s.rest with
  | [] => (s.unroll (-1)).dropKey
  | g :: after =>
    let s := s.unroll g.column
    if g.column = 0 && g.char = '%' then s.directive
    else if isMarker "---" s.rest then s.marker .documentStart
    else if isMarker "..." s.rest then s.marker .documentEnd
    else s.token g after

def run : (fuel : Nat) → Scan → List Token
  | 0, s => s.tokens
  | fuel + 1, s =>
    match s.step with
    | none => s.tokens ++ [.fault]
    | some next => if next.rest.isEmpty && s.toNext.rest.isEmpty then next.tokens else run fuel next

end Scan

/-- The tokens of a document. -/
def tokens (text : String) : List Token :=
  match glyphs? text with
  | none => [.fault]
  | some gs => Scan.run (gs.length + 1) (.start gs)

end Scaffold.Yaml
