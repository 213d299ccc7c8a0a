import Scaffold.Text.Quoted
import Scaffold.Yaml.Scalar

/-! # Printing YAML

Mappings and sequences are written in blocks of two blanks a level. A text is written plainly
where it reads back as a text, else between quotes, and a text of several lines as a literal
block. -/
namespace Scaffold.Yaml

open Scaffold.Text (hexDigits)

/-- A character that ends a line. -/
def isBreak (c : Char) : Bool :=
  c = '\n' || c = '\r' || c.toNat = 0x85 || c.toNat = 0x2028 || c.toNat = 0x2029

def isBlankChar (c : Char) : Bool := c = ' ' || c = '\t'

/-- A character that may be written as it is. -/
def isShown (c : Char) : Bool :=
  let n := c.toNat
  n = 0x0A || (0x20 ≤ n && n ≤ 0x7E) || (0xA0 ≤ n && n ≤ 0xD7FF) ||
    (0xE000 ≤ n && n ≤ 0xFFFD && n ≠ 0xFEFF)

/-- A character with those beside it. -/
structure Context where
  before : Option Char
  char : Char
  after : Option Char

def contexts (cs : List Char) : List Context :=
  List.zipWith (fun before (c, after) => ⟨before, c, after⟩) (none :: cs.map some)
    (cs.zip ((cs.drop 1).map some ++ [none]))

def Context.endsWord (x : Context) : Bool := x.after.all isBlankChar

/-- Characters that would be read as part of the block structure. -/
def Context.isIndicator (x : Context) : Bool :=
  match x.before with
  | none =>
    "#,[]\x7b\x7d&*!|>'\"%@`".toList.contains x.char ||
      ("?:-".toList.contains x.char && x.endsWord)
  | some b =>
    (x.char = ':' && x.endsWord) || (x.char = '#' && (isBlankChar b || isBreak b || b.toNat = 0))

def startsMarker (cs : List Char) : Bool :=
  cs.take 3 = ['-', '-', '-'] || cs.take 3 = ['.', '.', '.']

/-- A line break next to a blank on its left, or on its right. -/
def blankBeforeBreak (cs : List Char) : Bool :=
  (cs.zip (cs.drop 1)).any fun (a, b) => a = ' ' && isBreak b

def blankAfterBreak (cs : List Char) : Bool :=
  (cs.zip (cs.drop 1)).any fun (a, b) => isBreak a && b = ' '

def isHidden (c : Char) : Bool := c ≠ '\t' && !isShown c

/-- Whether a text can be written without quotes. -/
def plainAllowed (cs : List Char) : Bool :=
  match cs.head?, cs.getLast? with
  | some first, some last =>
    !(startsMarker cs) && (contexts cs).all (!·.isIndicator) && !cs.any isBreak &&
      first ≠ ' ' && last ≠ ' ' && !cs.any isHidden && !cs.contains '\t'
  | _, _ => true

/-- Whether a text can be written between single quotes. -/
def singleAllowed (cs : List Char) : Bool :=
  !blankBeforeBreak cs && !blankAfterBreak cs && !cs.any isHidden && !cs.contains '\t'

/-- Whether a text can be written as a block. -/
def blockAllowed (cs : List Char) : Bool :=
  !cs.isEmpty && cs.getLast? ≠ some ' ' && !blankBeforeBreak cs && !cs.any isHidden

def blanks (n : Nat) : String := String.ofList (List.replicate n ' ')

/-- The escape letters of double quotes. -/
def escapeLetters : List (Nat × Char) :=
  [(0x00, '0'), (0x07, 'a'), (0x08, 'b'), (0x09, 't'), (0x0A, 'n'), (0x0B, 'v'), (0x0C, 'f'),
    (0x0D, 'r'), (0x1B, 'e'), (0x22, '"'), (0x5C, '\\'), (0x85, 'N'), (0x2028, 'L'),
    (0x2029, 'P')]

def upperHex (width n : Nat) : List Char := (hexDigits width n).map Char.toUpper

def doubleChar (c : Char) : List Char :=
  let n := c.toNat
  if isShown c && !isBreak c && c ≠ '"' && c ≠ '\\' then [c]
  else match escapeLetters.lookup n with
    | some letter => ['\\', letter]
    | none =>
      if n ≤ 0xFF then '\\' :: 'x' :: upperHex 2 n
      else if n ≤ 0xFFFF then '\\' :: 'u' :: upperHex 4 n
      else '\\' :: 'U' :: upperHex 8 n

def doubleQuoted (cs : List Char) : String :=
  "\"" ++ String.ofList (cs.flatMap doubleChar) ++ "\""

/-- The inside of single quotes. A line that follows a break is indented. -/
def singleBody (indent : Nat) : (afterBreak : Bool) → List Char → List Char
  | _, [] => []
  | afterBreak, c :: cs =>
    if isBreak c then c :: singleBody indent true cs
    else (if afterBreak then List.replicate indent ' ' else []) ++
      (if c = '\'' then ['\'', '\''] else [c]) ++ singleBody indent false cs

def singleQuoted (indent : Nat) (cs : List Char) : String :=
  "'" ++ String.ofList (singleBody indent false cs) ++ "'"

/-- The lines of a literal block; `opened` once its first line has begun. -/
def literalBody (indent : Nat) : (opened atStart : Bool) → List Char → List Char
  | _, _, [] => []
  | opened, atStart, c :: cs =>
    if isBreak c then c :: literalBody indent true true cs
    else
      (if atStart then (if opened then [] else ['\n']) ++ List.replicate indent ' ' else []) ++
        c :: literalBody indent true false cs

/-- The mark that tells what becomes of the line breaks at the end. -/
def chompMark (cs : List Char) : String :=
  match cs.reverse with
  | [] => "-"
  | [c] => if isBreak c then "+" else "-"
  | c :: d :: _ => if isBreak c then (if isBreak d then "+" else "") else "-"

def literalBlock (indent : Nat) (cs : List Char) : String :=
  let hint := if cs.head?.any fun c => c = ' ' || isBreak c then "2" else ""
  "|" ++ hint ++ chompMark cs ++ String.ofList (literalBody indent false true cs)

/-- A text as a scalar whose further lines are indented. -/
def scalarText (indent : Nat) (s : String) : String :=
  let cs := s.toList
  if cs.contains '\n' then
    if blockAllowed cs then literalBlock indent cs else doubleQuoted cs
  else if isPlainText s then
    if plainAllowed cs then s
    else if singleAllowed cs then singleQuoted indent cs
    else doubleQuoted cs
  else doubleQuoted cs

inductive Node
  | text (value : String)
  | number (value : Int)
  | seq (items : List Node)
  | map (entries : List (String × Node))
  deriving Repr

/-- End the line of a scalar, unless it ends with a line break of its own. -/
def endLine (s : String) : String :=
  match s.toList.getLast? with
  | some c => if isBreak c then s else s ++ "\n"
  | none => "\n"

mutual

/-- What follows a key or a dash: a scalar on the same line, or a block below it. -/
def Node.after (indent : Nat) : Node → String
  | .text value => " " ++ endLine (scalarText (indent + 2) value)
  | .number value => " " ++ toString value ++ "\n"
  | .seq [] => " []\n"
  | .map [] => " \x7b\x7d\n"
  | .seq items => "\n" ++ itemLines (indent + 2) items
  | .map entries => "\n" ++ entryLines (indent + 2) entries

def itemLines (indent : Nat) : List Node → String
  | [] => ""
  | x :: xs => blanks indent ++ "-" ++ x.after indent ++ itemLines indent xs

def entryLines (indent : Nat) : List (String × Node) → String
  | [] => ""
  | (key, x) :: xs => blanks indent ++ key ++ ":" ++ x.after indent ++ entryLines indent xs

end

/-- A document that is a mapping. -/
def document (entries : List (String × Node)) : String := entryLines 0 entries

end Scaffold.Yaml
