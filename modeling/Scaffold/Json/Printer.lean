import Scaffold.Json.Basic
import Scaffold.Text.Quoted

/-! # Printing JSON

Texts are escaped so that the output is also safe inside HTML, unless `html` is off. A value whose
numbers are not JSON numbers has no printed form. -/
namespace Scaffold.Json

open Scaffold.Text (hexDigits)

def escapeChar (html : Bool) (c : Char) : List Char :=
  match c with
  | '"' => ['\\', '"']
  | '\\' => ['\\', '\\']
  | '\n' => ['\\', 'n']
  | '\r' => ['\\', 'r']
  | '\t' => ['\\', 't']
  | '\x08' => ['\\', 'b']
  | '\x0c' => ['\\', 'f']
  | c =>
    if c.toNat < 0x20 || c.toNat = 0x2028 || c.toNat = 0x2029 ||
        (html && (c = '<' || c = '>' || c = '&')) then
      '\\' :: 'u' :: hexDigits 4 c.toNat
    else [c]

def quoteText (html : Bool) (s : String) : String :=
  "\"" ++ String.ofList (s.toList.flatMap (escapeChar html)) ++ "\""

def skipDigits (cs : List Char) : List Char := cs.dropWhile Char.isDigit

/-- An exponent, if one starts here. -/
def skipExponent : List Char → Option (List Char)
  | c :: rest =>
    if c = 'e' || c = 'E' then
      let rest := match rest with
        | '+' :: r => r
        | '-' :: r => r
        | r => r
      match rest with
      | d :: r => if d.isDigit then some (skipDigits r) else none
      | [] => none
    else some (c :: rest)
  | [] => some []

/-- A fraction, if one starts here. -/
def skipFraction : List Char → Option (List Char)
  | '.' :: d :: rest => if d.isDigit then some (skipDigits rest) else none
  | '.' :: [] => none
  | cs => some cs

def skipInteger : List Char → Option (List Char)
  | '0' :: rest => some rest
  | c :: rest => if c.isDigit then some (skipDigits rest) else none
  | [] => none

/-- What follows the number at the head of a text. -/
def skipNumber (cs : List Char) : Option (List Char) := do
  let cs := match cs with
    | '-' :: rest => rest
    | cs => cs
  let cs ← skipInteger cs
  let cs ← skipFraction cs
  skipExponent cs

/-- Whether a text is a number of the format. -/
def isNumber (raw : String) : Bool := skipNumber raw.toList == some []

mutual

/-- Whether every number of a value is a number of the format. -/
def printable : Json → Bool
  | number raw => isNumber raw
  | array elems => allPrintable elems
  | object members => membersPrintable members
  | _ => true

def allPrintable : List Json → Bool
  | [] => true
  | x :: xs => printable x && allPrintable xs

def membersPrintable : List (String × Json) → Bool
  | [] => true
  | (_, x) :: xs => printable x && membersPrintable xs

end

mutual

/-- On one line, without blanks. -/
def compact (html : Bool) : Json → String
  | null => "null"
  | bool true => "true"
  | bool false => "false"
  | number raw => raw
  | string text => quoteText html text
  | array elems => "[" ++ ",".intercalate (compactElems html elems) ++ "]"
  | object members => "\x7b" ++ ",".intercalate (compactMembers html members) ++ "\x7d"

def compactElems (html : Bool) : List Json → List String
  | [] => []
  | x :: xs => compact html x :: compactElems html xs

def compactMembers (html : Bool) : List (String × Json) → List String
  | [] => []
  | (k, x) :: xs => (quoteText html k ++ ":" ++ compact html x) :: compactMembers html xs

end

/-- A line end and two blanks for each level. -/
def newLine (level : Nat) : String := "\n" ++ String.ofList (List.replicate (2 * level) ' ')

/-- Items on lines of their own between brackets; without items the brackets touch. -/
def bracketed (opening closing : String) (level : Nat) (items : List String) : String :=
  if items.isEmpty then opening ++ closing
  else opening ++ newLine (level + 1) ++ ("," ++ newLine (level + 1)).intercalate items ++
    newLine level ++ closing

mutual

/-- One item a line, two blanks a level. -/
def indented (html : Bool) (level : Nat) : Json → String
  | null => "null"
  | bool true => "true"
  | bool false => "false"
  | number raw => raw
  | string text => quoteText html text
  | array elems => bracketed "[" "]" level (indentedElems html (level + 1) elems)
  | object members => bracketed "\x7b" "\x7d" level (indentedMembers html (level + 1) members)

def indentedElems (html : Bool) (level : Nat) : List Json → List String
  | [] => []
  | x :: xs => indented html level x :: indentedElems html level xs

def indentedMembers (html : Bool) (level : Nat) : List (String × Json) → List String
  | [] => []
  | (k, x) :: xs =>
    (quoteText html k ++ ": " ++ indented html level x) :: indentedMembers html level xs

end

/-- The compact form of a value that has one. -/
def text? (j : Json) : Option String := if printable j then some (compact true j) else none

/-- The indented form of a value that has one. -/
def lines? (j : Json) : Option String := if printable j then some (indented true 0 j) else none

end Scaffold.Json
