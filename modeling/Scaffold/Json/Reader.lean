import Scaffold.Json.Printer
import Scaffold.Text.Digits

/-! # Reading JSON

A text is read as a whole. An escaped half of a surrogate pair that lacks its other half reads as
the replacement character, and a value nested deeper than `maxDepth` is refused. -/
namespace Scaffold.Json

open Scaffold.Text (hexValue?)

def maxDepth : Nat := 10000

def skipBlanks (cs : List Char) : List Char :=
  cs.dropWhile fun c => c = ' ' || c = '\t' || c = '\n' || c = '\r'

/-- The number of four hexadecimal digits. -/
def unit? (a b c d : Char) : Option Nat := do
  let a ← hexValue? a
  let b ← hexValue? b
  let c ← hexValue? c
  let d ← hexValue? d
  some (((a * 16 + b) * 16 + c) * 16 + d)

def escapedLetter? : Char → Option Nat
  | '"' => some '"'.toNat
  | '\\' => some '\\'.toNat
  | '/' => some '/'.toNat
  | 'b' => some 8
  | 'f' => some 12
  | 'n' => some 10
  | 'r' => some 13
  | 't' => some 9
  | _ => none

/-- The code units of a text up to its closing quote, and what follows. -/
def readUnits : List Char → Option (List Nat × List Char)
  | [] => none
  | '"' :: rest => some ([], rest)
  | '\\' :: 'u' :: a :: b :: c :: d :: rest => do
    let x ← unit? a b c d
    let (xs, rest) ← readUnits rest
    some (x :: xs, rest)
  | '\\' :: c :: rest => do
    let x ← escapedLetter? c
    let (xs, rest) ← readUnits rest
    some (x :: xs, rest)
  | c :: rest =>
    if c = '\\' || c.toNat < 0x20 then none
    else do
      let (xs, rest) ← readUnits rest
      some (c.toNat :: xs, rest)

def isHighHalf (x : Nat) : Bool := 0xD800 ≤ x && x < 0xDC00

def isLowHalf (x : Nat) : Bool := 0xDC00 ≤ x && x < 0xE000

def replacementChar : Char := Char.ofNat 0xFFFD

/-- Join the halves of surrogate pairs; `high` is a first half that waits for its second. -/
def joinUnits : (high : Option Nat) → List Nat → List Char
  | none, [] => []
  | some _, [] => [replacementChar]
  | none, x :: xs =>
    if isHighHalf x then joinUnits (some x) xs
    else if isLowHalf x then replacementChar :: joinUnits none xs
    else Char.ofNat x :: joinUnits none xs
  | some h, x :: xs =>
    if isLowHalf x then
      Char.ofNat (0x10000 + (h - 0xD800) * 0x400 + (x - 0xDC00)) :: joinUnits none xs
    else if isHighHalf x then replacementChar :: joinUnits (some x) xs
    else replacementChar :: Char.ofNat x :: joinUnits none xs

/-- The text after an opening quote, and what follows its closing quote. -/
def readText (cs : List Char) : Option (String × List Char) :=
  (readUnits cs).map fun (units, rest) => (String.ofList (joinUnits none units), rest)

/-- The number at the head of a text, as it is written, and what follows. -/
def readNumber (cs : List Char) : Option (Json × List Char) := do
  let rest ← skipNumber cs
  some (number (String.ofList (cs.take (cs.length - rest.length))), rest)

mutual

/-- The value at the head of a text. `room` is how much deeper values may nest. -/
def readValue : (fuel room : Nat) → List Char → Option (Json × List Char)
  | 0, _, _ => none
  | fuel + 1, room, cs =>
    match skipBlanks cs with
    | '\x7b' :: cs =>
      if room = 0 then none
      else match skipBlanks cs with
        | '\x7d' :: rest => some (object [], rest)
        | cs => (readMembers fuel (room - 1) cs).map fun (ms, rest) => (object ms, rest)
    | '[' :: cs =>
      if room = 0 then none
      else match skipBlanks cs with
        | ']' :: rest => some (array [], rest)
        | cs => (readElems fuel (room - 1) cs).map fun (xs, rest) => (array xs, rest)
    | '"' :: cs => (readText cs).map fun (text, rest) => (string text, rest)
    | 't' :: 'r' :: 'u' :: 'e' :: rest => some (bool true, rest)
    | 'f' :: 'a' :: 'l' :: 's' :: 'e' :: rest => some (bool false, rest)
    | 'n' :: 'u' :: 'l' :: 'l' :: rest => some (null, rest)
    | cs => readNumber cs

/-- Elements up to the closing bracket. -/
def readElems : (fuel room : Nat) → List Char → Option (List Json × List Char)
  | 0, _, _ => none
  | fuel + 1, room, cs => do
    let (x, rest) ← readValue fuel room cs
    match skipBlanks rest with
    | ',' :: rest =>
      let (xs, rest) ← readElems fuel room rest
      some (x :: xs, rest)
    | ']' :: rest => some ([x], rest)
    | _ => none

/-- Members up to the closing brace. -/
def readMembers : (fuel room : Nat) → List Char → Option (List (String × Json) × List Char)
  | 0, _, _ => none
  | fuel + 1, room, cs =>
    match skipBlanks cs with
    | '"' :: cs => do
      let (key, rest) ← readText cs
      match skipBlanks rest with
      | ':' :: rest =>
        let (x, rest) ← readValue fuel room rest
        match skipBlanks rest with
        | ',' :: rest =>
          let (ms, rest) ← readMembers fuel room rest
          some ((key, x) :: ms, rest)
        | '\x7d' :: rest => some ([(key, x)], rest)
        | _ => none
      | _ => none
    | _ => none

end

/-- The value that a text spells. Every step of a reader takes a character, so the length of the
text bounds the steps. -/
def read? (s : String) : Option Json :=
  let cs := s.toList
  match readValue (2 * cs.length + 1) maxDepth cs with
  | some (x, rest) => if (skipBlanks rest).isEmpty then some x else none
  | none => none

end Scaffold.Json
