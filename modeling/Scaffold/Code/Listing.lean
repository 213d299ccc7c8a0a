import Scaffold.Code.Term
import Scaffold.Output.Tree

/-! # Listings

A generated source file: its imports and its parts in order. A listing with a part that is no
valid code has no text. -/
namespace Scaffold.Code

open Scaffold.Text (quoted)
open Scaffold.Output (generatedHeader)

/-- The comment of a declaration shows a pair of quote characters as a curly quote. Three or more
backquotes stay. -/
def curlyRun : List Char → List Char
  | '`' :: cs => if cs.length = 1 then ['“'] else '`' :: cs
  | '\'' :: cs =>
    List.replicate ((cs.length + 1) / 2) '”' ++ List.replicate ((cs.length + 1) % 2) '\''
  | cs => cs

def curlyQuotes (cs : List Char) : List Char := (cs.splitBy (· == ·)).flatMap curlyRun

/-- A comment line above a declaration. A carriage return is dropped, and then quotes stay. -/
def docComment (text : String) : String :=
  let cs := text.toList
  "// " ++ String.ofList (if cs.contains '\r' then cs.filter (· != '\r') else curlyQuotes cs)

/-- Whether a text can stand in a line comment. -/
def isCommentText (text : String) : Bool :=
  text.toList.all fun c => c != '\n' && c.toNat != 0 && c.toNat != 0xFEFF

/-- A declaration: its lines, and whether they are valid code. -/
structure Part where
  lines : List String
  sound : Bool
  deriving DecidableEq, Repr

structure Listing where
  /-- Packages in use, in any order. -/
  imports : List String
  parts : List Part
  deriving DecidableEq, Repr

namespace Listing

def sortedImports (l : Listing) : List String :=
  (l.imports.mergeSort fun a b => decide (a ≤ b)).eraseDups

def importLines (l : Listing) : List (List String) :=
  if l.imports.isEmpty then []
  else [["import ("] ++ l.sortedImports.map (fun p => "\t" ++ quoted p) ++ [")"]]

/-- Blocks of lines; a blank line stands between two of them. -/
def blocks (l : Listing) : List (List String) :=
  [["// " ++ generatedHeader], ["package app"]] ++ l.importLines ++ l.parts.map (·.lines)

def text (l : Listing) : String :=
  "\n\n".intercalate (l.blocks.map fun lines => "\n".intercalate lines) ++ "\n"

def isSound (l : Listing) : Bool := l.parts.all (·.sound)

/-- The text of a listing of valid code. -/
def text? (l : Listing) : Option String := if l.isSound then some l.text else none

end Listing

end Scaffold.Code
