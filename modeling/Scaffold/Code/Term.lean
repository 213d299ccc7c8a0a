import Scaffold.Source.Formula
import Scaffold.Text.Letter
import Scaffold.Text.Quoted

/-! # Terms of generated code

A term is kept as a tree and printed in the layout of the Go formatter: blanks stand around an
operator unless it is nested too deep. A term that is no valid code can still be printed, and
`Term.isSound` tells it apart. -/
namespace Scaffold.Code

open Scaffold.Source (Operator)
open Scaffold.Text (isLetter isDigit quoted)

def isIdentifierStart (c : Char) : Bool := isLetter c || c == '_'

def isIdentifier (s : String) : Bool :=
  match s.toList with
  | [] => false
  | c :: cs => isIdentifierStart c && cs.all fun d => isIdentifierStart d || isDigit d

/-- An unsigned number literal. A leading zero makes an integer octal. -/
def isUnsignedLiteral (cs : List Char) : Bool :=
  match cs.span (·.isDigit) with
  | ([], _) => false
  | (whole, []) => whole.length = 1 || whole.head? != some '0' || whole.all (· < '8')
  | (_, '.' :: fraction) => fraction.all (·.isDigit)
  | _ => false

/-- A number literal, with a sign or without. -/
def isNumberLiteral (raw : String) : Bool :=
  match raw.toList with
  | '-' :: cs => isUnsignedLiteral cs
  | cs => isUnsignedLiteral cs

inductive Term
  /-- A field of the record at hand. -/
  | field (name : String)
  | number (raw : String)
  | text (value : String)
  /-- A function applied to a term, and further fixed arguments. -/
  | call (function : String) (arg : Term) (more : List String)
  /-- A method applied to a term, with a fixed argument. -/
  | method (target : Term) (name arg : String)
  | parens (inner : Term)
  | binary (op : Operator) (left right : Term)
  deriving DecidableEq, Repr

namespace Term

/-- The term without its outermost parentheses. -/
def stripped : Term → Term
  | parens inner => inner
  | t => t

/-- A subtraction of a negative number needs blanks lest the signs meet. -/
def signsMeet (op : Operator) (right : Term) : Bool :=
  match op, right with
  | .sub, number raw => raw.startsWith "-"
  | _, _ => false

/-- The text of a term at a depth; only at depth one an operator has blanks around it. -/
def print (depth : Nat) : Term → String
  | field name => "r." ++ name
  | number raw => raw
  | text value => quoted value
  | call function arg more =>
    let depth := if more.isEmpty then depth else depth + 1
    function ++ "(" ++ ", ".intercalate (arg.print depth :: more) ++ ")"
  | method target name arg => target.print depth ++ "." ++ name ++ "(" ++ arg ++ ")"
  | parens inner => "(" ++ inner.print (max 1 (depth - 1)) ++ ")"
  | binary op left right =>
    let blank := if depth ≤ 1 || signsMeet op right then " " else ""
    left.print (depth + 1) ++ blank ++ op.symbol ++ blank ++ right.print (depth + 1)

/-- Whether the text of a term is valid code. -/
def isSound : Term → Bool
  | field name => isIdentifier name
  | number raw => isNumberLiteral raw
  | text _ => true
  | call _ arg _ => arg.isSound
  | method target _ _ => target.isSound
  | parens inner => inner.isSound
  | binary _ left right => left.isSound && right.isSound

end Term

end Scaffold.Code
