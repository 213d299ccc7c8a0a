import Scaffold.Source.Parser

/-! # Formulas

The text of a computed field: sums and differences of products and quotients of literals, field
names and parenthesised formulas. Operators of one level group to the left. -/
namespace Scaffold.Source

inductive Operator
  | add | sub | mul | div
  deriving DecidableEq, Repr

def Operator.symbol : Operator → String
  | add => "+"
  | sub => "-"
  | mul => "*"
  | div => "/"

inductive Formula
  | field (name : String) (pos : Pos)
  | string (text : String) (pos : Pos)
  | number (raw : String) (pos : Pos)
  | binary (op : Operator) (left right : Formula) (pos : Pos)
  deriving DecidableEq, Repr

def Formula.pos : Formula → Pos
  | field _ p | string _ p | number _ p | binary _ _ _ p => p

def additiveOp : TokenKind → Option Operator
  | .plus => some .add
  | .minus => some .sub
  | _ => none

def multiplicativeOp : TokenKind → Option Operator
  | .star => some .mul
  | .slash => some .div
  | _ => none

mutual

def parseSum : Nat → Tokens → Except ParseError (Formula × Tokens)
  | 0, _ => .error .stalled
  | fuel + 1, c => do
    let (left, c) ← parseProduct fuel c
    parseSumTail fuel left c

def parseSumTail : Nat → Formula → Tokens → Except ParseError (Formula × Tokens)
  | 0, _, _ => .error .stalled
  | fuel + 1, left, c =>
    match additiveOp c.kind with
    | none => .ok (left, c)
    | some op => do
      let at_ := c.peek.pos
      let (right, c) ← parseProduct fuel c.advance
      parseSumTail fuel (.binary op left right at_) c

def parseProduct : Nat → Tokens → Except ParseError (Formula × Tokens)
  | 0, _ => .error .stalled
  | fuel + 1, c => do
    let (left, c) ← parseOperand fuel c
    parseProductTail fuel left c

def parseProductTail : Nat → Formula → Tokens → Except ParseError (Formula × Tokens)
  | 0, _, _ => .error .stalled
  | fuel + 1, left, c =>
    match multiplicativeOp c.kind with
    | none => .ok (left, c)
    | some op => do
      let at_ := c.peek.pos
      let (right, c) ← parseOperand fuel c.advance
      parseProductTail fuel (.binary op left right at_) c

/-- A minus before a number is its sign; before anything else it subtracts from zero. -/
def parseOperand : Nat → Tokens → Except ParseError (Formula × Tokens)
  | 0, _ => .error .stalled
  | fuel + 1, c =>
    let t := c.peek
    match t.kind with
    | .string => .ok (.string t.lexeme t.pos, c.advance)
    | .number => .ok (.number t.lexeme t.pos, c.advance)
    | .ident | .keyword => .ok (.field t.lexeme t.pos, c.advance)
    | .lparen => do
      let (e, c) ← parseSum fuel c.advance
      let (_, c) ← expect .rparen c
      .ok (e, c)
    | .minus =>
      let c := c.advance
      if c.kind = .number then .ok (.number ("-" ++ c.peek.lexeme) t.pos, c.advance)
      else do
        let (operand, c) ← parseOperand fuel c
        .ok (.binary .sub (.number "0" t.pos) operand t.pos, c)
    | _ => mismatch .operand c

end

/-- Fuel for a formula of `n` tokens: a parenthesis takes three units. -/
def formulaFuel (n : Nat) : Nat := 4 * n + 8

/-- The formula of a whole token list. -/
def formulaOfTokens (tokens : List Token) : Except ParseError Formula :=
  let c := Tokens.ofList tokens
  if c.kind = .eof then .error (.mismatch .expression c.peek)
  else do
    let (e, c) ← parseSum (formulaFuel tokens.length) c
    if c.kind = .eof then .ok e else .error (.mismatch .operatorOrEnd c.peek)

/-- Positions are relative to the text of the formula. -/
def parseFormula (source : List Text.Rune) : Except SourceError Formula :=
  match lex source with
  | .error e => .error ⟨"", .lexical e⟩
  | .ok tokens =>
    match formulaOfTokens tokens with
    | .error e => .error ⟨"", .structural e⟩
    | .ok f => .ok f

namespace Formula

/-- Every mention of a field, in order. -/
def mentions : Formula → List (String × Pos)
  | field name p => [(name, p)]
  | binary _ left right _ => left.mentions ++ right.mentions
  | _ => []

/-- The first mention of each field, in order. -/
def refs (e : Formula) : List (String × Pos) :=
  e.mentions.foldl (fun seen m => if seen.any (·.1 == m.1) then seen else seen ++ [m]) []

end Formula

end Scaffold.Source
