import Scaffold.Check.Symbols

/-! # Types of formulas

A sum with a textual operand is a string; everything else is arithmetic, decimal as soon as one
operand is. -/
namespace Scaffold.Check

open Scaffold.Source Scaffold.Model

/-- The type of a number literal. -/
def numberKind (raw : String) : TypeKind := if raw.toList.contains '.' then .decimal else .int

def sumKind (op : Operator) (l r : TypeKind) : Except TypingError TypeKind :=
  if op = .add && (l.isTextual || r.isTextual) then .ok .string
  else if !l.isNumeric || !r.isNumeric then .error (.nonNumeric op l r)
  else if l = .decimal || r = .decimal then .ok .decimal
  else .ok .int

/-- The type of a formula over fields of known types; left operands are checked first. -/
def typeOf (fieldKind : String → Option TypeKind) : Formula → Except TypingError TypeKind
  | .string .. => .ok .string
  | .number raw _ => .ok (numberKind raw)
  | .field name _ =>
    match fieldKind name with
    | none => .error (.unknownField name)
    | some k => if k.isNumeric || k.isTextual then .ok k else .error (.unusableField name k)
  | .binary op left right _ => do
    let l ← typeOf fieldKind left
    let r ← typeOf fieldKind right
    sumKind op l r

/-- The type of an entity's field in a formula. Lists and unknown types are as unusable as
relations. -/
def fieldKind? (s : Symbols) (e : EntityDecl) (name : String) : Option TypeKind :=
  (findField? e name).map fun f =>
    match s.fieldType? f.type with
    | some t => if t.list then .relation else t.kind
    | none => .relation

end Scaffold.Check
