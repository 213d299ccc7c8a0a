import Scaffold.Build.Relation

/-! # Entities and enums of the model -/
namespace Scaffold.Build

open Scaffold.Source Scaffold.Check Scaffold.Model

mutual

/-- A literal as a value. Names stand for themselves, and a call for nothing. -/
def literalValue : Value → Json
  | .string text _ => .string text
  | .number raw _ => .number raw
  | .boolean value _ => .bool value
  | .ident path _ => .string (dotted path)
  | .env var _ => .string ("env(" ++ var ++ ")")
  | .array elems _ => .array (literalValues elems)
  | .object props _ => .table (literalMembers props)
  | .call .. => .null

def literalValues : List Value → List Json
  | [] => []
  | v :: vs => literalValue v :: literalValues vs

def literalMembers : List (Entry Value) → List (String × Json)
  | [] => []
  | ⟨key, _, v⟩ :: ps => (key, literalValue v) :: literalMembers ps

end

def buildDefault : Value → Default
  | .call name _ _ => .function name
  | v => .literal (literalValue v)

/-- The declared type of an entity's field. -/
def declaredKind (s : Symbols) (e : EntityDecl) (name : String) : Option TypeKind :=
  (findField? e name).bind fun f => (s.fieldType? f.type).map (·.kind)

/-- The type of a formula, or none. -/
def formulaKind (kindOf : String → Option TypeKind) (f : Formula) : TypeKind :=
  match typeOf kindOf f with
  | .ok k => k
  | .error _ => .none

/-- A formula with the type of each operation. -/
def lower (kindOf : String → Option TypeKind) : Formula → Expr
  | .field name _ => .field name
  | .string text _ => .literal .string text
  | .number raw _ => .literal (numberKind raw) raw
  | .binary op left right p =>
    .binary op (lower kindOf left) (lower kindOf right)
      (formulaKind kindOf (.binary op left right p))

def buildVirtual (s : Symbols) (e : EntityDecl) (f : FieldDecl) : Option Virtual := do
  let (source, _) ← formulaSource? f
  let formula ← (parseFormula (Text.runes source)).toOption
  let kindOf := declaredKind s e
  some ⟨source, lower kindOf formula, formulaKind kindOf formula, resolverName e.name f.name,
    formula.refs.map (·.1)⟩

def buildField (s : Symbols) (e : EntityDecl) (f : FieldDecl) : Field :=
  let type := (s.fieldType? f.type).getD ⟨.none, "", false⟩
  let computed := isComputed f
  { name := f.name
    type := type
    primaryKey := f.primaryKey
    unique := f.unique
    optional := f.optional
    default := if computed then none else f.default.map buildDefault
    virtual := buildVirtual s e f
    relation := if !computed && type.kind = .relation then some (relationRef s e f) else none }

def buildEntity (s : Symbols) (e : EntityDecl) : Entity :=
  { name := e.name
    fields := e.fields.map (buildField s e)
    primaryKey := (((e.fields.filter (·.primaryKey)).getLast?).map (·.name)).getD "" }

def buildEnum (e : EnumDecl) : Enum := ⟨e.name, e.values.map (·.name)⟩

end Scaffold.Build
