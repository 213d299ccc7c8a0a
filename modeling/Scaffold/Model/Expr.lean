import Scaffold.Json.Basic
import Scaffold.Model.Type
import Scaffold.Source.Formula

/-! # Formulas of the model

A formula whose operations carry the type of their result. -/
namespace Scaffold.Model

open Scaffold.Source (Operator)

inductive Expr
  | field (name : String)
  /-- A string, or a number as it was written. -/
  | literal (type : TypeKind) (value : String)
  | binary (op : Operator) (left right : Expr) (type : TypeKind)
  deriving DecidableEq, Repr

namespace Expr

def json : Expr → Json
  | field name => .object [("kind", .string "field"), ("name", .string name)]
  | literal type value =>
    .object [("kind", .string "literal"), ("type", .string type.name), ("value", .string value)]
  | binary op left right type =>
    .object [("kind", .string "binary"), ("op", .string op.symbol), ("left", left.json),
      ("right", right.json), ("type", .string type.name)]

/-- The type of a formula; only its owner knows the type of a field. -/
def type (fieldType : String → TypeKind) : Expr → TypeKind
  | field name => fieldType name
  | literal t _ => t
  | binary _ _ _ t => t

def mentions : Expr → List String
  | field name => [name]
  | binary _ left right _ => left.mentions ++ right.mentions
  | _ => []

/-- The fields of a formula in order of first appearance. -/
def refs (e : Expr) : List String :=
  e.mentions.foldl (fun seen name => if seen.contains name then seen else seen ++ [name]) []

end Expr

end Scaffold.Model
