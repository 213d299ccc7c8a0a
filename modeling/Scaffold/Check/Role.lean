import Scaffold.Check.Symbols

/-! # Roles

A page may name the reserved roles, the roles given from outside, the values of the role enum, and
the values of the enum behind the `role` field of the entity that signs in. -/
namespace Scaffold.Check

open Scaffold.Source Scaffold.Model

def enumValues (s : Symbols) (name : String) : List String :=
  ((s.enum? name).map fun e => e.values.map (·.name)).getD []

/-- The entity that signs in. -/
def userEntity? (s : Symbols) : Option EntityDecl := do
  let auth ← s.auth
  let p ← lookup auth.props "userEntity"
  s.entity? (nameOf p.value)

def userRoles (s : Symbols) : List String :=
  match userEntity? s with
  | none => []
  | some e => (e.fields.filter fun f => f.name == "role" && !f.type.list).flatMap fun f =>
      enumValues s f.type.name

/-- The members of a list in order, each once. -/
def sortedSet (xs : List String) : List String :=
  (xs.mergeSort fun a b => a ≤ b).eraseReps

/-- All roles that a page may name, in order. -/
def roles (s : Symbols) (extra : List String) : List String :=
  sortedSet (reservedRoles ++ extra ++ enumValues s roleEnumName ++ userRoles s)

end Scaffold.Check
