import Scaffold.Model.Application

/-! # Warnings about a valid model -/
namespace Scaffold.Model

/-- What looks wrong in a model that can still be generated from. -/
inductive Warning
  | entityWithoutKey (entity : String)
  | uniqueOptional (entity field : String)
  | listWithoutInverse (entity field target : String)
  | permissionsWithoutAuth (page : String)
  deriving DecidableEq, Repr

namespace Warning

/-- The kind of block that a warning is about. -/
def block : Warning → String
  | entityWithoutKey .. | uniqueOptional .. | listWithoutInverse .. => "entity"
  | permissionsWithoutAuth .. => "page"

/-- The name of that block. -/
def name : Warning → String
  | entityWithoutKey entity => entity
  | uniqueOptional entity _ => entity
  | listWithoutInverse entity _ _ => entity
  | permissionsWithoutAuth page => page

def field? : Warning → Option String
  | uniqueOptional _ field => some field
  | listWithoutInverse _ field _ => some field
  | _ => none

def code : Warning → String
  | entityWithoutKey .. => "entity_without_pk"
  | uniqueOptional .. => "unique_optional"
  | listWithoutInverse .. => "list_without_inverse"
  | permissionsWithoutAuth .. => "permissions_without_auth"

def message : Warning → String
  | entityWithoutKey _ =>
    "entity has no primary key; only list and create endpoints are generated"
  | uniqueOptional _ _ => "optional unique field allows many empty values"
  | listWithoutInverse _ _ target =>
    s!"list of {target} has no inverse field; a hidden foreign key column is generated on {target}"
  | permissionsWithoutAuth _ => "page declares permissions but no auth provider is configured"

def json (w : Warning) : Json :=
  .object ([("block", .string w.block), ("name", .string w.name)] ++
    (match w.field? with
      | some field => [("field", .string field)]
      | none => []) ++
    [("code", .string w.code), ("message", .string w.message)])

/-- The block, and the field in it if the warning is about one. -/
def target (w : Warning) : String :=
  match w.field? with
  | some field => w.name ++ "." ++ field
  | none => w.name

/-- A warning in one line. -/
def text (w : Warning) : String :=
  "warning: " ++ w.block ++ " " ++ w.target ++ ": " ++ w.message ++ " [" ++ w.code ++ "]"

end Warning

def Field.warnings (entity : String) (f : Field) : List Warning :=
  (if f.unique && f.optional then [.uniqueOptional entity f.name] else []) ++
  match f.relation with
  | some r =>
    if f.type.list && r.inverse = "" && r.cardinality = .oneToMany then
      [.listWithoutInverse entity f.name f.type.ref]
    else []
  | none => []

def Entity.warnings (e : Entity) : List Warning :=
  (if e.primaryKey = "" then [.entityWithoutKey e.name] else []) ++
    e.fields.flatMap (Field.warnings e.name)

def Application.warnings (a : Application) : List Warning :=
  a.entities.flatMap Entity.warnings ++
  (if a.config.auth.isNone then
    (a.pages.filter (!·.isPublic)).map fun p => .permissionsWithoutAuth p.name
  else [])

end Scaffold.Model
