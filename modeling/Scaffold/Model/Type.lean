/-! # Types of fields

The registry of field types, and which of them take part in formulas. An enum is written by its
own name and a relation by the name of its target entity. -/
namespace Scaffold.Model

/-- A type tag. `other` is a name outside the registry; the empty name stands for no type. -/
inductive TypeKind
  | string | text | int | decimal | boolean | dateTime | uuid | json | enum | password | relation
  | other (name : String)
  deriving DecidableEq, Repr

namespace TypeKind

def name : TypeKind → String
  | string => "String"
  | text => "Text"
  | int => "Int"
  | decimal => "Decimal"
  | boolean => "Boolean"
  | dateTime => "DateTime"
  | uuid => "UUID"
  | json => "JSON"
  | enum => "Enum"
  | password => "Password"
  | relation => "Relation"
  | other name => name

/-- No type at all. -/
def none : TypeKind := other ""

/-- Types that are written directly in a source. -/
def scalars : List TypeKind :=
  [string, text, int, decimal, boolean, dateTime, uuid, json, password]

def scalar? (name : String) : Option TypeKind := scalars.find? (·.name == name)

def ofName (name : String) : TypeKind :=
  (enum :: relation :: scalars).find? (·.name == name) |>.getD (other name)

/-- Takes part in arithmetic. -/
def isNumeric : TypeKind → Bool
  | int | decimal => true
  | _ => false

/-- Takes part in concatenation. -/
def isTextual : TypeKind → Bool
  | string | text | uuid | enum | dateTime => true
  | _ => false

/-- Whether a field declared with the first type can hold a value of the second. -/
def assignable (declared got : TypeKind) : Bool :=
  match declared with
  | string | text => got.isTextual
  | decimal => got.isNumeric
  | _ => declared = got

end TypeKind

/-- A name that no declaration may take. -/
def isBuiltin (name : String) : Bool :=
  (TypeKind.scalar? name).isSome || name == TypeKind.enum.name

/-- The type of a field: its tag, the enum or entity it refers to, and whether it is a list. -/
structure FieldType where
  kind : TypeKind
  ref : String
  list : Bool
  deriving DecidableEq, Repr

def FieldType.text (t : FieldType) : String :=
  (if t.ref = "" then t.kind.name else t.ref) ++ (if t.list then "[]" else "")

/-- Functions that may stand in a default. -/
inductive DefaultFunction
  | now | uuid | autoincrement
  deriving DecidableEq, Repr

namespace DefaultFunction

def name : DefaultFunction → String
  | now => "now"
  | uuid => "uuid"
  | autoincrement => "autoincrement"

def ofName? (name : String) : Option DefaultFunction :=
  [now, uuid, autoincrement].find? (·.name == name)

/-- The types a function can give a default for. -/
def fits : DefaultFunction → TypeKind → Bool
  | now, .dateTime => true
  | uuid, .uuid | uuid, .string => true
  | autoincrement, .int => true
  | _, _ => false

end DefaultFunction

/-- What becomes of a record whose related record is deleted. -/
inductive OnDelete
  | cascade | restrict | setNull
  deriving DecidableEq, Repr

namespace OnDelete

def name : OnDelete → String
  | cascade => "cascade"
  | restrict => "restrict"
  | setNull => "setNull"

def all : List OnDelete := [cascade, restrict, setNull]

def ofName? (name : String) : Option OnDelete := all.find? (·.name == name)

end OnDelete

inductive PageKind
  | table | form | details | custom
  deriving DecidableEq, Repr

namespace PageKind

def name : PageKind → String
  | table => "table"
  | form => "form"
  | details => "details"
  | custom => "custom"

def ofName? (name : String) : Option PageKind :=
  [table, form, details, custom].find? (·.name == name)

end PageKind

inductive Database
  | postgresql | sqlite
  deriving DecidableEq, Repr

namespace Database

def name : Database → String
  | postgresql => "postgresql"
  | sqlite => "sqlite"

def ofName? (name : String) : Option Database := [postgresql, sqlite].find? (·.name == name)

end Database

/-- Roles that need no declaration. -/
def reservedRoles : List String := ["ADMIN", "USER", "AUTHENTICATED", "PUBLIC"]

/-- The enum of this name adds its values to the roles. -/
def roleEnumName : String := "Role"

end Scaffold.Model
