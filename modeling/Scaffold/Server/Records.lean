import Scaffold.Code.Columns
import Scaffold.Code.Listing
import Scaffold.Storage.Plan

/-! # Records of the server

The types of stored records, enums and read models. -/
namespace Scaffold.Server

open Scaffold.Model Scaffold.Code
open Scaffold.Text (pascal camel snake quoted endsWith)

/-- The type of a value in generated code. -/
inductive ValueType
  | int | float | bool | time | json | string
  | named (name : String)
  deriving DecidableEq, Repr

namespace ValueType

/-- The type that holds values of a kind; an enum has a type of its own. -/
def of (kind : TypeKind) (enum : String) : ValueType :=
  match kind with
  | .int => int
  | .decimal => float
  | .boolean => bool
  | .dateTime => time
  | .json => json
  | .enum => named (typeName enum)
  | _ => string

def text : ValueType → String
  | int => "int64"
  | float => "float64"
  | bool => "bool"
  | time => "time.Time"
  | json => "json.RawMessage"
  | string => "string"
  | named name => name

def imports : ValueType → List String
  | time => ["time"]
  | json => ["encoding/json"]
  | _ => []

end ValueType

/-- The member of a record for a column; a trailing `Id` is an abbreviation. -/
def memberName (column : String) : String :=
  let name := pascal column
  if endsWith name "Id" then String.ofList (name.toList.take (name.length - 2)) ++ "ID" else name

/-- The member of a record for a field. -/
def fieldMember (field : String) : String := memberName (snake field)

structure Member where
  name : String
  type : ValueType
  tag : String
  deriving DecidableEq, Repr

namespace Member

/-- A member without a name or without a type is written as an embedded type. -/
def isSound (m : Member) : Bool :=
  let type := m.type.text
  (m.name != "" || type != "") && (m.name = "" || isIdentifier m.name) &&
    match m.type with
    | .named name => name = "" || isIdentifier name
    | _ => true

def cells (m : Member) : List String :=
  [m.name, m.type.text].filter (· != "") ++ [m.tag]

end Member

/-- A record type with its comment. -/
structure Record where
  name : String
  doc : String
  members : List Member
  deriving DecidableEq, Repr

namespace Record

/-- A lone member is not aligned. -/
def memberLines (r : Record) : List String :=
  match r.members with
  | [m] => [" ".intercalate m.cells]
  | ms => aligned (ms.map Member.cells)

def part (r : Record) : Part where
  lines := [docComment r.doc, "type " ++ r.name ++ " struct \x7b"] ++
    r.memberLines.map ("\t" ++ ·) ++ ["\x7d"]
  sound := isIdentifier r.name && r.members.all Member.isSound

end Record

/-- An enum type and the names of its values. -/
structure EnumType where
  name : String
  constants : List (String × String)
  deriving DecidableEq, Repr

namespace EnumType

def constantCells (e : EnumType) (c : String × String) : List String :=
  [c.1, e.name, "= " ++ quoted c.2]

/-- A lone constant is not aligned. -/
def constantLines (e : EnumType) : List String :=
  match e.constants with
  | [c] => [" ".intercalate (e.constantCells c)]
  | cs => aligned (cs.map e.constantCells)

def parts (e : EnumType) : List Part :=
  let sound := isIdentifier e.name
  [⟨["type " ++ e.name ++ " string"], sound⟩,
    if e.constants.isEmpty then ⟨["const ()"], sound⟩
    else ⟨["const ("] ++ e.constantLines.map ("\t" ++ ·) ++ [")"], sound⟩]

end EnumType

def enumType (e : Enum) : EnumType :=
  ⟨typeName e.name, e.values.map fun v => (enumConstName e.name v, v)⟩

def columnMember (c : Storage.Column) : Member :=
  ⟨memberName c.name, .of c.kind c.enum,
    "`json:" ++ quoted (camel c.name) ++ " db:" ++ quoted c.name ++ "`"⟩

/-- A computed field is part of the record, but of no table. -/
def virtualMember (f : Field) : Member :=
  ⟨fieldMember f.name, .of f.type.kind f.type.ref, "`json:" ++ quoted f.name ++ " db:\"-\"`"⟩

def entityRecord (e : Entity) (columns : List Storage.Column) : Record :=
  ⟨typeName e.name, typeName e.name ++ " is a stored " ++ e.name ++ " record.",
    columns.map columnMember ++ (e.fields.filter (·.virtual.isSome)).map virtualMember⟩

def viewMember (a : Application) (v : View) (f : ViewField) : Member :=
  let type : ValueType :=
    match f.value with
    | .ref name =>
      match (a.entity? v.source).bind (·.field? name) with
      | some g => .of g.type.kind g.type.ref
      | none => .of f.resultType ""
    | .formula .. => .of f.resultType ""
  ⟨fieldMember f.name, type, "`json:" ++ quoted f.name ++ "`"⟩

def viewRecord (a : Application) (v : View) : Record :=
  ⟨typeName v.name, typeName v.name ++ " is a read model over " ++ v.source ++ ".",
    v.fields.map (viewMember a v)⟩

/-- Records of the entities that have a table, in the order of the tables. -/
def entityRecords (a : Application) (tables : List Storage.Table) : List Record :=
  tables.filterMap fun t => (a.entity? t.entity).map (entityRecord · t.columns)

def records (a : Application) (tables : List Storage.Table) : List Record :=
  entityRecords a tables ++ a.views.map (viewRecord a)

def recordListing (a : Application) (tables : List Storage.Table) : Listing where
  imports := (records a tables).flatMap fun r => r.members.flatMap (·.type.imports)
  parts := (a.enums.map enumType).flatMap EnumType.parts ++ (records a tables).map Record.part

end Scaffold.Server
