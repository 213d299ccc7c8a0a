import Scaffold.Json.Printer
import Scaffold.Output.Tree
import Scaffold.Output.Region
import Scaffold.Storage.Plan

/-! # Database schema

The statements that create the tables of a storage plan, and the script that holds them. PostgreSQL
has types for enums and adds foreign keys last; SQLite checks enums and states foreign keys with
their columns. -/
namespace Scaffold.Storage

open Scaffold.Model
open Scaffold.Text (snake replaceChar quoted)

/-- An identifier between double quotes. -/
def sqlName (s : String) : String := "\"" ++ replaceChar '"' "\"\"" s ++ "\""

/-- A text between single quotes. -/
def sqlText (s : String) : String := "'" ++ replaceChar '\'' "''" s ++ "'"

def sqlNames (names : List String) : String := ", ".intercalate (names.map sqlName)

def sqlTexts (values : List String) : String := ", ".intercalate (values.map sqlText)

def onDeleteClause : OnDelete → String
  | .cascade => "cascade"
  | .setNull => "set null"
  | .restrict => "restrict"

def Column.autoIncrement (c : Column) : Bool :=
  match c.default with
  | some (.function "autoincrement") => true
  | _ => false

def columnType (db : Database) (c : Column) : String :=
  match db, c.kind with
  | .postgresql, .int =>
    if c.autoIncrement then "bigint generated by default as identity" else "bigint"
  | .postgresql, .boolean => "boolean"
  | .postgresql, .dateTime => "timestamp with time zone"
  | .postgresql, .uuid => "uuid"
  | .postgresql, .json => "jsonb"
  | .postgresql, .enum => sqlName (snake c.enum)
  | .sqlite, .int | .sqlite, .boolean => "integer"
  | _, .decimal => "numeric"
  | _, _ => "text"

def boolLiteral : Database → Bool → String
  | .postgresql, true => "true"
  | .postgresql, false => "false"
  | .sqlite, true => "1"
  | .sqlite, false => "0"

/-- A document as a text; one that has no printed form becomes the empty text. -/
def jsonLiteral (v : Json) : String := sqlText (v.text?.getD "")

def literalClause (db : Database) (kind : TypeKind) (v : Json) : String :=
  if kind = .json then jsonLiteral v
  else match v with
    | .bool b => boolLiteral db b
    | .number raw => raw
    | .string text => sqlText text
    | v => jsonLiteral v

def defaultClause (db : Database) (c : Column) : String :=
  match c.default with
  | none => ""
  | some (.literal v) => " default " ++ literalClause db c.kind v
  | some (.function name) =>
    match db, name with
    | .postgresql, "now" => " default now()"
    | .postgresql, "uuid" => " default gen_random_uuid()"
    | .sqlite, "now" => " default current_timestamp"
    | .sqlite, "uuid" => " default (lower(hex(randomblob(16))))"
    | _, _ => ""

/-- SQLite has no enums: the values are checked instead. -/
def enumCheck (db : Database) (a : Application) (c : Column) : String :=
  match db, a.enum? c.enum with
  | .sqlite, some e =>
    if c.enum = "" then ""
    else " check (" ++ sqlName c.name ++ " in (" ++ sqlTexts e.values ++ "))"
  | _, _ => ""

def referenceClause (k : ForeignKey) : String :=
  "references " ++ sqlName k.refTable ++ " (" ++ sqlName k.refColumn ++ ") on delete " ++
    onDeleteClause k.onDelete

def columnDef (db : Database) (a : Application) (t : Table) (c : Column) : String :=
  if c.primaryKey && db = .sqlite && c.autoIncrement then
    sqlName c.name ++ " integer primary key autoincrement"
  else
    sqlName c.name ++ " " ++ columnType db c ++
    (if c.primaryKey then " primary key" else if c.notNull then " not null" else "") ++
    (if c.autoIncrement then "" else defaultClause db c) ++
    enumCheck db a c ++
    (if db = .sqlite then
      String.join ((t.foreignKeys.filter (·.column == c.name)).map fun k =>
        " " ++ referenceClause k)
    else "")

def createTable (db : Database) (a : Application) (t : Table) : String :=
  let defs := t.columns.map (columnDef db a t) ++
    (if t.primaryKey.isEmpty then [] else ["primary key (" ++ sqlNames t.primaryKey ++ ")"])
  "create table if not exists " ++ sqlName t.name ++ " (\n  " ++ ",\n  ".intercalate defs ++ "\n);"

def indexName (t : Table) (c : Column) : String := t.name ++ "_" ++ c.name ++ "_uq"

def createIndex (t : Table) (c : Column) : String :=
  "create unique index if not exists " ++ sqlName (indexName t c) ++ " on " ++ sqlName t.name ++
    " (" ++ sqlName c.name ++ ");"

def addConstraint (t : Table) (k : ForeignKey) : String :=
  "alter table " ++ sqlName t.name ++ " add constraint " ++
    sqlName (t.name ++ "_" ++ k.column ++ "_fk") ++ " foreign key (" ++ sqlName k.column ++ ") " ++
    referenceClause k ++ ";"

def createType (e : Enum) : String :=
  "create type " ++ sqlName (snake e.name) ++ " as enum (" ++ sqlTexts e.values ++ ");"

/-- Statements in groups; a blank line follows each group. -/
def groups (db : Database) (a : Application) (tables : List Table) : List (List String) :=
  let types := if db = .postgresql then a.enums.map createType else []
  let keys := if db = .postgresql then
      tables.flatMap fun t => t.foreignKeys.map (addConstraint t)
    else []
  (if types.isEmpty then [] else [types]) ++
    (tables.map fun t =>
      createTable db a t :: (t.columns.filter (·.unique)).map (createIndex t)) ++
    (if keys.isEmpty then [] else [keys])

/-- Every statement of the schema, in order. -/
def schemaStatements (db : Database) (a : Application) (tables : List Table) : List String :=
  (groups db a tables).flatten

def schemaScript (db : Database) (a : Application) (tables : List Table) : String :=
  "-- " ++ Output.generatedHeader ++ "\n-- application: " ++ a.name ++ ", database: " ++ db.name ++
    "\n\n" ++
    String.join ((groups db a tables).map fun g =>
      String.join (g.map fun statement => statement ++ "\n") ++ "\n") ++
    Output.region "--" "schema" ""

inductive DdlError
  | unsupported (database : String)
  | plan (e : PlanError)
  deriving DecidableEq, Repr

def DdlError.message : DdlError → String
  | unsupported database => "unsupported database " ++ quoted database
  | plan e => e.message

/-- The schema of an application for a database. -/
def ddl (a : Application) (db : Database) : Except PlanError String := do
  let tables ← plan a
  .ok (schemaScript db a tables)

/-- The same, with the database given by its name. -/
def ddlFor (a : Application) (database : String) : Except DdlError String :=
  match Database.ofName? database with
  | none => .error (.unsupported database)
  | some db => (ddl a db).mapError .plan

end Scaffold.Storage
