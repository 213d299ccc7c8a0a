import Scaffold.Json.Printer
import Scaffold.Output.Tree
import Scaffold.Rest.Schema
import Scaffold.Server.Resolvers
import Scaffold.Server.Workflows
import Scaffold.Storage.Ddl

/-! # Files of the server -/
namespace Scaffold.Server

open Scaffold.Model Scaffold.Generator

/-- Where the schema of the interface is kept among the files of the server. -/
def schemaPath : String := "api/schema.json"

/-- Where the schema of the database is kept. -/
def ddlPath : String := "schema.sql"

inductive FileError
  | storage (e : Storage.PlanError)
  | unprintableSchema
  | invalidCode (path : String)
  deriving DecidableEq, Repr

def FileError.message : FileError → String
  | storage e => ddlPath ++ ": " ++ e.message
  | unprintableSchema => schemaPath ++ ": the schema has no printed form"
  | invalidCode path => path ++ ": format generated go"

/-- The text of a listing, or the file that has none. -/
def code (path : String) (l : Code.Listing) : Except FileError (String × String) :=
  match l.text? with
  | some text => .ok (path, text)
  | none => .error (.invalidCode path)

def files (a : Application) (o : Options) : Except FileError Output.Tree := do
  let tables ← (Storage.plan a).mapError .storage
  let schema ← match (Rest.schemaOf a o).json.lines? with
    | some text => .ok (text ++ "\n")
    | none => .error .unprintableSchema
  let records ← code "models.go" (recordListing a tables)
  let resolvers ← code "resolvers.go" (resolverListing a)
  let workflows ← code "workflows.go" (workflowListing a)
  .ok [(ddlPath, Storage.schemaScript o.database a tables), (schemaPath, schema), records,
    resolvers, workflows]

end Scaffold.Server
