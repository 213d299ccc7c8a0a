import Scaffold.Client.Api
import Scaffold.Client.Page
import Scaffold.Client.Routes
import Scaffold.Output.Tree
import Scaffold.Rest.Decode
import Scaffold.Server.Files

/-! # Files of the client

The client is made from the schema that the server's files hold, not from the model. -/
namespace Scaffold.Client

open Scaffold.Rest
open Scaffold.Text (pascal)

inductive FileError
  | noSchema
  | malformedSchema
  | noGetOperation (page resource : String)
  deriving DecidableEq, Repr

def FileError.message : FileError → String
  | noSchema => "backend: " ++ Server.schemaPath ++ " not found in upstream output"
  | malformedSchema => "decode " ++ Server.schemaPath
  | noGetOperation page resource => s!"page {page}: resource {resource} has no get operation"

def pagePath (p : PageAccess) : String := "src/pages/" ++ p.name ++ ".tsx"

/-- A details page needs an operation that reads one record. -/
def checkPage (s : Schema) (p : PageAccess) : Except FileError Unit :=
  if p.kind = "details" && !hasOperation s p.entity ("get" ++ pascal p.entity) then
    .error (.noGetOperation p.name p.entity)
  else .ok ()

def filesOf (s : Schema) : Except FileError Output.Tree := do
  s.pages.forM (checkPage s)
  .ok (s.pages.foldl (fun t p => t.insert (pagePath p) (pageScript s p))
    [("src/routes.ts", routesScript s), ("src/api/client.ts", apiScript s)])

/-- The files of the client, given the files of the server. -/
def files (server : Output.Tree) : Except FileError Output.Tree :=
  match server.get? Server.schemaPath with
  | none => .error .noSchema
  | some text =>
    match Schema.ofText? text with
    | none => .error .malformedSchema
    | some schema => filesOf schema

end Scaffold.Client
