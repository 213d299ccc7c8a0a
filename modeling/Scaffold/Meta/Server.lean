import Scaffold.Json.Printer
import Scaffold.Meta.Endpoint
import Scaffold.Meta.View

/-! # The meta server

The server tells about one model. A reload replaces the model if the new one compiles; else the
old one stays. Answers depend on the model alone, except that the health check also tells when it
was loaded. -/
namespace Scaffold.Meta

open Scaffold.Model

/-- What a server holds. -/
structure Server where
  app : Application
  /-- When the model was loaded. -/
  loadedAt : String

/-- Why a reload failed. -/
inductive ReloadError
  | compile (e : CompileError)
  | other (message : String)
  deriving Repr

/-- What a reload would bring; `none` if reloading is not set up. -/
abbrev Reload := Option (Except ReloadError Application)

inductive Body
  | json (value : Json)
  | text (content : String)
  deriving Repr

/-- The text of a body. A value that cannot be printed leaves it empty. -/
def Body.content : Body → String
  | json value => value.text?.getD ""
  | text content => content

structure Response where
  status : Nat
  type : String
  body : Body
  deriving Repr

def jsonType : String := "application/json; charset=utf-8"

def Response.json (status : Nat) (value : Json) : Response := ⟨status, jsonType, .json value⟩

def Response.missing : Response := ⟨404, "text/plain", .text "404 page not found"⟩

/-- A text inside of a page of HTML. -/
def htmlText (s : String) : String :=
  String.join (s.toList.map fun c => match c with
    | '&' => "&amp;"
    | '<' => "&lt;"
    | '>' => "&gt;"
    | '"' => "&#34;"
    | '\'' => "&#39;"
    | c => c.toString)

/-- Send the client to another address. Only a request to read gets a page that says so. -/
def Response.redirect (method address : String) : Response :=
  if method = "GET" then
    ⟨301, "text/html; charset=utf-8",
      .text ("<a href=\"" ++ htmlText address ++ "\">Moved Permanently</a>.\n\n")⟩
  else ⟨307, "", .text ""⟩

def orMissing (what : String) : Option Json → Response
  | some value => .json 200 value
  | none => .json 404 (errorView (what ++ " not found"))

def healthView (s : Server) : Json :=
  .object [("app", .string s.app.name), ("loadedAt", .string s.loadedAt), ("status", .string "ok")]

def reloadFailure : ReloadError → Response
  | .compile (.semantic ds) =>
    .json 400 (.object [("error", .string "validation failed"),
      ("issues", .array (ds.map diagnosticView))])
  | .compile (.source e) => .json 400 (detailedError "syntax error" e.message)
  | .other message => .json 500 (detailedError "reload failed" message)

def reloadSuccess (a : Application) : Response :=
  .json 200 (.object [("app", .string a.name), ("entities", .ofNat a.entities.length),
    ("ok", .bool true), ("pages", .ofNat a.pages.length), ("warnings", warningList a)])

/-- Answer a request that only reads. -/
def Server.answer (s : Server) : Endpoint → Response
  | .health => .json 200 (healthView s)
  | .entities => .json 200 (entityList s.app)
  | .entity name => orMissing "Entity" ((findEntity s.app name).map (entityView s.app))
  | .enum name => orMissing "Enum" ((findEnum s.app name).map enumView)
  | .pages => .json 200 (pageList s.app)
  | .model => .json 200 s.app.json
  | .warnings => .json 200 (warningList s.app)
  | .reload => .missing

/-- Reload the model at a time. -/
def Server.reload (s : Server) (now : String) : Reload → Response × Server
  | none => (.json 501 (errorView "reload is not configured"), s)
  | some (.error e) => (reloadFailure e, s)
  | some (.ok a) => (reloadSuccess a, ⟨a, now⟩)

/-- A request, the time when it arrives, and what a reload would bring then. -/
structure Event where
  request : Request
  now : String
  outcome : Reload

/-- Whether a request would call for a reload. -/
def Request.reloads (r : Request) : Bool := r.route = .endpoint .reload

def Server.handle (s : Server) (e : Event) : Response × Server :=
  match e.request.route with
  | .endpoint .reload => s.reload e.now e.outcome
  | .endpoint x => (s.answer x, s)
  | .redirect path => (.redirect e.request.method (addressOf path ++ e.request.query), s)
  | .missing => (.missing, s)

/-- Handle requests one after another. -/
def Server.run : Server → List Event → List Response × Server
  | s, [] => ([], s)
  | s, e :: es =>
    let (r, s) := s.handle e
    let (rs, s) := s.run es
    (r :: rs, s)

end Scaffold.Meta
