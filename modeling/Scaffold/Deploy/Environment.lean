import Scaffold.Generator.Options
import Scaffold.Output.Tree
import Scaffold.Text.Words

/-! # Environment variables

Every variable that an application refers to, and the file that lists them. -/
namespace Scaffold.Deploy

open Scaffold.Model Scaffold.Generator
open Scaffold.Text (snake)

def databaseVar : String := "DATABASE_URL"

def passwordVar : String := "POSTGRES_PASSWORD"

/-- A reference to a variable. -/
def varRef (name : String) : String := "$\x7b" ++ name ++ "\x7d"

/-- Where the database of an application is reached. -/
def databaseUrl (a : Application) (o : Options) : String :=
  let db := snake a.name
  match o.database with
  | .postgresql =>
    "postgres://" ++ db ++ ":" ++ varRef passwordVar ++ "@db:5432/" ++ db ++ "?sslmode=disable"
  | .sqlite => "file:/data/" ++ db ++ ".db"

/-- The variables that steps of workflows read. -/
def workflowVars (a : Application) : List String :=
  a.workflows.flatMap fun w => w.steps.flatMap fun s => s.inputs.filterMap fun i =>
    match i.value with
    | .env name => some name
    | _ => none

/-- All variables, each once, sorted. -/
def envVars (a : Application) (o : Options) : List String :=
  ((databaseVar :: (if o.database = .postgresql then [passwordVar] else []) ++
    a.config.secrets ++ workflowVars a).mergeSort fun x y => decide (x ≤ y)).eraseDups

def escapeValueChar (c : Char) : List Char :=
  match c with
  | '\n' => ['\\', 'n']
  | '\r' => ['\\', 'r']
  | '\\' | '"' | '!' | '$' | '`' => ['\\', c]
  | c => [c]

def envLine (name value : String) : String :=
  name ++ "=\"" ++ String.ofList (value.toList.flatMap escapeValueChar) ++ "\""

/-- One line for each variable; only that of the database has a value. -/
def envFile (a : Application) (o : Options) : String :=
  let lines := (envVars a o).map fun name =>
    envLine name (if name = databaseVar then databaseUrl a o else "")
  "# " ++ Output.generatedHeader ++ "\n" ++
    "\n".intercalate (lines.mergeSort fun x y => decide (x ≤ y)) ++ "\n"

end Scaffold.Deploy
