import Scaffold.Model.Application
import Scaffold.Model.Provider
import Scaffold.Text.Quoted
import Scaffold.Text.Search

/-! # Generation options

Options narrow what is generated but cannot contradict the model: a database or an authentication
provider must be the configured one, and an integration must be configured. What is left open is
taken from the model. -/
namespace Scaffold.Generator

open Scaffold.Model
open Scaffold.Text (quoted trim split)

/-- Options as they were given; none where nothing was said. -/
structure Requested where
  database : Option Database
  auth : Option String
  integrations : Option (List String)
  deriving DecidableEq, Repr

/-- Options that agree with a model. -/
structure Options where
  database : Database
  auth : String
  integrations : List String
  deriving DecidableEq, Repr

inductive OptionError
  | unknownOption (key : String)
  | unknownDatabase (name : String)
  | unknownProvider (name : String)
  | unknownIntegration (name : String)
  | repeatedIntegration (name : String)
  | databaseConflict (wanted configured : Database)
  | authConflict (wanted configured : String)
  | notConfigured (integration : String)
  deriving DecidableEq, Repr

def OptionError.message : OptionError → String
  | unknownOption key => s!"unknown option {quoted key} (allowed: db, auth, integrations)"
  | unknownDatabase name => s!"option db: unknown database {quoted name}"
  | unknownProvider name => s!"option auth: unknown provider {quoted name}"
  | unknownIntegration name => s!"option integrations: unknown integration {quoted name}"
  | repeatedIntegration name => s!"option integrations: integration {quoted name} listed twice"
  | databaseConflict wanted configured =>
    s!"option db={wanted.name} conflicts with config db {configured.name}"
  | authConflict wanted configured =>
    s!"option auth={wanted} conflicts with config auth provider {configured}"
  | notConfigured integration =>
    s!"option integrations: integration {quoted integration} is not configured"

/-- The word for no authentication. -/
def noAuth : String := "none"

def parseNames : List String → List String → Except OptionError (List String)
  | seen, [] => .ok seen
  | seen, part :: parts =>
    let name := trim part
    if name ≠ "email" && name ≠ "monitoring" then .error (.unknownIntegration name)
    else if seen.contains name then .error (.repeatedIntegration name)
    else parseNames (seen ++ [name]) parts

/-- A list of integrations in order. -/
def parseIntegrations (value : String) : Except OptionError (List String) :=
  if value = "" || value = noAuth then .ok []
  else do
    let names ← parseNames [] (split ',' value)
    .ok (names.mergeSort fun a b => a ≤ b)

def parseOption (o : Requested) (key value : String) : Except OptionError Requested :=
  if key = "db" then
    match Database.ofName? value with
    | some db => .ok { o with database := some db }
    | none => .error (.unknownDatabase value)
  else if key = "auth" then
    if value = noAuth || (providers .auth).contains value then .ok { o with auth := some value }
    else .error (.unknownProvider value)
  else if key = "integrations" then do
    let names ← parseIntegrations value
    .ok { o with integrations := some names }
  else .error (.unknownOption key)

def parseSorted : Requested → List (String × String) → Except OptionError Requested
  | o, [] => .ok o
  | o, (key, value) :: rest => do
    let o ← parseOption o key (trim value)
    parseSorted o rest

/-- Options by key; of several errors that of the least key is reported. -/
def parseOptions (raw : List (String × String)) : Except OptionError Requested :=
  parseSorted ⟨none, none, none⟩ (raw.mergeSort fun a b => a.1 ≤ b.1)

/-- The provider that a model configures, or the word for none. -/
def configuredAuth (c : Config) : String := (c.auth.map Auth.provider).getD noAuth

def resolve (o : Requested) (a : Application) : Except OptionError Options := do
  let c := a.config
  let database ← match o.database with
    | none => .ok c.database
    | some db => if db = c.database then .ok db else .error (.databaseConflict db c.database)
  let auth ← match o.auth with
    | none => .ok (configuredAuth c)
    | some p => if p = configuredAuth c then .ok p else .error (.authConflict p (configuredAuth c))
  let integrations ← match o.integrations with
    | none => .ok c.configured
    | some names =>
      match names.find? fun name => !c.configured.contains name with
      | some name => .error (.notConfigured name)
      | none => .ok names
  .ok ⟨database, auth, integrations⟩

def Options.integration (o : Options) (name : String) : Bool := o.integrations.contains name

end Scaffold.Generator
