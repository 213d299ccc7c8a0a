import Scaffold.Deploy.Environment
import Scaffold.Yaml.Printer

/-! # Services

The services that run an application together: server, client, and what the options ask for. -/
namespace Scaffold.Deploy

open Scaffold.Model Scaffold.Generator
open Scaffold.Text (snake kebab)
open Scaffold.Yaml (Node)

structure Healthcheck where
  test : List String
  interval : String
  retries : Nat
  deriving DecidableEq, Repr

structure Service where
  name : String
  image : String
  build : String
  envFile : List String
  /-- Sorted by name. -/
  environment : List (String × String)
  ports : List String
  volumes : List String
  dependsOn : List String
  healthcheck : Option Healthcheck
  deriving DecidableEq, Repr

namespace Service

def texts (xs : List String) : Node := .seq (xs.map .text)

def textEntry (key value : String) : List (String × Node) :=
  if value = "" then [] else [(key, .text value)]

def listEntry (key : String) (xs : List String) : List (String × Node) :=
  if xs.isEmpty then [] else [(key, texts xs)]

def node (s : Service) : Node :=
  .map (textEntry "image" s.image ++ textEntry "build" s.build ++
    listEntry "env_file" s.envFile ++
    (if s.environment.isEmpty then []
    else [("environment", .map (s.environment.map fun (k, v) => (k, .text v)))]) ++
    listEntry "ports" s.ports ++ listEntry "volumes" s.volumes ++
    listEntry "depends_on" s.dependsOn ++
    match s.healthcheck with
    | none => []
    | some h => [("healthcheck", .map [("test", texts h.test), ("interval", .text h.interval),
        ("retries", .number h.retries)])])

end Service

/-- What monitoring adds: variables of the server, and an agent beside it. -/
def monitoringVars : Option Monitoring → List (String × String)
  | some (.datadog ..) => [("DD_AGENT_HOST", "datadog-agent")]
  | some (.sentry dsn environment) =>
    (if dsn.env = "" then [] else [("SENTRY_DSN", varRef dsn.env)]) ++
      (if environment = "" then [] else [("SENTRY_ENVIRONMENT", environment)])
  | none => []

def agent? : Option Monitoring → Option Service
  | some (.datadog apiKey site) =>
    some ⟨"datadog-agent", "datadog/agent:7", "", [],
      (if apiKey.env = "" then [] else [("DD_API_KEY", varRef apiKey.env)]) ++
        [("DD_APM_ENABLED", "true")] ++ (if site = "" then [] else [("DD_SITE", site)]),
      [], [], [], none⟩
  | _ => none

/-- The monitoring that the options ask for. -/
def activeMonitoring (a : Application) (o : Options) : Option Monitoring :=
  if o.integration "monitoring" then a.config.monitoring else none

def serverService (a : Application) (o : Options) : Service :=
  let m := activeMonitoring a o
  { name := "backend"
    image := ""
    build := "../backend"
    envFile := [".env"]
    environment := (databaseVar, databaseUrl a o) :: monitoringVars m
    ports := ["8080:8080"]
    volumes := if o.database = .sqlite then ["./data:/data"] else []
    dependsOn := (if o.database = .postgresql then ["db"] else []) ++
      (agent? m).toList.map Service.name
    healthcheck := none }

def databaseService (a : Application) : Service :=
  let db := snake a.name
  { name := "db"
    image := "postgres:16-alpine"
    build := ""
    envFile := []
    environment :=
      [("POSTGRES_DB", db), (passwordVar, varRef passwordVar), ("POSTGRES_USER", db)]
    ports := []
    volumes := ["db-data:/var/lib/postgresql/data"]
    dependsOn := []
    healthcheck := some ⟨["CMD-SHELL", "pg_isready -U " ++ db], "5s", 10⟩ }

def clientService : Service :=
  ⟨"frontend", "", "../frontend", [], [], ["3000:3000"], [], ["backend"], none⟩

/-- Services sorted by name. -/
def services (a : Application) (o : Options) : List Service :=
  [serverService a o] ++ (agent? (activeMonitoring a o)).toList ++
    (if o.database = .postgresql then [databaseService a] else []) ++ [clientService]

def composeFile (a : Application) (o : Options) : String :=
  "# " ++ Output.generatedHeader ++ "\n" ++
    Yaml.document ([("name", .text (kebab a.name)),
      ("services", .map ((services a o).map fun s => (s.name, s.node)))] ++
      if o.database = .postgresql then [("volumes", .map [("db-data", .map [])])] else [])

end Scaffold.Deploy
