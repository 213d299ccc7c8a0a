import Scaffold.Json.Basic
import Scaffold.Model.Type
import Scaffold.Number.Double

/-! # Configuration of an application

The database, and at most one provider each for authentication, mail and monitoring. A secret is a
literal or the name of an environment variable; a literal never leaves the model. -/
namespace Scaffold.Model

structure Secret where
  literal : String
  env : String
  deriving DecidableEq, Repr

namespace Secret

def none : Secret := ⟨"", ""⟩

def ofEnv (name : String) : Secret := ⟨"", name⟩

def ofLiteral (text : String) : Secret := ⟨text, ""⟩

def isNone (s : Secret) : Bool := s.literal = "" && s.env = ""

def text (s : Secret) : String := if s.env ≠ "" then "env(" ++ s.env ++ ")" else s.literal

/-- What may be shown of a secret: the variable, or that there is a literal. -/
def json (s : Secret) : Json :=
  if s.env ≠ "" then .object [("env", .string s.env)]
  else if s.literal ≠ "" then .object [("literal", .string "<redacted>")]
  else .null

end Secret

inductive Auth
  | jwt (user : String) (secret : Secret) (expiresIn : String)
  | clerk (user : String) (publishableKey secretKey : Secret)
  | auth0 (user domain clientId : String) (clientSecret : Secret) (audience : String)
  deriving DecidableEq, Repr

namespace Auth

def provider : Auth → String
  | jwt .. => "jwt"
  | clerk .. => "clerk"
  | auth0 .. => "auth0"

def userEntity : Auth → String
  | jwt user .. | clerk user .. | auth0 user .. => user

def secrets : Auth → List Secret
  | jwt _ secret _ => [secret]
  | clerk _ publishableKey secretKey => [publishableKey, secretKey]
  | auth0 _ _ _ clientSecret _ => [clientSecret]

def members : Auth → List (String × Json)
  | jwt user secret expiresIn =>
    [("userEntity", .string user), ("secret", secret.json)] ++
      Json.textMember "expiresIn" expiresIn
  | clerk user publishableKey secretKey =>
    [("userEntity", .string user), ("publishableKey", publishableKey.json),
      ("secretKey", secretKey.json)]
  | auth0 user domain clientId clientSecret audience =>
    [("userEntity", .string user), ("domain", .string domain), ("clientId", .string clientId),
      ("clientSecret", clientSecret.json)] ++ Json.textMember "audience" audience

end Auth

inductive Email
  | sendgrid (apiKey : Secret) (sender : String)
  | smtp (host : String) (port : Int) (user : String) (password : Secret) (sender : String)
  | resend (apiKey : Secret) (sender : String)
  deriving DecidableEq, Repr

namespace Email

def provider : Email → String
  | sendgrid .. => "sendgrid"
  | smtp .. => "smtp"
  | resend .. => "resend"

def secrets : Email → List Secret
  | sendgrid apiKey _ | resend apiKey _ => [apiKey]
  | smtp _ _ _ password _ => [password]

def members : Email → List (String × Json)
  | sendgrid apiKey sender | resend apiKey sender =>
    ("apiKey", apiKey.json) :: Json.textMember "from" sender
  | smtp host port user password sender =>
    [("host", .string host)] ++
      (if port = 0 then [] else [("port", .ofInt (Number.intThroughDouble port))]) ++
      Json.textMember "user" user ++ [("password", password.json)] ++
      Json.textMember "from" sender

end Email

inductive Monitoring
  | sentry (dsn : Secret) (environment : String)
  | datadog (apiKey : Secret) (site : String)
  deriving DecidableEq, Repr

namespace Monitoring

def provider : Monitoring → String
  | sentry .. => "sentry"
  | datadog .. => "datadog"

def secrets : Monitoring → List Secret
  | sentry dsn _ => [dsn]
  | datadog apiKey _ => [apiKey]

def members : Monitoring → List (String × Json)
  | sentry dsn environment => ("dsn", dsn.json) :: Json.textMember "environment" environment
  | datadog apiKey site => ("apiKey", apiKey.json) :: Json.textMember "site" site

end Monitoring

structure Config where
  database : Database
  auth : Option Auth
  email : Option Email
  monitoring : Option Monitoring
  deriving DecidableEq, Repr

namespace Config

/-- The integrations that are configured, mail first. -/
def configured (c : Config) : List String :=
  (if c.email.isSome then ["email"] else []) ++
    (if c.monitoring.isSome then ["monitoring"] else [])

/-- All secrets: of authentication, mail and monitoring, in this order. -/
def allSecrets (c : Config) : List Secret :=
  (c.auth.map Auth.secrets).getD [] ++ (c.email.map Email.secrets).getD [] ++
    (c.monitoring.map Monitoring.secrets).getD []

/-- The environment variables that hold secrets, each once. -/
def secrets (c : Config) : List String :=
  ((c.allSecrets.map Secret.env).filter (· ≠ "")).foldl
    (fun seen v => if seen.contains v then seen else seen ++ [v]) []

/-- A provider with its properties, as a table. -/
def tagged (provider : String) (members : List (String × Json)) : Json :=
  .table (members ++ [("provider", .string provider)])

def json (c : Config) : Json :=
  .object ([("database", .string c.database.name)] ++
    Json.optionMember "auth" (fun a => tagged a.provider a.members) c.auth ++
    [("integrations", .object (
      Json.optionMember "email" (fun e => tagged e.provider e.members) c.email ++
      Json.optionMember "monitoring" (fun m => tagged m.provider m.members) c.monitoring))])

end Config

end Scaffold.Model
