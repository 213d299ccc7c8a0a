import Scaffold.Settings.Flag

/-! # Loading settings

All layers together: the environment file, the settings file, the environment and the flags. -/
namespace Scaffold.Settings

open Scaffold.Settings.EnvFile (EnvFileError)

inductive SettingsError
  | envFileUnreadable (e : Disk.Failure)
  | envFile (e : EnvFileError)
  | notFound (path : String)
  | malformed (path : String)
  | environment (e : EnvironmentError)
  /-- The flags were not accepted; the help text shows the defaults. -/
  | flags (e : FlagError) (defaults : FlagValues)
  | invalid (complaints : List Complaint)
  deriving DecidableEq, Repr

def SettingsError.message : SettingsError → String
  | envFileUnreadable e => "load .env: " ++ e.message
  | envFile e => "load .env: " ++ e.message
  | notFound path => "config " ++ path ++ ": not found"
  | malformed path => "config " ++ path ++ ": yaml"
  | environment e => e.message
  | flags e _ => e.message
  | invalid cs => "\n".intercalate (cs.map Complaint.message)

/-- Add the environment file, if there is one, to the environment. -/
def loadEnvironment (disk : Disk) (env : Environment) : Except SettingsError Environment :=
  match disk.read ".env" with
  | .error e => if e.trouble = .missing then .ok env else .error (.envFileUnreadable e)
  | .ok text =>
    match EnvFile.read text with
    | .ok vars => .ok (env.extend vars)
    | .error e => .error (.envFile e)

/-- Read the settings file. Only one that the arguments name has to be there. -/
def loadFile (disk : Disk) (env : Environment) (path : String) : Except SettingsError Settings :=
  let actual := if path = "" then (envValue? env "CONFIG").getD defaultPath else path
  match disk.read actual with
  | .ok text =>
    match default.withFile text with
    | some s => .ok s
    | none => .error (.malformed actual)
  | .error _ => if path = "" then .ok default else .error (.notFound path)

/-- All settings but the flags. -/
def load (disk : Disk) (env : Environment) (path : String) : Except SettingsError Settings := do
  let s ← loadFile disk env path
  (s.withEnvironment env).mapError .environment

/-- Settings with the values of all flags and the other arguments. -/
structure Parsed where
  values : FlagValues
  rest : List String
  deriving DecidableEq, Repr

/-- Read settings with an environment that holds the environment file already. -/
def parseWith (disk : Disk) (env : Environment) (known : List Flag) (args : List String) :
    Except SettingsError Parsed := do
  let s ← load disk env (configPath args)
  let defaults := FlagValues.ofSettings s
  let (values, rest) ← (parseFlags known defaults args).mapError (.flags · defaults)
  match values.settings.complaints with
  | [] => .ok ⟨values, rest⟩
  | cs => .error (.invalid cs)

/-- Read settings. What the environment file adds stays also when that fails. -/
def parse (disk : Disk) (env : Environment) (known : List Flag) (args : List String) :
    Environment × Except SettingsError Parsed :=
  match loadEnvironment disk env with
  | .error e => (env, .error e)
  | .ok env => (env, parseWith disk env known args)

end Scaffold.Settings
