import Scaffold.Disk.Basic
import Scaffold.Number.Duration
import Scaffold.Settings.EnvFile
import Scaffold.Text.Case
import Scaffold.Yaml.Decode

/-! # Settings

What a run is asked to do. Settings come from defaults, then a YAML file, then the environment,
then flags; each may replace what the ones before it say. -/
namespace Scaffold

open Scaffold.Number (parseDuration DurationError)
open Scaffold.Text

structure Settings where
  source : String
  out : String
  generators : List String
  /-- Options of the generators by name; no name occurs twice. -/
  options : List (String × String)
  rolesDir : String
  logLevel : String
  logFormat : String
  addr : String
  dbUrl : String
  /-- Whether the schema is applied after generation. -/
  migrate : Bool
  migrateCommand : List String
  /-- The time limit of a migration in nanoseconds. -/
  migrateTimeout : Int
  deriving DecidableEq, Repr

namespace Settings

def default : Settings where
  source := "app"
  out := "generated"
  generators := []
  options := []
  rolesDir := ""
  logLevel := "info"
  logFormat := "text"
  addr := ":8080"
  dbUrl := ""
  migrate := false
  migrateCommand := []
  migrateTimeout := 120000000000

def defaultPath : String := "stalmer.yaml"

def environmentPrefix : String := "STALMER_"

/-! ## Lists and options in text -/

/-- Words between commas, without blanks around them. -/
def splitList (s : String) : List String := ((split ',' s).map trim).filter (· ≠ "")

/-- Words between blanks, given by the characters; `current` is the open word, last first. -/
def fieldsFrom : (current : List Char) → List Char → List (List Char)
  | current, [] => if current.isEmpty then [] else [current.reverse]
  | current, c :: cs =>
    if isBlank c then
      if current.isEmpty then fieldsFrom [] cs else current.reverse :: fieldsFrom [] cs
    else fieldsFrom (c :: current) cs

/-- Words between blanks. -/
def fields (s : String) : List String := (fieldsFrom [] s.toList).map String.ofList

structure OptionSyntaxError where
  text : String
  deriving DecidableEq, Repr

def OptionSyntaxError.message (e : OptionSyntaxError) : String :=
  "option " ++ quoted e.text ++ ": want key=value"

/-- Set an entry of a table. -/
def setEntry (table : List (String × String)) (name value : String) : List (String × String) :=
  match table with
  | [] => [(name, value)]
  | (k, v) :: rest => if k = name then (k, value) :: rest else (k, v) :: setEntry rest name value

/-- Set an option that is written as `key=value`. -/
def setOption (options : List (String × String)) (text : String) :
    Except OptionSyntaxError (List (String × String)) :=
  match cut? ['='] text.toList with
  | none => .error ⟨text⟩
  | some (k, v) =>
    let name := trim (String.ofList k)
    if name = "" then .error ⟨text⟩ else .ok (setEntry options name (trim (String.ofList v)))

/-! ## The file -/

open Yaml (Value)

/-- Set the member that a key names; unknown keys are passed over. -/
def setMember (s : Settings) : String × Value → Option Settings
  | ("source", v) => v.text?.map fun x => { s with source := x.getD s.source }
  | ("out", v) => v.text?.map fun x => { s with out := x.getD s.out }
  | ("generators", v) => (v.list? Value.text?).map fun x => { s with generators := x.getD [] }
  | ("options", v) => v.table?.map fun x =>
      { s with options := (x.getD []).foldl (fun t (k, w) => setEntry t k w) [] }
  | ("rolesDir", v) => v.text?.map fun x => { s with rolesDir := x.getD s.rolesDir }
  | ("logLevel", v) => v.text?.map fun x => { s with logLevel := x.getD s.logLevel }
  | ("logFormat", v) => v.text?.map fun x => { s with logFormat := x.getD s.logFormat }
  | ("addr", v) => v.text?.map fun x => { s with addr := x.getD s.addr }
  | ("dbUrl", v) => v.text?.map fun x => { s with dbUrl := x.getD s.dbUrl }
  | ("migrate", v) => v.bool?.map fun x => { s with migrate := x.getD s.migrate }
  | ("migrateCmd", v) => (v.list? Value.text?).map fun x => { s with migrateCommand := x.getD [] }
  | ("migrateTimeout", v) => (v.parsed? fun t => (parseDuration t).toOption).map fun x =>
      { s with migrateTimeout := x.getD s.migrateTimeout }
  | _ => some s

/-- Take over what a file says; `none` if it cannot be read. -/
def withFile (s : Settings) (text : String) : Option Settings := do
  match ← Value.read? text with
  | none => some s
  | some v =>
    match ← v.members? with
    | none => some s
    | some ms => ms.foldlM setMember s

/-! ## The environment -/

/-- The variables that settings are read from. -/
def environmentNames : List String :=
  ["CONFIG", "SOURCE", "OUT", "ROLES_DIR", "LOG_LEVEL", "LOG_FORMAT", "ADDR", "DB_URL", "MIGRATE",
    "GENERATORS", "OPTIONS", "MIGRATE_CMD", "MIGRATE_TIMEOUT"].map (environmentPrefix ++ ·)

/-- A variable without blanks around it; a blank one counts as not set. -/
def envValue? (env : Environment) (name : String) : Option String :=
  match (env.lookup (environmentPrefix ++ name)).map trim with
  | some "" => none
  | x => x

def truthOf (s : String) : Option Bool :=
  match trim (downcase s) with
  | "1" | "true" | "yes" => some true
  | "0" | "false" | "no" => some false
  | _ => none

inductive EnvironmentError
  | options (e : OptionSyntaxError)
  | timeout (e : DurationError)
  deriving DecidableEq, Repr

def EnvironmentError.message : EnvironmentError → String
  | options e => environmentPrefix ++ "OPTIONS: " ++ e.message
  | timeout e => environmentPrefix ++ "MIGRATE_TIMEOUT: " ++ e.message

/-- Take over what the environment says. -/
def withEnvironment (s : Settings) (env : Environment) : Except EnvironmentError Settings := do
  let text := fun (name before : String) => (envValue? env name).getD before
  let s := { s with
    source := text "SOURCE" s.source
    out := text "OUT" s.out
    rolesDir := text "ROLES_DIR" s.rolesDir
    logLevel := text "LOG_LEVEL" s.logLevel
    logFormat := text "LOG_FORMAT" s.logFormat
    addr := text "ADDR" s.addr
    dbUrl := text "DB_URL" s.dbUrl
    migrate := ((env.lookup (environmentPrefix ++ "MIGRATE")).bind truthOf).getD s.migrate
    generators := ((envValue? env "GENERATORS").map splitList).getD s.generators
    migrateCommand := ((envValue? env "MIGRATE_CMD").map fields).getD s.migrateCommand }
  let options ← ((splitList (text "OPTIONS" "")).foldlM setOption s.options).mapError .options
  let timeout ← match envValue? env "MIGRATE_TIMEOUT" with
    | none => .ok s.migrateTimeout
    | some t => (parseDuration t).mapError .timeout
  .ok { s with options := options, migrateTimeout := timeout }

/-! ## Validation -/

inductive Complaint
  | noSource
  | logLevel (name : String)
  | logFormat (name : String)
  | negativeTimeout
  deriving DecidableEq, Repr

def Complaint.message : Complaint → String
  | noSource => "source is required"
  | logLevel name => "logLevel " ++ quoted name ++ " (allowed: debug|info|warn|error)"
  | logFormat name => "logFormat " ++ quoted name ++ " (allowed: text|json)"
  | negativeTimeout => "migrateTimeout must not be negative"

def complaints (s : Settings) : List Complaint :=
  (if trim s.source = "" then [.noSource] else []) ++
    (if ["debug", "info", "warn", "error"].contains (downcase s.logLevel) then []
      else [.logLevel s.logLevel]) ++
    (if ["text", "json"].contains (downcase s.logFormat) then [] else [.logFormat s.logFormat]) ++
    (if s.migrateTimeout < 0 then [.negativeTimeout] else [])

end Settings

end Scaffold
