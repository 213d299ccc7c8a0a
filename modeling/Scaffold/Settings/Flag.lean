import Scaffold.Settings.Basic

/-! # Flags

Flags stand before the other arguments, with one dash or two. A switch needs no value; any other
flag takes the text after `=` or the next argument. -/
namespace Scaffold.Settings

open Scaffold.Number (durationText)
open Scaffold.Text

inductive Flag
  | addr
  | config
  | dbUrl
  | dump
  | generators
  | logFormat
  | logLevel
  | migrate
  | migrateCommand
  | migrateTimeout
  | option
  | out
  | rolesDir
  | source
  deriving DecidableEq, Repr

namespace Flag

def name : Flag → String
  | addr => "addr"
  | config => "config"
  | dbUrl => "db-url"
  | dump => "dump"
  | generators => "generators"
  | logFormat => "log-format"
  | logLevel => "log-level"
  | migrate => "migrate"
  | migrateCommand => "migrate-cmd"
  | migrateTimeout => "migrate-timeout"
  | option => "option"
  | out => "out"
  | rolesDir => "roles-dir"
  | source => "source"

/-- The flags of every command, in the order of their names. -/
def common : List Flag :=
  [addr, config, dbUrl, generators, logFormat, logLevel, migrate, migrateCommand, migrateTimeout,
    option, out, rolesDir, source]

/-- The same with the switch that prints the model. -/
def withDump : List Flag :=
  [addr, config, dbUrl, dump, generators, logFormat, logLevel, migrate, migrateCommand,
    migrateTimeout, option, out, rolesDir, source]

/-- What kind of value a flag has, in the words of the help text. -/
def kind : Flag → String
  | dump | migrate => ""
  | generators | migrateCommand | option => "value"
  | migrateTimeout => "duration"
  | _ => "string"

def isSwitch (f : Flag) : Bool := f.kind = ""

def help : Flag → String
  | addr => "HTTP listen address"
  | config => "Path to stalmer.yaml"
  | dbUrl => "Database URL or sqlite path for migration"
  | dump => "Print the IR as JSON"
  | generators => "Comma-separated generators (empty = all)"
  | logFormat => "text|json"
  | logLevel => "debug|info|warn|error"
  | migrate => "Apply the schema after generation"
  | migrateCommand => "External migration command"
  | migrateTimeout => "Migration timeout"
  | option => "Generator option key=value (repeatable)"
  | out => "Output root for generated trees"
  | rolesDir => "Directory with role catalogs (*.yaml)"
  | source => "DSL file or directory"

end Flag

/-- What flags set: settings, the value of the flag for the file, and the switch for the model. -/
structure FlagValues where
  settings : Settings
  config : String
  dump : Bool
  deriving DecidableEq, Repr

def FlagValues.ofSettings (s : Settings) : FlagValues := ⟨s, defaultPath, false⟩

def boolText (b : Bool) : String := if b then "true" else "false"

/-- Options in the order of their names. -/
def optionsText (options : List (String × String)) : String :=
  ",".intercalate ((options.mergeSort fun a b => decide (a.1 ≤ b.1)).map fun (k, v) => k ++ "=" ++ v)

/-- The value of a flag as a text. -/
def FlagValues.get (v : FlagValues) : Flag → String
  | .addr => v.settings.addr
  | .config => v.config
  | .dbUrl => v.settings.dbUrl
  | .dump => boolText v.dump
  | .generators => ",".intercalate v.settings.generators
  | .logFormat => v.settings.logFormat
  | .logLevel => v.settings.logLevel
  | .migrate => boolText v.settings.migrate
  | .migrateCommand => " ".intercalate v.settings.migrateCommand
  | .migrateTimeout => durationText v.settings.migrateTimeout
  | .option => optionsText v.settings.options
  | .out => v.settings.out
  | .rolesDir => v.settings.rolesDir
  | .source => v.settings.source

/-- Why a value does not fit its flag. -/
inductive FlagTrouble
  | unreadable
  | option (e : OptionSyntaxError)
  deriving DecidableEq, Repr

def FlagTrouble.message : FlagTrouble → String
  | unreadable => "parse error"
  | option e => e.message

/-- Spellings of the two truth values. -/
def switchWords : List (String × Bool) :=
  ["1", "t", "T", "TRUE", "true", "True"].map (·, true) ++
    ["0", "f", "F", "FALSE", "false", "False"].map (·, false)

def FlagValues.set (v : FlagValues) (f : Flag) (text : String) : Except FlagTrouble FlagValues :=
  let switch := fun (g : Bool → FlagValues) =>
    match switchWords.lookup text with
    | some b => .ok (g b)
    | none => .error .unreadable
  let s := v.settings
  match f with
  | .addr => .ok { v with settings.addr := text }
  | .config => .ok { v with config := text }
  | .dbUrl => .ok { v with settings.dbUrl := text }
  | .dump => switch fun b => { v with dump := b }
  | .generators => .ok { v with settings.generators := splitList text }
  | .logFormat => .ok { v with settings.logFormat := text }
  | .logLevel => .ok { v with settings.logLevel := text }
  | .migrate => switch fun b => { v with settings.migrate := b }
  | .migrateCommand => .ok { v with settings.migrateCommand := fields text }
  | .migrateTimeout =>
    match Number.parseDuration text with
    | .ok d => .ok { v with settings.migrateTimeout := d }
    | .error _ => .error .unreadable
  | .option =>
    match setOption s.options text with
    | .ok o => .ok { v with settings.options := o }
    | .error e => .error (.option e)
  | .out => .ok { v with settings.out := text }
  | .rolesDir => .ok { v with settings.rolesDir := text }
  | .source => .ok { v with settings.source := text }

inductive FlagError
  | badSyntax (argument : String)
  | undefined (name : String)
  | help
  | needsArgument (name : String)
  | badSwitch (value name : String) (t : FlagTrouble)
  | badValue (value name : String) (t : FlagTrouble)
  deriving DecidableEq, Repr

def FlagError.message : FlagError → String
  | badSyntax argument => "bad flag syntax: " ++ argument
  | undefined name => "flag provided but not defined: -" ++ name
  | help => "flag: help requested"
  | needsArgument name => "flag needs an argument: -" ++ name
  | badSwitch value name t =>
    "invalid boolean value " ++ quoted value ++ " for -" ++ name ++ ": " ++ t.message
  | badValue value name t =>
    "invalid value " ++ quoted value ++ " for flag -" ++ name ++ ": " ++ t.message

/-- An argument as the reader of flags sees it. -/
inductive Argument
  /-- The first of the other arguments. -/
  | other
  /-- Two dashes, which end the flags. -/
  | stop
  | bad
  | flag (name : String) (value : Option String)
  deriving DecidableEq, Repr

/-- A name and the value after the first `=`, which is not at the very start. -/
def nameAndValue (cs : List Char) : String × Option String :=
  match cs with
  | [] => ("", none)
  | c :: rest =>
    match cut? ['='] rest with
    | some (name, value) => (String.ofList (c :: name), some (String.ofList value))
    | none => (String.ofList cs, none)

def argumentOf (s : String) : Argument :=
  let named := fun cs =>
    match cs with
    | [] => .bad
    | c :: rest => if c = '-' || c = '=' then .bad else
        let (name, value) := nameAndValue (c :: rest)
        .flag name value
  match s.toList with
  | ['-', '-'] => .stop
  | '-' :: '-' :: cs => named cs
  | '-' :: c :: cs => named (c :: cs)
  | _ => .other

def findFlag (known : List Flag) (name : String) : Except FlagError Flag :=
  match known.find? (·.name == name) with
  | some f => .ok f
  | none => .error (if name = "help" || name = "h" then .help else .undefined name)

def setSwitch (v : FlagValues) (f : Flag) (text : String) : Except FlagError FlagValues :=
  (v.set f text).mapError (.badSwitch text f.name)

def setValue (v : FlagValues) (f : Flag) (text : String) : Except FlagError FlagValues :=
  (v.set f text).mapError (.badValue text f.name)

/-- Read the flags at the head of the arguments; the other arguments are given back. -/
def parseFlags (known : List Flag) : FlagValues → List String →
    Except FlagError (FlagValues × List String)
  | v, [] => .ok (v, [])
  | v, a :: rest =>
    match argumentOf a with
    | .other => .ok (v, a :: rest)
    | .stop => .ok (v, rest)
    | .bad => .error (.badSyntax a)
    | .flag name value =>
      match findFlag known name with
      | .error e => .error e
      | .ok f =>
        if f.isSwitch then
          match setSwitch v f (value.getD "true") with
          | .error e => .error e
          | .ok v => parseFlags known v rest
        else match value with
          | some x =>
            match setValue v f x with
            | .error e => .error e
            | .ok v => parseFlags known v rest
          | none =>
            match rest with
            | [] => .error (.needsArgument name)
            | x :: others =>
              match setValue v f x with
              | .error e => .error e
              | .ok v => parseFlags known v others

/-- The settings file that the arguments name, found without reading the flags: the first argument
that looks like the flag counts. -/
def configPath : List String → String
  | [] => ""
  | a :: rest =>
    match a.toList with
    | '-' :: _ =>
      let cs := a.toList.dropWhile (· = '-')
      match cut? ['='] cs, rest with
      | some (name, value), _ =>
        if name = "config".toList then String.ofList value else configPath rest
      | none, next :: _ => if cs = "config".toList then next else configPath rest
      | none, [] => ""
    | _ => configPath rest

/-! ## Help -/

/-- The default of a flag in the help text, unless it is the empty value. -/
def defaultText (f : Flag) (text : String) : String :=
  if text = "" || text = "false" && f.isSwitch || text = "0s" && f.kind = "duration" then ""
  else if f.kind = "string" then " (default " ++ quoted text ++ ")"
  else " (default " ++ text ++ ")"

def flagHelp (v : FlagValues) (f : Flag) : String :=
  "  -" ++ f.name ++ (if f.kind = "" then "" else " " ++ f.kind) ++ "\n    \t" ++ f.help ++
    defaultText f (v.get f) ++ "\n"

/-- The flags of a command with their defaults. -/
def usage (command : String) (known : List Flag) (v : FlagValues) : String :=
  "Usage of " ++ command ++ ":\n" ++ String.join (known.map (flagHelp v))

end Scaffold.Settings
