import Scaffold.Build.Application
import Scaffold.Code.Columns
import Scaffold.Generator.Run
import Scaffold.Migrate.Apply
import Scaffold.Migrate.Command
import Scaffold.Roles.Catalog
import Scaffold.Settings.Load
import Scaffold.Source.Load
import Scaffold.Storage.Ddl

/-! # Commands and how they stop

Help ends with code 0, a fault of the model or of a run with code 1, a wrong use with code 2. -/
namespace Scaffold.Cli

open Scaffold.Check (Diagnostic)
open Scaffold.Settings (Flag FlagError FlagValues SettingsError)
open Scaffold.Text (quoted)

inductive Command
  | validate
  | generate
  | migrate
  | serve
  deriving DecidableEq, Repr

namespace Command

def all : List Command := [validate, generate, migrate, serve]

def name : Command → String
  | validate => "validate"
  | generate => "generate"
  | migrate => "migrate"
  | serve => "serve"

def ofName? (s : String) : Option Command := all.find? (·.name == s)

def summary : Command → String
  | validate => "compile the DSL and report every error (--dump prints the IR as JSON)"
  | generate => "compile and run the generators, optionally migrate"
  | migrate => "apply the generated database schema"
  | serve => "expose the compiled model over HTTP"

def flags : Command → List Flag
  | validate => Flag.withDump
  | _ => Flag.common

/-- The flags of a command as a text. -/
def usage (c : Command) (defaults : FlagValues) : String :=
  Settings.usage ("stalmer " ++ c.name) c.flags defaults

end Command

/-- All commands as a text. -/
def usage : String :=
  "stalmer - application DSL compiler and generator.\n\nUsage:\n  stalmer <command> [options]\n\n" ++
    "Commands:\n" ++
    String.join (Command.all.map fun c => "  " ++ Code.padded 11 c.name ++ c.summary ++ "\n") ++
    "\nRun \"stalmer <command> -h\" for the options of a command.\n"

/-- Why a run of the program ends before its work is done. -/
inductive Stop
  | noCommand
  | help
  | unknownCommand (name : String)
  | commandHelp (command : Command) (defaults : FlagValues)
  | flags (command : Command) (e : FlagError) (defaults : FlagValues)
  | settings (e : SettingsError)
  | manySources (paths : List String)
  | options (e : Generator.OptionError)
  | roles (e : Roles.CatalogError)
  | load (e : Source.LoadError)
  | semantic (ds : List Diagnostic)
  | unprintableModel
  | start (e : Generator.StartError)
  | generatorsFailed (count : Nat)
  | command (e : Migrate.CommandError)
  | noDatabase
  | schemaUnreadable (e : Disk.Failure)
  | schema (e : Storage.PlanError)
  | apply (e : Migrate.ApplyError)
  | cannotListen (addr : String)
  deriving Repr

namespace Stop

/-- The code that the program ends with. -/
def code : Stop → Nat
  | help | commandHelp .. => 0
  | noCommand | unknownCommand _ | flags .. | settings _ | manySources _ | options _ | roles _
  | start _ | noDatabase => 2
  | load (.unreadable e) => if e.trouble = .missing then 2 else 1
  | load _ | semantic _ | unprintableModel | generatorsFailed _ | command _ | schemaUnreadable _
  | schema _ | apply _ | cannotListen _ => 1

/-- What the program says of it at the end; nothing if that is empty. -/
def message : Stop → String
  | noCommand | help | commandHelp .. => ""
  | unknownCommand name =>
    "unknown command " ++ quoted name ++ " (want " ++
      "|".intercalate (Command.all.map Command.name) ++ ")"
  | flags _ e _ => e.message
  | settings e => e.message
  | manySources paths =>
    "expected at most one source path, got [" ++ " ".intercalate paths ++ "]"
  | options e => e.message
  | roles e => "roles: " ++ e.message
  | load (.unreadable e) => if e.trouble = .missing then "source: " ++ e.message else e.message
  | load (.source _) => "syntax error"
  | load e => e.message
  | semantic ds => "validation failed: " ++ toString ds.length ++ " error(s)"
  | unprintableModel => "the model cannot be printed"
  | start e => e.message
  | generatorsFailed count => toString count ++ " generator(s) failed"
  | command e => e.message
  | noDatabase =>
    "migrate: dbUrl is required (--db-url or " ++ Settings.environmentPrefix ++ "DB_URL)"
  | schemaUnreadable e => e.message
  | schema e => e.message
  | apply e => e.message
  | cannotListen addr => "cannot listen on " ++ addr

/-- What it adds to the output. -/
def output : Stop → String
  | noCommand | help => usage
  | commandHelp c defaults => c.usage defaults
  | flags c e defaults => e.message ++ "\n" ++ c.usage defaults
  | load (.source e) => e.message ++ "\n"
  | semantic ds => String.join (ds.map fun d => d.message ++ "\n")
  | _ => ""

end Stop

end Scaffold.Cli
