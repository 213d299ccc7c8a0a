import Scaffold.Cli.Stop
import Scaffold.Code.Columns
import Scaffold.Generator.Builtin
import Scaffold.Model.Encode
import Scaffold.Model.Lint

/-! # Running a command

A command reads its settings, compiles the source they name and does its work on the disk. -/
namespace Scaffold.Cli

open Scaffold.Model
open Scaffold.Settings (Environment FlagValues)

/-- What came of a command: its output, the disk, and why it stopped if it did. -/
structure Outcome where
  output : String
  disk : Disk
  stop : Option Stop

namespace Outcome

def stopped (disk : Disk) (s : Stop) : Outcome := ⟨s.output, disk, some s⟩

def finished (disk : Disk) (output : String) : Outcome := ⟨output, disk, none⟩

/-- Put a text before the output. -/
def after (text : String) (o : Outcome) : Outcome := { o with output := text ++ o.output }

def code (o : Outcome) : Nat := (o.stop.map Stop.code).getD 0

def message (o : Outcome) : String := (o.stop.map Stop.message).getD ""

end Outcome

/-! ## Settings and source -/

/-- The values of a command's flags. One other argument takes the place of the source. -/
def valuesOf (c : Command) (parsed : Except Settings.SettingsError Settings.Parsed) :
    Except Stop FlagValues :=
  match parsed with
  | .error (.flags .help defaults) => .error (.commandHelp c defaults)
  | .error (.flags e defaults) => .error (.flags c e defaults)
  | .error e => .error (.settings e)
  | .ok ⟨values, []⟩ => .ok values
  | .ok ⟨values, [source]⟩ =>
    .ok { values with settings := { values.settings with source := source } }
  | .ok ⟨_, rest⟩ => .error (.manySources rest)

/-- The name of an application that has none of its own, after its source. -/
def nameFor (source : String) : String :=
  let stem := Disk.stem (Disk.base (Disk.clean source))
  if stem = "" || stem = "." || stem = "/" then Build.defaultName else stem

/-- The model that the settings name. -/
def compileSource (disk : Disk) (s : Settings) : Except Stop Application := do
  let roles ← (Roles.loadRoles disk s.rolesDir).mapError .roles
  let file ← (Source.load disk s.source).mapError .load
  match compileFile file ⟨roles, nameFor s.source⟩ with
  | .ok app => .ok app
  | .error (.semantic ds) => .error (.semantic ds)
  | .error (.source e) => .error (.load (.source e))

/-! ## Validation -/

/-- How many blocks of each kind a model has. -/
def countsText (a : Application) : String :=
  s!"app {a.name}: {a.entities.length} entities, {a.enums.length} enums, " ++
    s!"{a.relations.length} relations, {a.pages.length} pages, {a.views.length} views, " ++
    s!"{a.workflows.length} workflows\n"

def summaryText (a : Application) : String :=
  countsText a ++ String.join (a.warnings.map fun w => w.text ++ "\n")

def runValidate (disk : Disk) (v : FlagValues) : Except Stop Outcome := do
  let app ← compileSource disk v.settings
  if v.dump then
    match app.json.lines? with
    | some text => .ok (.finished disk (text ++ "\n"))
    | none => .error .unprintableModel
  else .ok (.finished disk (summaryText app))

/-! ## Migration -/

/-- The script to apply: the one on the disk, which may hold statements added by hand, or a fresh
one. -/
def schemaOf (disk : Disk) (out : String) (app : Application) (db : Database) :
    Except Stop String :=
  match disk.read (Disk.join [out, Generator.server.name, Server.ddlPath]) with
  | .ok script => .ok script
  | .error e =>
    if e.trouble = .missing then (Storage.ddl app db).mapError .schema
    else .error (.schemaUnreadable e)

def appliedText (a : Migrate.Applied) : String :=
  s!"schema applied: {a.applied} statements, {a.skipped} skipped\n"

/-- Bring a database up to the model, by the command of the settings if there is one. -/
def applySchema (disk : Disk) (s : Settings) (app : Application) (db : Database) : Outcome :=
  if s.migrateCommand ≠ [] then
    let done := Migrate.runCommand disk s.out s.migrateCommand s.migrateTimeout
    match done.error with
    | some e => .stopped done.disk (.command e)
    | none => .finished done.disk "migration command finished\n"
  else if s.dbUrl = "" then .stopped disk .noDatabase
  else
    match schemaOf disk s.out app db with
    | .error e => .stopped disk e
    | .ok script =>
      match Migrate.applyWithin s.migrateTimeout disk db s.dbUrl script with
      | (.ok a, disk) => .finished disk (appliedText a)
      | (.error e, disk) => .stopped disk (.apply e)

def databaseOf (requested : Generator.Requested) (app : Application) : Except Stop Database :=
  ((Generator.resolve requested app).map (·.database)).mapError .options

def runMigrate (disk : Disk) (v : FlagValues) : Except Stop Outcome := do
  let requested ← (Generator.parseOptions v.settings.options).mapError .options
  let app ← compileSource disk v.settings
  let db ← databaseOf requested app
  .ok (applySchema disk v.settings app db)

/-! ## Generation -/

def resultText (r : Generator.Result) : String :=
  let name := Code.padded 9 r.generator
  if r.skipped then s!"  skip {name} {r.message}\n"
  else if !r.ok then s!"  FAIL {name} {r.message}\n"
  else s!"  ok   {name} {r.files.length} files, {r.written} written\n"

def reportText (id : String) (r : Generator.Report) : String :=
  "run " ++ id ++ "\n" ++ String.join (r.map resultText)

/-- What follows the generators: the schema is applied if the settings ask for it. -/
def afterReport (disk : Disk) (s : Settings) (requested : Generator.Requested)
    (app : Application) (r : Generator.Report) : Outcome :=
  if !r.ok then .stopped disk (.generatorsFailed r.failed.length)
  else if !s.migrate then .finished disk ""
  else match databaseOf requested app with
    | .error e => .stopped disk e
    | .ok db => applySchema disk s app db

/-- Run the generators; `id` is the name of the run. -/
def runGenerate (id : String) (disk : Disk) (v : FlagValues) : Except Stop Outcome := do
  let s := v.settings
  let requested ← (Generator.parseOptions s.options).mapError .options
  let app ← compileSource disk s
  let (report, disk) ← (Generator.builtin.run disk app s.out s.generators requested false).mapError
    .start
  .ok ((afterReport disk s requested app report).after (reportText id report))

/-! ## Any command -/

/-- Serving needs a network; without one it stops before the first request. -/
def runServe (disk : Disk) (v : FlagValues) : Except Stop Outcome := do
  let _ ← compileSource disk v.settings
  .error (.cannotListen v.settings.addr)

def runCommand (id : String) (disk : Disk) (c : Command) (v : FlagValues) : Except Stop Outcome :=
  match c with
  | .validate => runValidate disk v
  | .generate => runGenerate id disk v
  | .migrate => runMigrate disk v
  | .serve => runServe disk v

def orStopped (disk : Disk) : Except Stop Outcome → Outcome
  | .ok o => o
  | .error s => .stopped disk s

/-- Run the program with its arguments. The environment comes back with what an environment file
added to it. -/
def run (id : String) (disk : Disk) (env : Environment) (args : List String) :
    Outcome × Environment :=
  match args with
  | [] => (.stopped disk .noCommand, env)
  | name :: rest =>
    if name = "-h" || name = "--help" || name = "help" then (.stopped disk .help, env)
    else match Command.ofName? name with
      | none => (.stopped disk (.unknownCommand name), env)
      | some c =>
        let (env, parsed) := Settings.parse disk env c.flags rest
        (orStopped disk (valuesOf c parsed >>= runCommand id disk c), env)

end Scaffold.Cli
