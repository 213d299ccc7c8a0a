import Scaffold.Generator.Registry
import Scaffold.Output.Writer

/-! # Runs

A run takes the selected generators in order. Each writes into a directory of its own name. A
generator that fails does not stop the others, except that what depends on it is skipped. -/
namespace Scaffold.Generator

open Scaffold.Model
open Scaffold.Text (quoted)

/-- Why a generator has no tree on the disk. -/
inductive Cause
  | skipped (dependency : String)
  | cancelled
  | failed (message : String)
  | crashed (text : String)
  | unwritable (e : Output.WriteError)
  deriving DecidableEq, Repr

def Cause.message : Cause → String
  | skipped dependency => s!"skipped: dependency {dependency} failed"
  | cancelled => "context canceled"
  | failed message => message
  | crashed text => "panic: " ++ text
  | unwritable e => e.message

/-- What became of one generator. -/
structure Result where
  generator : String
  files : List Output.Written
  cause : Option Cause
  deriving DecidableEq, Repr

namespace Result

def ok (r : Result) : Bool := r.cause.isNone

def skipped (r : Result) : Bool :=
  match r.cause with
  | some (.skipped _) => true
  | _ => false

def message (r : Result) : String :=
  match r.cause with
  | some c => "generator " ++ r.generator ++ ": " ++ c.message
  | none => ""

/-- How many files changed. -/
def written (r : Result) : Nat := (r.files.filter (·.changed)).length

end Result

abbrev Report := List Result

namespace Report

def succeeded (r : Report) : List Result := r.filter (·.ok)

def failed (r : Report) : List Result := r.filter (!·.ok)

def ok (r : Report) : Bool := (failed r).isEmpty

/-- The messages of all failures, one a line. -/
def message (r : Report) : String := "\n".intercalate ((failed r).map Result.message)

end Report

/-- What a run knows on its way. -/
structure Progress where
  /-- Trees of the generators that rendered one, the last first. -/
  rendered : List (String × Output.Tree)
  failed : List String
  disk : Disk

/-- What all generators of a run share. -/
structure Setting where
  app : Application
  root : String
  options : Options
  cancelled : Bool

def Setting.request (s : Setting) (p : Progress) (g : Generator) : Request :=
  ⟨s.app, Disk.join [s.root, g.name], s.options,
    g.dependsOn.map fun d => (d, (p.rendered.lookup d).getD [])⟩

/-- The tree of a generator, or why it has none. -/
def Setting.render (s : Setting) (g : Generator) (r : Request) : Except Cause Output.Tree :=
  if s.cancelled then .error .cancelled
  else match g.generate r with
    | .tree files => .ok files
    | .nothing => .ok []
    | .failed message => .error (.failed message)
    | .crashed text => .error (.crashed text)

def failWith (p : Progress) (g : Generator) (c : Cause) : Result × Progress :=
  (⟨g.name, [], some c⟩, { p with failed := g.name :: p.failed })

/-- Run one generator. -/
def Setting.step (s : Setting) (p : Progress) (g : Generator) : Result × Progress :=
  match g.dependsOn.find? p.failed.contains with
  | some d => failWith p g (.skipped d)
  | none =>
    let request := s.request p g
    match s.render g request with
    | .error c => failWith p g c
    | .ok tree =>
      let out := Output.writeTree p.disk request.outputDir tree
      let p := { p with rendered := (g.name, tree) :: p.rendered, disk := out.disk }
      match out.error with
      | some e => (⟨g.name, out.files, some (.unwritable e)⟩, { p with failed := g.name :: p.failed })
      | none => (⟨g.name, out.files, none⟩, p)

def Setting.runEach (s : Setting) : Progress → List Generator → Report × Disk
  | p, [] => ([], p.disk)
  | p, g :: gs =>
    let (result, p) := s.step p g
    let (rest, disk) := s.runEach p gs
    (result :: rest, disk)

/-- Why a run does not start. -/
inductive StartError
  | unknownGenerator (name : String) (known : List String)
  | options (e : OptionError)
  deriving DecidableEq, Repr

def StartError.message : StartError → String
  | unknownGenerator name known =>
    "unknown generator " ++ quoted name ++ " (known: [" ++ " ".intercalate known ++ "])"
  | options e => e.message

/-- Run the enabled generators and what they depend on. -/
def Registry.run (r : Registry) (disk : Disk) (app : Application) (root : String)
    (enabled : List String) (requested : Requested) (cancelled : Bool) :
    Except StartError (Report × Disk) := do
  let generators ← (r.selected enabled).mapError fun n => .unknownGenerator n r.names
  let options ← (resolve requested app).mapError .options
  .ok (Setting.runEach ⟨app, root, options, cancelled⟩ ⟨[], [], disk⟩ generators)

end Scaffold.Generator
