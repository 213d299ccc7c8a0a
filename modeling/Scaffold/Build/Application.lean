import Scaffold.Build.Block
import Scaffold.Check.Validate

/-! # From source to model

`compile` parses, checks and builds. Its result depends on nothing but the source, the roles given
from outside and the default name. -/
namespace Scaffold

open Scaffold.Source Scaffold.Check Scaffold.Model

namespace Build

/-- The name of an application that is given none. -/
def defaultName : String := "app"

def applicationName (s : Symbols) (fallback : String) : String :=
  let fallback := if fallback = "" then defaultName else fallback
  match s.root.bind (textOf ·.props "name") with
  | some name => if name = "" then fallback else name
  | none => fallback

def build (s : Symbols) (fallbackName : String) : Application :=
  let entities := s.entities.map (buildEntity s)
  { name := applicationName s fallbackName
    entities := entities
    enums := s.enums.map buildEnum
    pages := s.pages.map (buildPage entities)
    views := s.views.map (buildView s)
    workflows := s.workflows.map buildWorkflow
    relations := relations s
    config := buildConfig s }

end Build

/-- Why a source has no model. -/
inductive CompileError
  | source (e : SourceError)
  | semantic (ds : List Diagnostic)
  deriving Repr

def CompileError.message : CompileError → String
  | source e => e.message
  | semantic ds => Diagnostic.report ds

/-- What a compilation is given beside the source. -/
structure CompileOptions where
  roles : List String
  name : String
  deriving DecidableEq, Repr

def compileFile (f : File) (opts : CompileOptions) : Except CompileError Application :=
  match validate f opts.roles with
  | .error ds => .error (.semantic ds)
  | .ok c => .ok (Build.build c.symbols opts.name)

def compile (path : String) (source : List Text.Rune) (opts : CompileOptions) :
    Except CompileError Application :=
  match parseSource path source with
  | .error e => .error (.source e)
  | .ok f => compileFile f opts

end Scaffold
