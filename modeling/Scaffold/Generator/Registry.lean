import Scaffold.Generator.Options
import Scaffold.Output.Tree

/-! # Generators and their registry

A generator renders a tree of files from a model. It may depend on trees of other generators, and
those must be registered before it. -/
namespace Scaffold

namespace Generator

open Scaffold.Model

/-- What a generator is given. -/
structure Request where
  app : Application
  outputDir : String
  options : Options
  /-- The trees of its dependencies. -/
  dependencies : List (String × Output.Tree)

/-- What comes of a generator. -/
inductive Outcome
  | tree (files : Output.Tree)
  /-- Nothing was rendered, and nothing went wrong. -/
  | nothing
  | failed (message : String)
  | crashed (text : String)
  deriving DecidableEq, Repr

end Generator

/-- Something that renders a tree from a model and the trees of its dependencies. -/
structure Generator where
  name : String
  dependsOn : List String
  generate : Generator.Request → Generator.Outcome

namespace Generator

/-- Generators in the order of their registration. -/
structure Registry where
  generators : List Generator

inductive RegisterError
  | alreadyRegistered (name : String)
  | unknownDependency (name dependency : String)
  deriving DecidableEq, Repr

def RegisterError.message : RegisterError → String
  | alreadyRegistered name => s!"generator with name '{name}' already registered"
  | unknownDependency name dependency =>
    s!"generator '{name}' depends on '{dependency}', which is not registered before it"

namespace Registry

def empty : Registry := ⟨[]⟩

def find? (r : Registry) (name : String) : Option Generator :=
  r.generators.find? (·.name == name)

def names (r : Registry) : List String := r.generators.map (·.name)

def register (r : Registry) (g : Generator) : Except RegisterError Registry :=
  if (r.find? g.name).isSome then .error (.alreadyRegistered g.name)
  else match g.dependsOn.find? fun d => (r.find? d).isNone with
    | some d => .error (.unknownDependency g.name d)
    | none => .ok ⟨r.generators ++ [g]⟩

/-- Add the dependencies of wanted generators, the last generator first. Dependencies stand
before their dependents, so one sweep is enough. -/
def close (wanted : List String) (reversed : List Generator) : List String :=
  reversed.foldl (fun wanted g =>
    if wanted.contains g.name then wanted ++ g.dependsOn else wanted) wanted

/-- The generators to run: those enabled, with all they depend on. Without a choice all run. -/
def selected (r : Registry) (enabled : List String) : Except String (List Generator) :=
  if enabled.isEmpty then .ok r.generators
  else match enabled.find? fun n => (r.find? n).isNone with
    | some n => .error n
    | none =>
      let wanted := close enabled r.generators.reverse
      .ok (r.generators.filter fun g => wanted.contains g.name)

end Registry

end Generator

end Scaffold
