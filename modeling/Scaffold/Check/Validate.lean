import Scaffold.Check.Config
import Scaffold.Check.Entity
import Scaffold.Check.GeneratedNames
import Scaffold.Check.Page

/-! # Validation

`validate` runs every check and either reports all violations at once or hands on the declared
names with the roles that pages may use. -/
namespace Scaffold.Check

open Scaffold.Source Scaffold.Model

/-- A source without violations. -/
structure Checked where
  symbols : Symbols
  roles : List String
  deriving Repr

/-- All violations of a source, in the order of the checks. -/
def violations (f : File) (extraRoles : List String) : List Diagnostic :=
  let (s, ds) := collect f
  ds ++ s.entities.flatMap (checkEntity s) ++ s.enums.flatMap checkEnum ++ checkConfig s ++
    checkPages s (roles s extraRoles) [] s.pages ++ s.views.flatMap (checkView s) ++
    s.workflows.flatMap checkWorkflow ++ checkGeneratedNames s

def validate (f : File) (extraRoles : List String) : Except (List Diagnostic) Checked :=
  match violations f extraRoles with
  | [] => let s := (collect f).1; .ok ⟨s, roles s extraRoles⟩
  | ds => .error (Diagnostic.sorted ds)

end Scaffold.Check
