import Scaffold.Text.Words

/-! # Names in generated code

Every name that generated code declares is a function of names in the source. -/
namespace Scaffold.Model

open Scaffold.Text (pascal camel kebab downcase)

/-- The route of a page that gives none. -/
def defaultRoute (page : String) : String := "/" ++ kebab page

/-- The function that computes a field of an entity or a view. -/
def resolverName (owner field : String) : String := "resolve" ++ pascal owner ++ pascal field

/-- The type of an entity, an enum or a view. -/
def typeName (name : String) : String := pascal name

def enumConstName (enum value : String) : String := pascal enum ++ pascal (downcase value)

/-- The function that handles a workflow. -/
def handlerName (workflow : String) : String := "handle" ++ pascal workflow

/-- The region of a workflow step. -/
def stepRegion (workflow : String) (step : Int) : String :=
  camel workflow ++ ".step" ++ toString step

/-- Names that generated code declares for itself. -/
def runtimeNames : List String := ["Event", "WorkflowHandler", "Workflows"]

/-- The name of a relation that gives none; it does not depend on the side it is seen from. -/
def relationName (a b : String) : String :=
  if b < a then b ++ "To" ++ a else a ++ "To" ++ b

end Scaffold.Model
