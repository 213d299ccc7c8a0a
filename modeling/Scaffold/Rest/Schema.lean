import Scaffold.Generator.Options
import Scaffold.Model.Name
import Scaffold.Storage.Plan

/-! # REST schema

The resources, views, pages and workflows that a server offers. The schema is written by the
server's side and read by the client's, so both sides speak of the same names. -/
namespace Scaffold.Rest

open Scaffold.Model Scaffold.Generator
open Scaffold.Text (kebab camel pascal)
open Scaffold.Json (textMember flagMember listMember)

structure ResourceField where
  name : String
  type : TypeKind
  ref : String
  list : Bool
  optional : Bool
  unique : Bool
  readOnly : Bool
  writeOnly : Bool
  cardinality : String
  relation : String
  deriving DecidableEq, Repr

structure Operation where
  id : String
  method : String
  path : String
  deriving DecidableEq, Repr

structure Resource where
  name : String
  path : String
  primaryKey : String
  fields : List ResourceField
  operations : List Operation
  deriving DecidableEq, Repr

structure ViewRoute where
  name : String
  path : String
  source : String
  fields : List ResourceField
  deriving DecidableEq, Repr

structure PageAccess where
  name : String
  kind : String
  route : String
  title : String
  entity : String
  resource : String
  permissions : List String
  columns : List String
  fields : List String
  component : String
  deriving DecidableEq, Repr

structure WorkflowRef where
  name : String
  event : String
  handler : String
  deriving DecidableEq, Repr

structure Schema where
  name : String
  database : String
  auth : String
  resources : List Resource
  views : List ViewRoute
  pages : List PageAccess
  workflows : List WorkflowRef
  deriving DecidableEq, Repr

/-! ## From a model -/

def resourcePath (entity : String) : String := "/api/" ++ Storage.plural (kebab entity)

def fieldOf (f : Field) : ResourceField :=
  { name := f.name
    type := f.type.kind
    ref := f.type.ref
    list := f.type.list
    optional := f.optional
    unique := f.unique
    readOnly := f.virtual.isSome || (f.primaryKey && f.default.isSome)
    writeOnly := f.type.kind = .password
    cardinality := (f.relation.map (·.cardinality.name)).getD ""
    relation := (f.relation.map (·.name)).getD "" }

/-- Records are listed and created; with a key, a single one is read, changed and deleted. -/
def operationsOf (e : Entity) : List Operation :=
  let path := resourcePath e.name
  let item := path ++ "/\x7b" ++ camel e.name ++ "Id\x7d"
  let noun := pascal e.name
  [⟨"list" ++ noun, "GET", path⟩, ⟨"create" ++ noun, "POST", path⟩] ++
    (if e.primaryKey = "" then []
    else [⟨"get" ++ noun, "GET", item⟩, ⟨"update" ++ noun, "PUT", item⟩,
      ⟨"delete" ++ noun, "DELETE", item⟩])

def resourceOf (e : Entity) : Resource :=
  ⟨e.name, resourcePath e.name, e.primaryKey, e.fields.map fieldOf, operationsOf e⟩

/-- The field that a view shows as it is. -/
def shownField? (a : Application) (v : View) (f : ViewField) : Option Field :=
  match f.value with
  | .ref name => (a.entity? v.source).bind (·.field? name)
  | .formula .. => none

def viewFieldOf (a : Application) (v : View) (f : ViewField) : ResourceField :=
  let (type, ref, optional) := match shownField? a v f with
    | some g => (g.type.kind, g.type.ref, g.optional)
    | none => (f.resultType, "", false)
  ⟨f.name, type, ref, false, optional, false, true, false, "", ""⟩

def viewOf (a : Application) (v : View) : ViewRoute :=
  ⟨v.name, "/api/views/" ++ kebab v.name, v.source, v.fields.map (viewFieldOf a v)⟩

def pageOf (p : Page) : PageAccess :=
  { name := p.name
    kind := p.kind.name
    route := p.route
    title := p.title
    entity := p.entity
    resource := if p.entity = "" then "" else resourcePath p.entity
    permissions := p.permissions
    columns := p.columns
    fields := p.fields
    component := p.component }

def schemaOf (a : Application) (o : Options) : Schema :=
  { name := a.name
    database := o.database.name
    auth := o.auth
    resources := a.entities.map resourceOf
    views := a.views.map (viewOf a)
    pages := a.pages.map pageOf
    workflows := a.workflows.map fun w => ⟨w.name, w.event, handlerName w.name⟩ }

/-! ## As JSON -/

def ResourceField.json (f : ResourceField) : Json :=
  .object ([("name", .string f.name), ("type", .string f.type.name)] ++ textMember "ref" f.ref ++
    flagMember "list" f.list ++ flagMember "optional" f.optional ++
    flagMember "unique" f.unique ++ flagMember "readOnly" f.readOnly ++
    flagMember "writeOnly" f.writeOnly ++ textMember "cardinality" f.cardinality ++
    textMember "relation" f.relation)

def Operation.json (o : Operation) : Json :=
  .object [("id", .string o.id), ("method", .string o.method), ("path", .string o.path)]

def Resource.json (r : Resource) : Json :=
  .object ([("name", .string r.name), ("path", .string r.path)] ++
    textMember "primaryKey" r.primaryKey ++
    [("fields", .array (r.fields.map ResourceField.json)),
      ("operations", .array (r.operations.map Operation.json))])

def ViewRoute.json (v : ViewRoute) : Json :=
  .object [("name", .string v.name), ("path", .string v.path), ("source", .string v.source),
    ("fields", .array (v.fields.map ResourceField.json))]

def PageAccess.json (p : PageAccess) : Json :=
  .object ([("name", .string p.name), ("type", .string p.kind), ("route", .string p.route),
    ("title", .string p.title)] ++ textMember "entity" p.entity ++
    textMember "resource" p.resource ++ [("permissions", .strings p.permissions)] ++
    listMember "columns" p.columns ++ listMember "fields" p.fields ++
    textMember "component" p.component)

def WorkflowRef.json (w : WorkflowRef) : Json :=
  .object [("name", .string w.name), ("event", .string w.event), ("handler", .string w.handler)]

def Schema.json (s : Schema) : Json :=
  .object [("name", .string s.name), ("database", .string s.database), ("auth", .string s.auth),
    ("resources", .array (s.resources.map Resource.json)),
    ("views", .array (s.views.map ViewRoute.json)),
    ("pages", .array (s.pages.map PageAccess.json)),
    ("workflows", .array (s.workflows.map WorkflowRef.json))]

end Scaffold.Rest
