import Scaffold.Model.Application

/-! # An application as JSON -/
namespace Scaffold.Model

open Scaffold.Json (textMember flagMember listMember optionMember)

def FieldType.json (t : FieldType) : Json :=
  .object ([("kind", .string t.kind.name)] ++ textMember "ref" t.ref ++ flagMember "list" t.list)

def Default.json : Default → Json
  | literal value => .object [("kind", .string "literal"), ("value", value)]
  | function name => .object [("kind", .string "function"), ("func", .string name)]

def Virtual.json (v : Virtual) : Json :=
  .object [("source", .string v.source), ("expr", v.expr.json),
    ("resultType", .string v.resultType.name), ("resolver", .string v.resolver),
    ("dependsOn", .strings v.dependsOn)]

def RelationRef.json (r : RelationRef) : Json :=
  .object ([("target", .string r.target), ("targetIndex", .ofNat r.targetIndex),
    ("name", .string r.name)] ++ flagMember "named" r.named ++
    [("cardinality", .string r.cardinality.name)] ++ textMember "inverse" r.inverse ++
    [("onDelete", .string r.onDelete.name)])

def Field.json (f : Field) : Json :=
  .object ([("name", .string f.name), ("type", f.type.json)] ++
    flagMember "primaryKey" f.primaryKey ++ flagMember "unique" f.unique ++
    flagMember "optional" f.optional ++ optionMember "default" Default.json f.default ++
    optionMember "virtual" Virtual.json f.virtual ++
    optionMember "relation" RelationRef.json f.relation)

def Entity.json (e : Entity) : Json :=
  .object ([("name", .string e.name), ("fields", .array (e.fields.map Field.json))] ++
    textMember "primaryKey" e.primaryKey)

def Enum.json (e : Enum) : Json :=
  .object [("name", .string e.name), ("values", .strings e.values)]

def Page.json (p : Page) : Json :=
  .object ([("name", .string p.name), ("type", .string p.kind.name), ("route", .string p.route)] ++
    textMember "entity" p.entity ++
    [("title", .string p.title), ("permissions", .strings p.permissions)] ++
    listMember "columns" p.columns ++ listMember "fields" p.fields ++
    textMember "component" p.component)

def ViewField.json (f : ViewField) : Json :=
  .object ([("name", .string f.name)] ++
    (match f.value with
      | .ref field => textMember "ref" field
      | .formula source expr => textMember "source" source ++ [("expr", expr.json)]) ++
    [("resultType", .string f.resultType.name), ("resolver", .string f.resolver)])

def View.json (v : View) : Json :=
  .object [("name", .string v.name), ("source", .string v.source),
    ("fields", .array (v.fields.map ViewField.json))]

def Input.json (i : Input) : Json :=
  .object ([("key", .string i.key)] ++ match i.value with
    | .literal value => [("kind", .string "literal"), ("value", value)]
    | .trigger path => ("kind", .string "trigger") :: listMember "path" path
    | .env name => ("kind", .string "env") :: textMember "env" name)

def WorkflowStep.json (s : WorkflowStep) : Json :=
  .object [("action", .string s.action), ("inputs", .array (s.inputs.map Input.json))]

def Workflow.json (w : Workflow) : Json :=
  .object [("name", .string w.name), ("trigger", .object [("event", .string w.event)]),
    ("steps", .array (w.steps.map WorkflowStep.json))]

def Relation.json (r : Relation) : Json :=
  .object ([("name", .string r.name), ("kind", .string r.kind.name), ("one", .string r.one),
    ("many", .string r.many)] ++ textMember "oneField" r.oneField ++
    textMember "manyField" r.manyField ++ flagMember "selfRef" r.selfRef)

def Application.json (a : Application) : Json :=
  .object [("name", .string a.name), ("entities", .array (a.entities.map Entity.json)),
    ("enums", .array (a.enums.map Enum.json)), ("pages", .array (a.pages.map Page.json)),
    ("views", .array (a.views.map View.json)),
    ("workflows", .array (a.workflows.map Workflow.json)),
    ("relations", .array (a.relations.map Relation.json)), ("config", a.config.json)]

end Scaffold.Model
