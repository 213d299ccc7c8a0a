import Scaffold.Build.Application
import Scaffold.Model.Encode
import Scaffold.Model.Lint
import Scaffold.Text.Case
import Scaffold.Text.Search

/-! # Views of a model

What the meta server tells about a model: its entities, enums, pages, warnings, and the whole. -/
namespace Scaffold.Meta

open Scaffold.Check
open Scaffold.Json (textMember listMember optionMember)
open Scaffold.Model
open Scaffold.Text (equalFold trim)

/-! ## Names -/

/-- An entity by its exact name, or else the only one whose name differs in case alone. -/
def findEntity (a : Application) (name : String) : Option Entity :=
  let name := trim name
  if name = "" then none
  else match a.entity? name with
    | some e => some e
    | none =>
      match a.entities.filter fun e => equalFold e.name name with
      | [e] => some e
      | _ => none

/-- An enum by its exact name, or else the first one whose name differs in case alone. -/
def findEnum (a : Application) (name : String) : Option Enum :=
  (a.enum? name).or (a.enums.find? fun e => equalFold e.name name)

/-! ## Entities -/

mutual

/-- A value in words: lists between brackets, tables by key. -/
def valueText : Json → String
  | .null => "<nil>"
  | .bool b => if b then "true" else "false"
  | .number raw => raw
  | .string text => text
  | .array elems => "[" ++ " ".intercalate (valueTexts elems) ++ "]"
  | .object members => "map[" ++ " ".intercalate (memberTexts members) ++ "]"

def valueTexts : List Json → List String
  | [] => []
  | x :: xs => valueText x :: valueTexts xs

def memberTexts : List (String × Json) → List String
  | [] => []
  | (k, x) :: xs => (k ++ ":" ++ valueText x) :: memberTexts xs

end

def defaultText : Default → String
  | .function name => name ++ "()"
  | .literal value => valueText value

/-- What is special about a field, as texts. -/
def fieldOptions (f : Field) : List (String × Json) :=
  optionMember "default" (fun d => .string (defaultText d)) f.default ++
    (if f.optional then [("optional", .string "true")] else []) ++
    (if f.primaryKey then [("primaryKey", .string "true")] else [])

def relationView (r : RelationRef) : Json :=
  .object ([("name", .string r.name), ("cardinality", .string r.cardinality.name)] ++
    textMember "inverse" r.inverse ++ [("onDelete", .string r.onDelete.name)])

/-- The values of a field that is an enum. -/
def enumValues (a : Application) (f : Field) : List String :=
  if f.type.kind = .enum then ((a.enum? f.type.ref).map (·.values)).getD [] else []

def fieldView (a : Application) (f : Field) : Json :=
  let kind := f.type.kind.name
  let options := fieldOptions f
  .object ([("name", .string f.name), ("type", .string (if f.type.list then "array" else kind))] ++
    (if f.type.list then [("elemType", .string kind)] else []) ++
    (if f.type.kind = .enum || f.type.kind = .relation then textMember "ref" f.type.ref else []) ++
    listMember "enum" (enumValues a f) ++
    (if options.isEmpty then [] else [("options", .object options)]) ++
    textMember "virtual" ((f.virtual.map (·.source)).getD "") ++
    optionMember "relation" relationView f.relation)

def entityView (a : Application) (e : Entity) : Json :=
  let unique := (e.fields.filter (·.unique)).map fun f => Json.strings [f.name]
  .object ([("entity", .string e.name)] ++ textMember "primaryKey" e.primaryKey ++
    [("fields", .array (e.fields.map (fieldView a)))] ++
    (if unique.isEmpty then []
      else [("constraints", .object [("unique", .array unique)])]))

def entityItem (e : Entity) : Json :=
  .object ([("entity", .string e.name)] ++ textMember "primaryKey" e.primaryKey ++
    [("fields", .ofNat e.fields.length)])

def entityList (a : Application) : Json :=
  .object [("app", .string a.name), ("entities", .array (a.entities.map entityItem))]

/-! ## Other parts -/

def enumView (e : Enum) : Json := .object [("items", .strings e.values), ("name", .string e.name)]

def pageView (p : Page) : Json :=
  .object ([("name", .string p.name), ("type", .string p.kind.name), ("route", .string p.route),
    ("title", .string p.title)] ++ textMember "entity" p.entity ++
    [("public", .bool p.isPublic), ("permissions", .strings p.permissions)])

def pageList (a : Application) : Json := .array (a.pages.map pageView)

def warningList (a : Application) : Json := .array (a.warnings.map Warning.json)

/-! ## Errors -/

def errorView (text : String) : Json := .object [("error", .string text)]

def detailedError (text details : String) : Json :=
  .object [("details", .string details), ("error", .string text)]

def positionView (p : Source.Pos) : Json :=
  .object [("line", .ofNat p.line), ("column", .ofNat p.column), ("offset", .ofNat p.offset)]

def diagnosticView (d : Diagnostic) : Json :=
  .object ([("code", .string d.violation.code), ("message", .string d.violation.message)] ++
    textMember "file" d.site.file ++
    [("pos", positionView d.pos), ("block", .string d.site.block.name),
      ("name", .string d.site.name)])

end Scaffold.Meta
