import Scaffold.Check.Violation

/-! # Declared names

The first pass over a source decides which blocks count. A block that repeats a name or takes a
reserved one is reported and left out, so later passes see at most one block of each name. -/
namespace Scaffold.Check

open Scaffold.Source Scaffold.Model

/-- The blocks that count, in source order. -/
structure Symbols where
  decls : List Decl
  deriving Repr

namespace Symbols

def entities (s : Symbols) : List EntityDecl :=
  s.decls.filterMap fun | .entity d => some d | _ => none

def enums (s : Symbols) : List EnumDecl :=
  s.decls.filterMap fun | .enum d => some d | _ => none

def pages (s : Symbols) : List BlockDecl :=
  s.decls.filterMap fun | .page d => some d | _ => none

def views (s : Symbols) : List BlockDecl :=
  s.decls.filterMap fun | .view d => some d | _ => none

def workflows (s : Symbols) : List WorkflowDecl :=
  s.decls.filterMap fun | .workflow d => some d | _ => none

def configs (s : Symbols) : List BlockDecl :=
  s.decls.filterMap fun | .config d => some d | _ => none

def entity? (s : Symbols) (name : String) : Option EntityDecl :=
  s.entities.find? (·.name == name)

def enum? (s : Symbols) (name : String) : Option EnumDecl :=
  s.enums.find? (·.name == name)

def page? (s : Symbols) (name : String) : Option BlockDecl :=
  s.pages.find? (·.name == name)

def view? (s : Symbols) (name : String) : Option BlockDecl :=
  s.views.find? (·.name == name)

def workflow? (s : Symbols) (name : String) : Option WorkflowDecl :=
  s.workflows.find? (·.name == name)

def config? (s : Symbols) (name : String) : Option BlockDecl :=
  s.configs.find? (·.name == name)

def root (s : Symbols) : Option BlockDecl := s.config? ""

def auth (s : Symbols) : Option BlockDecl := s.config? "auth"

def integrations (s : Symbols) : Option BlockDecl := s.config? "integrations"

/-- The type a reference stands for. -/
def fieldType? (s : Symbols) (t : TypeRef) : Option FieldType :=
  match TypeKind.scalar? t.name with
  | some k => some ⟨k, "", t.list⟩
  | none =>
    if (s.enum? t.name).isSome then some ⟨.enum, t.name, t.list⟩
    else if (s.entity? t.name).isSome then some ⟨.relation, t.name, t.list⟩
    else none

/-- Why a block does not count beside those before it. -/
def objection (s : Symbols) : Decl → Option Violation
  | .entity d =>
    if isBuiltin d.name then some (.reservedName .entity d.name)
    else match s.entity? d.name with
      | some first => some (.duplicateName .entity d.name first.pos)
      | none => if (s.enum? d.name).isSome then some (.typeNameClash .entity d.name .enum) else none
  | .enum d =>
    if isBuiltin d.name then some (.reservedName .enum d.name)
    else match s.enum? d.name with
      | some first => some (.duplicateName .enum d.name first.pos)
      | none =>
        if (s.entity? d.name).isSome then some (.typeNameClash .enum d.name .entity) else none
  | .page d => (s.page? d.name).map fun first => .duplicateName .page d.name first.pos
  | .view d => (s.view? d.name).map fun first => .duplicateName .view d.name first.pos
  | .workflow d => (s.workflow? d.name).map fun first => .duplicateName .workflow d.name first.pos
  | .config d =>
    if d.name = "" || d.name = "auth" || d.name = "integrations" then
      (s.config? d.name).map fun first => .duplicateConfig d.name first.pos
    else some (.unknownConfigBlock d.name)

end Symbols

def blockOf : DeclKind → Block
  | .entity => .entity
  | .enum => .enum
  | .page => .page
  | .view => .view
  | .workflow => .workflow
  | .config => .config

/-- The site of a block's own violations. -/
def siteOf (d : Decl) : Site := ⟨d.heading.file, blockOf d.kind, d.name⟩

/-- The blocks that count, and a diagnostic for each of the others. -/
def accept : Symbols → List Decl → Symbols × List Diagnostic
  | s, [] => (s, [])
  | s, d :: ds =>
    match s.objection d with
    | none => accept ⟨s.decls ++ [d]⟩ ds
    | some v =>
      let (s, rest) := accept s ds
      (s, ⟨siteOf d, d.pos, v⟩ :: rest)

/-- A view and an entity of one name would give two types of one name. -/
def viewClashes (s : Symbols) : List Diagnostic :=
  (s.views.filter fun v => (s.entity? v.name).isSome).map fun v =>
    ⟨⟨v.file, .view, v.name⟩, v.pos, .typeNameClash .view v.name .entity⟩

def collect (f : File) : Symbols × List Diagnostic :=
  let (s, ds) := accept ⟨[]⟩ f.decls
  (s, ds ++ viewClashes s)

/-! ## Properties -/

/-- A single name, bare or as a string. -/
def nameOf? : Value → Option String
  | .ident [name] _ => some name
  | .string text _ => some text
  | _ => none

/-- The name, or the empty text. -/
def nameOf (v : Value) : String := (nameOf? v).getD ""

/-- The properties that count, each key once, and a diagnostic for each of the others. Without a
list of allowed keys any key is allowed. -/
def acceptProps (site : Site) (allowed : Option (List String)) :
    List Property → List Property → List Property × List Diagnostic
  | seen, [] => (seen, [])
  | seen, p :: ps =>
    if seen.any (·.key == p.key) then
      let (out, rest) := acceptProps site allowed seen ps
      (out, ⟨site, p.pos, .repeatedProperty site.block site.name p.key⟩ :: rest)
    else match allowed with
      | some keys =>
        if keys.contains p.key then acceptProps site allowed (seen ++ [p]) ps
        else
          let (out, rest) := acceptProps site allowed seen ps
          (out, ⟨site, p.pos, .unknownProperty site.block site.name p.key keys⟩ :: rest)
      | none => acceptProps site allowed (seen ++ [p]) ps

def checkProps (site : Site) (props : List Property) (allowed : List String) :
    List Property × List Diagnostic :=
  acceptProps site (some allowed) [] props

/-- Like `checkProps` with any key allowed. -/
def checkKeys (site : Site) (props : List Property) : List Property × List Diagnostic :=
  acceptProps site none [] props

/-! ## Fields -/

def findField? (e : EntityDecl) (name : String) : Option FieldDecl :=
  e.fields.find? (·.name == name)

def hasPrimaryKey (e : EntityDecl) : Bool := e.fields.any (·.primaryKey)

/-- The first attribute of a name. -/
def attribute? (f : FieldDecl) (name : String) : Option Attribute :=
  f.attributes.find? (·.name == name)

/-- The name that a relation is given, if any. -/
def relationLabel (f : FieldDecl) : String :=
  match (attribute? f "relation").bind (·.arg "name") with
  | some ⟨_, _, .string text _⟩ => text
  | _ => ""

/-- The text of a computed field's formula and where it stands. -/
def formulaSource? (f : FieldDecl) : Option (String × Pos) :=
  match (attribute? f "virtual").bind (·.arg "from") with
  | some ⟨_, _, .string text p⟩ => some (text, p)
  | _ => none

def isComputed (f : FieldDecl) : Bool := (formulaSource? f).isSome

/-- The policy that a relation names, if any. -/
def onDeleteLabel (f : FieldDecl) : String :=
  match (attribute? f "relation").bind (·.arg "onDelete") with
  | some p => nameOf p.value
  | none => ""

end Scaffold.Check
