import Scaffold.Source.Position

/-! # Declarations

The tree of a source file: its blocks in source order, with the position of everything a message
may point at. -/
namespace Scaffold.Source

/-- One `key: value` entry. -/
structure Entry (α : Type) where
  key : String
  pos : Pos
  value : α
  deriving Repr

/-- The value of a property or an argument. -/
inductive Value
  | string (text : String) (pos : Pos)
  | number (raw : String) (pos : Pos)
  | boolean (value : Bool) (pos : Pos)
  /-- A bare name, or names joined by dots. -/
  | ident (path : List String) (pos : Pos)
  | array (elems : List Value) (pos : Pos)
  | object (props : List (Entry Value)) (pos : Pos)
  /-- The value of an environment variable. -/
  | env (var : String) (pos : Pos)
  | call (name : String) (args : List Value) (pos : Pos)
  deriving Repr

abbrev Property := Entry Value

namespace Value

def pos : Value → Pos
  | string _ p | number _ p | boolean _ p | ident _ p | array _ p | object _ p | env _ p
  | call _ _ p => p

/-- What kind of value it is, in the words of a message. -/
def describe : Value → String
  | string .. => "string"
  | number .. => "number"
  | boolean .. => "boolean"
  | ident .. => "identifier"
  | array .. => "array"
  | object .. => "object"
  | env .. => "env reference"
  | call .. => "function call"

end Value

/-- A path written with dots. -/
def dotted (path : List String) : String := ".".intercalate path

/-- The first property of a name. -/
def lookup (props : List Property) (key : String) : Option Property :=
  props.find? (·.key == key)

structure TypeRef where
  name : String
  list : Bool
  pos : Pos
  deriving DecidableEq, Repr

structure Attribute where
  name : String
  pos : Pos
  args : List Property
  deriving Repr

def Attribute.arg (a : Attribute) (key : String) : Option Property := lookup a.args key

/-- What may follow the type of a field. -/
inductive Modifier
  | primaryKey
  | unique
  | optional
  | default (value : Value)
  | attr (a : Attribute)
  deriving Repr

/-- The name by which a repeated modifier is reported. -/
def Modifier.name : Modifier → String
  | primaryKey => "primaryKey"
  | unique => "unique"
  | optional => "optional"
  | default _ => "default"
  | attr a => "@" ++ a.name

structure FieldDecl where
  name : String
  pos : Pos
  type : TypeRef
  modifiers : List Modifier
  deriving Repr

/-- The members of a list that stand after an equal one. -/
def repeats : List String → List String → List String
  | _, [] => []
  | seen, x :: xs => if seen.contains x then x :: repeats seen xs else repeats (x :: seen) xs

namespace FieldDecl

def primaryKey (f : FieldDecl) : Bool := f.modifiers.any fun | .primaryKey => true | _ => false

def unique (f : FieldDecl) : Bool := f.modifiers.any fun | .unique => true | _ => false

def optional (f : FieldDecl) : Bool := f.modifiers.any fun | .optional => true | _ => false

/-- The default given last. -/
def default (f : FieldDecl) : Option Value :=
  (f.modifiers.filterMap fun | .default v => some v | _ => none).getLast?

def attributes (f : FieldDecl) : List Attribute :=
  f.modifiers.filterMap fun | .attr a => some a | _ => none

/-- Modifiers given more than once, one mention for each repetition. -/
def repeated (f : FieldDecl) : List String := repeats [] (f.modifiers.map Modifier.name)

end FieldDecl

structure EnumValue where
  name : String
  pos : Pos
  deriving DecidableEq, Repr

structure StepDecl where
  action : String
  pos : Pos
  inputs : List Property
  deriving Repr

inductive DeclKind
  | entity | enum | page | view | workflow | config
  deriving DecidableEq, Repr

def DeclKind.name : DeclKind → String
  | entity => "entity"
  | enum => "enum"
  | page => "page"
  | view => "view"
  | workflow => "workflow"
  | config => "config"

/-- Where a block stands and what it is called. -/
structure Heading where
  name : String
  pos : Pos
  file : String
  deriving DecidableEq, Repr

structure EntityDecl extends Heading where
  fields : List FieldDecl
  deriving Repr

structure EnumDecl extends Heading where
  values : List EnumValue
  deriving Repr

/-- A page, a view or a configuration block: a heading and properties. -/
structure BlockDecl extends Heading where
  props : List Property
  deriving Repr

structure WorkflowDecl extends Heading where
  props : List Property
  steps : List StepDecl
  deriving Repr

/-- A top-level block. The configuration block of the application itself has the empty name. -/
inductive Decl
  | entity (d : EntityDecl)
  | enum (d : EnumDecl)
  | page (d : BlockDecl)
  | view (d : BlockDecl)
  | workflow (d : WorkflowDecl)
  | config (d : BlockDecl)
  deriving Repr

namespace Decl

def kind : Decl → DeclKind
  | entity _ => .entity
  | enum _ => .enum
  | page _ => .page
  | view _ => .view
  | workflow _ => .workflow
  | config _ => .config

def heading : Decl → Heading
  | entity d => d.toHeading
  | enum d => d.toHeading
  | page d | view d | config d => d.toHeading
  | workflow d => d.toHeading

def name (d : Decl) : String := d.heading.name

def pos (d : Decl) : Pos := d.heading.pos

end Decl

/-- A parsed source: one file, or several joined. -/
structure File where
  path : String
  decls : List Decl
  deriving Repr

/-- Several files read as one, in order; the path lists those that have one. -/
def File.merge (files : List File) : File :=
  ⟨",".intercalate ((files.map File.path).filter (· ≠ "")), files.flatMap File.decls⟩

end Scaffold.Source
