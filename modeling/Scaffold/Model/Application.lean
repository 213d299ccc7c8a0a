import Scaffold.Model.Config
import Scaffold.Model.Expr

/-! # Applications

The model that everything is generated from. -/
namespace Scaffold.Model

/-- The default of a field. -/
inductive Default
  | literal (value : Json)
  | function (name : String)
  deriving Repr

/-- A computed field: the text of its formula, the formula, and the function that computes it. -/
structure Virtual where
  source : String
  expr : Expr
  resultType : TypeKind
  resolver : String
  dependsOn : List String
  deriving DecidableEq, Repr

inductive Cardinality
  | oneToOne | oneToMany | manyToOne | manyToMany
  deriving DecidableEq, Repr

namespace Cardinality

def name : Cardinality → String
  | oneToOne => "one-to-one"
  | oneToMany => "one-to-many"
  | manyToOne => "many-to-one"
  | manyToMany => "many-to-many"

/-- The same relation seen from the other side. -/
def dual : Cardinality → Cardinality
  | oneToMany => manyToOne
  | manyToOne => oneToMany
  | c => c

end Cardinality

/-- A relation as seen from the field that holds it. -/
structure RelationRef where
  target : String
  /-- Place of the target among the entities. -/
  targetIndex : Nat
  name : String
  /-- Whether the source gives the name. -/
  named : Bool
  cardinality : Cardinality
  /-- The field of the target that leads back, or the empty text. -/
  inverse : String
  onDelete : OnDelete
  deriving DecidableEq, Repr

structure Field where
  name : String
  type : FieldType
  primaryKey : Bool
  unique : Bool
  optional : Bool
  default : Option Default
  virtual : Option Virtual
  relation : Option RelationRef
  deriving Repr

structure Entity where
  name : String
  fields : List Field
  /-- The name of the key field, or the empty text. -/
  primaryKey : String
  deriving Repr

namespace Entity

def field? (e : Entity) (name : String) : Option Field := e.fields.find? (·.name == name)

/-- The fields kept in the entity's own table: not computed, and no lists. -/
def storedFields (e : Entity) : List Field :=
  e.fields.filter fun f => f.virtual.isNone && !f.type.list

/-- The type of a field, or none. -/
def fieldKind (e : Entity) (name : String) : TypeKind :=
  ((e.field? name).map (·.type.kind)).getD .none

end Entity

structure Enum where
  name : String
  values : List String
  deriving DecidableEq, Repr

/-- One record for each relation. The reference is kept on the side `many`. -/
structure Relation where
  name : String
  kind : Cardinality
  one : String
  many : String
  oneField : String
  manyField : String
  selfRef : Bool
  deriving DecidableEq, Repr

structure Page where
  name : String
  kind : PageKind
  route : String
  entity : String
  title : String
  /-- Without permissions a page is open to all. -/
  permissions : List String
  columns : List String
  fields : List String
  component : String
  deriving DecidableEq, Repr

/-- Whether a page is open to all. -/
def Page.isPublic (p : Page) : Bool := p.permissions.isEmpty

/-- What a view field shows. -/
inductive ViewValue
  | ref (field : String)
  | formula (source : String) (expr : Expr)
  deriving DecidableEq, Repr

structure ViewField where
  name : String
  value : ViewValue
  resultType : TypeKind
  resolver : String
  deriving DecidableEq, Repr

structure View where
  name : String
  source : String
  fields : List ViewField
  deriving DecidableEq, Repr

/-- What a workflow step is given. -/
inductive InputValue
  | literal (value : Json)
  /-- A path into the event that started the workflow. -/
  | trigger (path : List String)
  | env (name : String)
  deriving Repr

structure Input where
  key : String
  value : InputValue
  deriving Repr

structure WorkflowStep where
  action : String
  inputs : List Input
  deriving Repr

structure Workflow where
  name : String
  event : String
  steps : List WorkflowStep
  deriving Repr

structure Application where
  name : String
  entities : List Entity
  enums : List Enum
  pages : List Page
  views : List View
  workflows : List Workflow
  relations : List Relation
  config : Config
  deriving Repr

namespace Application

def entity? (a : Application) (name : String) : Option Entity :=
  a.entities.find? (·.name == name)

def enum? (a : Application) (name : String) : Option Enum :=
  a.enums.find? (·.name == name)

end Application

end Scaffold.Model
