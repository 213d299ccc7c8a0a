import Scaffold.Model.Application
import Scaffold.Model.Name
import Scaffold.Text.Search

/-! # Storage plan

Which tables hold the records of an application: one for each entity, then one for each
many-to-many relation. A one-to-many or one-to-one relation is a column on the side that keeps the
reference. -/
namespace Scaffold.Storage

open Scaffold.Model
open Scaffold.Text (snake endsWith)

structure Column where
  name : String
  kind : TypeKind
  /-- The enum of an enum column, or the empty text. -/
  enum : String
  notNull : Bool
  primaryKey : Bool
  unique : Bool
  default : Option Default
  deriving Repr

structure ForeignKey where
  column : String
  refTable : String
  refColumn : String
  onDelete : OnDelete
  deriving DecidableEq, Repr

structure Table where
  name : String
  /-- The entity of a table, or the empty text for the table of a relation. -/
  entity : String
  columns : List Column
  foreignKeys : List ForeignKey
  /-- The columns of a key over several columns. -/
  primaryKey : List String
  deriving Repr

inductive PlanError
  | columnTwice (table column : String)
  | noKey (relation entity : String)
  deriving DecidableEq, Repr

def PlanError.message : PlanError → String
  | columnTwice table column => s!"table {table}: column {column} declared twice"
  | noKey relation entity =>
    s!"relation {relation}: entity {entity} has no primary key to reference"

def isVowel (c : Char) : Bool := "aeiou".toList.contains c

/-- The plural of an English noun, by its ending. -/
def plural (s : String) : String :=
  if ["ss", "x", "z", "ch", "sh"].any (endsWith s) then s ++ "es"
  else if endsWith s "s" then s
  else match s.toList.reverse with
    | 'y' :: c :: rest =>
      if isVowel c then s ++ "s" else String.ofList (c :: rest).reverse ++ "ies"
    | _ => s ++ "s"

def tableName (entity : String) : String := plural (snake entity)

def Table.column? (t : Table) (name : String) : Option Column :=
  t.columns.find? (·.name == name)

def Table.add (t : Table) (c : Column) : Except PlanError Table :=
  if (t.column? c.name).isSome then .error (.columnTwice t.name c.name)
  else .ok { t with columns := t.columns ++ [c] }

def enumOf (t : FieldType) : String := if t.kind = .enum then t.ref else ""

def fieldColumn (f : Field) : Column :=
  { name := snake f.name
    kind := f.type.kind
    enum := enumOf f.type
    notNull := !f.optional || f.primaryKey
    primaryKey := f.primaryKey
    unique := f.unique && !f.primaryKey
    default := f.default }

def addColumns : Table → List Column → Except PlanError Table
  | t, [] => .ok t
  | t, c :: cs => do
    let t ← t.add c
    addColumns t cs

/-- The table of an entity, still without references. -/
def entityTable (e : Entity) : Except PlanError Table :=
  addColumns ⟨tableName e.name, e.name, [], [], []⟩
    ((e.storedFields.filter (·.relation.isNone)).map fieldColumn)

/-- The key that a relation refers to. -/
def keyField (a : Application) (entity relation : String) : Except PlanError Field :=
  match (a.entity? entity).bind fun e => e.field? e.primaryKey with
  | some f => .ok f
  | none => .error (.noKey relation entity)

def policyOf (f : Option Field) : OnDelete :=
  ((f.bind (·.relation)).map (·.onDelete)).getD .restrict

/-- The column of a reference and its foreign key. A list without a field that leads back is kept
as a hidden column of its target. -/
def reference (a : Application) (r : Relation) (key : Field) : Column × ForeignKey :=
  let owner := (a.entity? r.many).bind (·.field? r.manyField)
  let listed := (a.entity? r.one).bind (·.field? r.oneField)
  let hidden := r.manyField = ""
  let name :=
    if hidden then snake r.one ++ "_" ++ snake r.oneField ++ "_id" else snake r.manyField ++ "_id"
  ({ name := name
     kind := key.type.kind
     enum := enumOf key.type
     notNull := !hidden && !(owner.any (·.optional))
     primaryKey := false
     unique := r.kind = .oneToOne
     default := none },
   ⟨name, tableName r.one, snake key.name, policyOf (if hidden then listed else owner)⟩)

/-- Put a reference into the table of an entity. -/
def addReference (entity : String) (c : Column) (k : ForeignKey) :
    List Table → Except PlanError (List Table)
  | [] => .ok []
  | t :: ts =>
    if t.entity = entity then do
      let t ← t.add c
      .ok ({ t with foreignKeys := t.foreignKeys ++ [k] } :: ts)
    else do
      let ts ← addReference entity c k ts
      .ok (t :: ts)

/-- The table of a many-to-many relation. Two fields of one entity lend it their own names. -/
def joinTable (r : Relation) (left right : Field) : Table :=
  let leftName := snake (if r.selfRef then r.oneField else r.one) ++ "_id"
  let rightName := snake (if r.selfRef then r.manyField else r.many) ++ "_id"
  let column name (key : Field) : Column :=
    ⟨name, key.type.kind, enumOf key.type, true, false, false, none⟩
  { name := snake r.name
    entity := ""
    columns := [column leftName left, column rightName right]
    foreignKeys :=
      [⟨leftName, tableName r.one, snake left.name, .cascade⟩,
        ⟨rightName, tableName r.many, snake right.name, .cascade⟩]
    primaryKey := [leftName, rightName] }

/-- Entity tables with their references, and the tables of relations. -/
def planRelations (a : Application) :
    List Table → List Relation → Except PlanError (List Table × List Table)
  | tables, [] => .ok (tables, [])
  | tables, r :: rs =>
    match r.kind with
    | .manyToMany => do
      let left ← keyField a r.one r.name
      let right ← keyField a r.many r.name
      let (tables, joins) ← planRelations a tables rs
      .ok (tables, joinTable r left right :: joins)
    | _ => do
      let key ← keyField a r.one r.name
      let (c, k) := reference a r key
      let tables ← addReference r.many c k tables
      planRelations a tables rs

def plan (a : Application) : Except PlanError (List Table) := do
  let tables ← a.entities.mapM entityTable
  let (tables, joins) ← planRelations a tables a.relations
  .ok (tables ++ joins)

end Scaffold.Storage
