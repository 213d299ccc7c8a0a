import Scaffold.Check.Entity
import Scaffold.Model.Application
import Scaffold.Model.Name

/-! # Relations

Two relation fields on two entities are the two sides of one relation when each leads to the
other's entity and both give the same name, or none. A relation without such a partner stands for
itself. -/
namespace Scaffold.Build

open Scaffold.Source Scaffold.Check Scaffold.Model

/-- Whether a field leads to the entity `target`; computed fields lead nowhere. -/
def leadsTo (s : Symbols) (target : String) (f : FieldDecl) : Bool :=
  !isComputed f && match s.fieldType? f.type with
    | some t => t.kind = .relation && t.ref == target
    | none => false

/-- The field of the target entity that leads back to the owner under the same name. A field is
not its own partner. -/
def inverse? (s : Symbols) (owner : EntityDecl) (f : FieldDecl) : Option FieldDecl := do
  let target ← s.entity? f.type.name
  target.fields.find? fun g =>
    leadsTo s owner.name g && !(target.name == owner.name && g.name == f.name) &&
      relationLabel g == relationLabel f

/-- Cardinality as seen from the owner of `f`. -/
def cardinality (f : FieldDecl) (inverse : Option FieldDecl) : Cardinality :=
  match f.type.list, inverse with
  | false, none => .manyToOne
  | false, some g => if g.type.list then .manyToOne else .oneToOne
  | true, some g => if g.type.list then .manyToMany else .oneToMany
  | true, none => .oneToMany

def entityIndex (s : Symbols) (name : String) : Nat :=
  s.entities.findIdx (·.name == name)

/-- The name of a relation: the one it is given, else one made of the two entities. -/
def relationTitle (owner : EntityDecl) (f : FieldDecl) : String :=
  if relationLabel f = "" then relationName owner.name f.type.name else relationLabel f

def relationRef (s : Symbols) (owner : EntityDecl) (f : FieldDecl) : RelationRef :=
  let inverse := inverse? s owner f
  { target := f.type.name
    targetIndex := entityIndex s f.type.name
    name := relationTitle owner f
    named := relationLabel f ≠ ""
    cardinality := cardinality f inverse
    inverse := (inverse.map (·.name)).getD ""
    onDelete := (OnDelete.ofName? (onDeleteLabel f)).getD .restrict }

/-- One end of a relation. -/
structure RelationEnd where
  owner : EntityDecl
  field : FieldDecl
  deriving Repr

def RelationEnd.key (r : RelationEnd) : String × String := (r.owner.name, r.field.name)

/-- Every relation field, by entity and by place in it. -/
def relationEnds (s : Symbols) : List RelationEnd :=
  s.entities.flatMap fun e =>
    (e.fields.filter fun f => leadsTo s f.type.name f).map fun f => ⟨e, f⟩

/-- The record of a relation, from the end that was declared first. Of a one-to-one relation that
end keeps the reference. -/
def record (s : Symbols) (r : RelationEnd) : Relation :=
  let ref := relationRef s r.owner r.field
  let self := r.owner.name == ref.target
  match ref.cardinality with
  | .manyToOne => ⟨ref.name, .oneToMany, ref.target, r.owner.name, ref.inverse, r.field.name, self⟩
  | .oneToMany => ⟨ref.name, .oneToMany, r.owner.name, ref.target, r.field.name, ref.inverse, self⟩
  | .oneToOne => ⟨ref.name, .oneToOne, ref.target, r.owner.name, ref.inverse, r.field.name, self⟩
  | .manyToMany => ⟨ref.name, .manyToMany, r.owner.name, ref.target, r.field.name, ref.inverse, self⟩

/-- One record for each relation; `done` holds the ends that are already accounted for. -/
def recordsFrom (s : Symbols) : List (String × String) → List RelationEnd → List Relation
  | _, [] => []
  | done, r :: rest =>
    if done.contains r.key then recordsFrom s done rest
    else
      let partner := (inverse? s r.owner r.field).map fun g => (r.field.type.name, g.name)
      record s r :: recordsFrom s (r.key :: partner.toList ++ done) rest

def relations (s : Symbols) : List Relation := recordsFrom s [] (relationEnds s)

end Scaffold.Build
