import Scaffold.Proofs.Storage.Failure
import Scaffold.Proofs.Unguarded.Text

/-! # Storage without a guard

A plan follows the names of a relation to entities, to their keys and to the fields on both sides,
and takes the table of an entity by its name. -/
namespace Scaffold.Unguarded

open Scaffold.Model Scaffold.Storage
open Scaffold.Text (snake)

/-- A step after one that may crash and may fail. -/
def andThen? {ε α β : Type} (x : Option (Except ε α)) (f : α → Option (Except ε β)) :
    Option (Except ε β) :=
  match x with
  | none => none
  | some (.error e) => some (.error e)
  | some (.ok a) => f a

theorem andThen?_some {ε α β : Type} {x : Except ε α} {f : α → Option (Except ε β)}
    {g : α → Except ε β} (h : ∀ a, x = .ok a → f a = some (g a)) :
    andThen? (some x) f = some (x >>= g) := by
  cases x with
  | error e => rfl
  | ok a => exact h a rfl

/-! ## References -/

/-- The key of an entity. One that knows the name of its key has to have the field. -/
def keyField? (e : Entity) (relation : String) : Option (Except PlanError Field) :=
  if e.primaryKey = "" then some (.error (.noKey relation e.name))
  else do
    let key ← e.field? e.primaryKey
    some (.ok key)

/-- The column and the foreign key of a relation, with what the field that keeps it says. -/
def referenceAs (r : Relation) (one : Entity) (key : Field) (name : String) (notNull : Bool)
    (policy : OnDelete) : Column × ForeignKey :=
  ({ name := name
     kind := key.type.kind
     enum := enumOf key.type
     notNull := notNull
     primaryKey := false
     unique := r.kind = .oneToOne
     default := none },
   ⟨name, tableName one.name, snake key.name, policy⟩)

def reference? (a : Application) (r : Relation) (one : Entity) (key : Field) :
    Option (Column × ForeignKey) :=
  if r.manyField ≠ "" then do
    let many ← a.entity? r.many
    let f ← many.field? r.manyField
    let q ← f.relation
    some (referenceAs r one key (snake f.name ++ "_id") (!f.optional) q.onDelete)
  else do
    let f ← one.field? r.oneField
    let q ← f.relation
    some (referenceAs r one key (snake r.one ++ "_" ++ snake r.oneField ++ "_id") false q.onDelete)

/-- Put a reference into the table of an entity, which has to be there. -/
def addReference? (entity : String) (c : Column) (k : ForeignKey) :
    List Table → Option (Except PlanError (List Table))
  | [] => none
  | t :: ts =>
    if t.entity = entity then some do
      let t ← t.add c
      .ok ({ t with foreignKeys := t.foreignKeys ++ [k] } :: ts)
    else andThen? (addReference? entity c k ts) fun ts => some (.ok (t :: ts))

def foreignKey? (a : Application) (r : Relation) (ts : List Table) :
    Option (Except PlanError (List Table)) := do
  let one ← a.entity? r.one
  andThen? (keyField? one r.name) fun key => do
    let (c, k) ← reference? a r one key
    addReference? r.many c k ts

def joinTable? (a : Application) (r : Relation) : Option (Except PlanError Table) := do
  let left ← a.entity? r.one
  let right ← a.entity? r.many
  andThen? (keyField? left r.name) fun l =>
    andThen? (keyField? right r.name) fun r' => some (.ok (joinTable r l r'))

def planRelations? (a : Application) :
    List Table → List Relation → Option (Except PlanError (List Table × List Table))
  | ts, [] => some (.ok (ts, []))
  | ts, r :: rs =>
    match r.kind with
    | .manyToMany =>
      andThen? (joinTable? a r) fun t =>
        andThen? (planRelations? a ts rs) fun (ts, joins) => some (.ok (ts, t :: joins))
    | _ => andThen? (foreignKey? a r ts) fun ts => planRelations? a ts rs

def plan? (a : Application) : Option (Except PlanError (List Table)) :=
  andThen? (some (a.entities.mapM entityTable)) fun ts =>
    andThen? (planRelations? a ts a.relations) fun (ts, joins) => some (.ok (ts ++ joins))

/-! ## Every name leads somewhere -/

section Names

variable {a : Application} {given : List String}

theorem keyField_eq {entity : String} {e : Entity} (he : a.entity? entity = some e)
    (relation : String) :
    keyField a entity relation =
      match e.field? e.primaryKey with
      | some f => .ok f
      | none => .error (.noKey relation entity) := by
  rw [keyField, he]
  rfl

theorem keyField?_eq (ha : Plannable a given) {entity : String} {e : Entity}
    (he : a.entity? entity = some e) (relation : String) :
    keyField? e relation = some (keyField a entity relation) := by
  obtain ⟨hmem, hname⟩ := entity?_eq_some he
  rw [keyField_eq he, keyField?]
  split
  next hnone =>
    -- No field has the empty name.
    have hmissing : e.field? "" = none := by
      rw [Entity.field?, List.find?_eq_none]
      intro f hf hempty
      exact ha.named e hmem f hf (by simpa using hempty)
    rw [hnone, hmissing, hname]
  next hsome =>
    obtain ⟨key, hkey⟩ : ∃ key, e.field? e.primaryKey = some key := by
      by_contra hmissing
      refine hsome ((ha.closed.keys e hmem).absent fun f hf => ?_)
      by_contra hmark
      have hnamed := (ha.closed.keys e hmem).named f hf (by simpa using hmark)
      refine hmissing ⟨f, ?_⟩
      rw [hnamed]
      exact Check.find?_name (ha.closed.field_names e hmem) hf
    rw [hkey]
    rfl

theorem relation?_eq_some {entity field : String} {f : Field} {q : RelationRef}
    (h : a.relation? entity field = some (f, q)) :
    ∃ e, a.entity? entity = some e ∧ e.field? field = some f ∧ f.relation = some q := by
  simp only [Application.relation?, Option.bind_eq_bind, Option.bind_eq_some_iff] at h
  obtain ⟨e, he, f', hf, q', hq, heq⟩ := h
  obtain ⟨rfl, rfl⟩ : f' = f ∧ q' = q := by simpa using heq
  exact ⟨e, he, hf, hq⟩

theorem reference?_eq {r : Relation} (hr : r.Closed a) {one : Entity}
    (hone : a.entity? r.one = some one) (key : Field) :
    reference? a r one key = some (reference a r key) := by
  obtain ⟨-, hname⟩ := entity?_eq_some hone
  by_cases hkept : r.manyField = ""
  · obtain ⟨f, q, hrelation, -⟩ := hr.lister (hr.hidden hkept).2
    obtain ⟨e, he, hf, hq⟩ := relation?_eq_some hrelation
    obtain rfl : e = one := Option.some_inj.mp (he.symm.trans hone)
    simp [reference?, reference, referenceAs, hkept, he, hf, hq, hname, policyOf]
  · obtain ⟨f, q, hrelation, -⟩ := hr.keeper hkept
    obtain ⟨many, hmany, hf, hq⟩ := relation?_eq_some hrelation
    simp [reference?, reference, referenceAs, hkept, hmany, hf, hq, hname, policyOf,
      (field?_eq_some hf).2]

theorem addReference?_eq {entity : String} (c : Column) (k : ForeignKey) {ts : List Table}
    (h : ∃ t ∈ ts, t.entity = entity) :
    addReference? entity c k ts = some (addReference entity c k ts) := by
  induction ts with
  | nil => simp at h
  | cons t ts ih =>
    rw [addReference?, addReference]
    split
    next => rfl
    next hother =>
      obtain ⟨u, hu, hentity⟩ := h
      rcases List.mem_cons.mp hu with rfl | hu
      · exact absurd hentity hother
      · rw [ih ⟨u, hu, hentity⟩]
        exact andThen?_some fun _ _ => rfl

/-- The table of an entity is among the tables, whatever references they have. -/
theorem foreignKey?_eq (ha : Plannable a given) {r : Relation} (hr : r ∈ a.relations)
    {ts : List Table} (hts : List.Forall₂ EntityTable a.entities ts) :
    foreignKey? a r ts = some (keyField a r.one r.name >>= fun key =>
      addReference r.many (reference a r key).1 (reference a r key).2 ts) := by
  have hclosed := ha.relations r hr
  obtain ⟨one, hone⟩ := hclosed.one
  obtain ⟨many, hmany⟩ := hclosed.many
  obtain ⟨hmem, hname⟩ := entity?_eq_some hmany
  obtain ⟨t, ht, htable⟩ := exists_of_mem_left hts hmem
  rw [foreignKey?, hone]
  simp only [Option.bind_eq_bind, Option.bind_some, keyField?_eq ha hone]
  refine andThen?_some fun key _ => ?_
  rw [reference?_eq hclosed hone, Option.bind_some]
  exact addReference?_eq _ _ ⟨t, ht, htable.entity.trans hname⟩

theorem joinTable?_eq (ha : Plannable a given) {r : Relation} (hr : r ∈ a.relations) :
    joinTable? a r = some (keyField a r.one r.name >>= fun left =>
      keyField a r.many r.name >>= fun right => .ok (joinTable r left right)) := by
  obtain ⟨one, hone⟩ := (ha.relations r hr).one
  obtain ⟨many, hmany⟩ := (ha.relations r hr).many
  rw [joinTable?, hone, hmany]
  simp only [Option.bind_eq_bind, Option.bind_some, keyField?_eq ha hone, keyField?_eq ha hmany]
  exact andThen?_some fun left _ => andThen?_some fun right _ => rfl

theorem planRelations?_eq (ha : Plannable a given) {rs : List Relation} (hrs : rs ⊆ a.relations)
    {ts : List Table} (hts : List.Forall₂ EntityTable a.entities ts) :
    planRelations? a ts rs = some (planRelations a ts rs) := by
  induction rs generalizing ts with
  | nil => rfl
  | cons r rs ih =>
    obtain ⟨hr, hrest⟩ := List.cons_subset.mp hrs
    rw [planRelations?, planRelations]
    split
    next hkind =>
      rw [joinTable?_eq ha hr, ih hrest hts]
      refine (andThen?_some fun t _ => andThen?_some fun _ _ => rfl).trans ?_
      simp only [hkind, bind_assoc, ok_bind]
    next =>
      rw [foreignKey?_eq ha hr hts]
      refine (andThen?_some (g := fun us => planRelations a us rs) fun us hus => ?_).trans ?_
      · obtain ⟨key, -, hadd⟩ := bind_eq_ok.mp hus
        exact ih hrest (addReference_ok (reference_column a r key) hadd hts)
      · simp only [bind_assoc]

theorem plan?_eq (ha : Plannable a given) : plan? a = some (plan a) := by
  refine andThen?_some fun ts hts => ?_
  have hstart : List.Forall₂ EntityTable a.entities ts :=
    (mapM_ok hts).imp fun _ _ => entityTable_ok
  rw [planRelations?_eq ha (List.Subset.refl _) hstart]
  exact andThen?_some fun _ _ => rfl

end Names

end Scaffold.Unguarded
