import Scaffold.Proofs.Build.Lowered
import Scaffold.Proofs.Server.Members
import Scaffold.Proofs.Server.Typing
import Scaffold.Proofs.Storage.References

/-! # Resolvers are well typed

The resolver of a checked formula computes its value over the record of an entity, where the columns
of the plan and the computed fields give every usable field a member of its own type. Two formulas
pass the checks and yet are of another type than the resolver announces: one that is asked for a
whole number and has no field, and one that is asked for a value of an enum and shows a field of
another. -/
namespace Scaffold.Server

open Scaffold.Source Scaffold.Check Scaffold.Model Scaffold.Build Scaffold.Storage

/-! ## Members -/

theorem fieldColumn_type (f : Field) :
    ValueType.of (fieldColumn f).kind (fieldColumn f).enum = .of f.type.kind f.type.ref := by
  simp only [fieldColumn, enumOf]
  split
  · rfl
  · cases hk : f.type.kind <;> first | rfl | contradiction

/-- Every field that is neither a list nor a relation has a member of its type. -/
theorem exists_member {a : Application} {done : List Relation} {e : Entity} {t : Table}
    (h : Filled a done e t) {f : Field} (hf : f ∈ e.fields) (hclosed : f.Closed a)
    (hlist : f.type.list = false) (hkind : f.type.kind ≠ .relation) :
    ∃ m ∈ (entityRecord e t.columns).members, m.name = fieldMember f.name ∧
      m.type = .of f.type.kind f.type.ref := by
  cases hvirtual : f.virtual with
  | some v =>
    have hcomputed : f ∈ e.fields.filter (·.virtual.isSome) := by simp [hf, hvirtual]
    have hmember : virtualMember f ∈ (e.fields.filter (·.virtual.isSome)).map virtualMember :=
      List.mem_map_of_mem hcomputed
    refine ⟨virtualMember f, List.mem_append_right _ hmember, ?_, ?_⟩ <;> simp only [virtualMember]
  | none =>
    obtain ⟨refs, -, hcolumns, -⟩ := h.references
    have hplain : f ∈ plainFields e := by
      simp [plainFields, Entity.storedFields, hf, hvirtual, hlist, relation_eq_none hclosed hkind]
    have hcolumn : fieldColumn f ∈ t.columns := by
      rw [hcolumns]
      exact List.mem_append_left _ (List.mem_map_of_mem hplain)
    have hmember : columnMember (fieldColumn f) ∈ t.columns.map columnMember :=
      List.mem_map_of_mem hcolumn
    refine ⟨columnMember (fieldColumn f), List.mem_append_left _ hmember, ?_, ?_⟩
    · simp only [columnMember, fieldColumn, fieldMember]
    · simp only [columnMember, fieldColumn_type]

/-- Among members that are told apart, a member is found by its name. -/
theorem member?_of_mem {record : Record} (h : (record.members.map (·.name)).Nodup) {m : Member}
    (hm : m ∈ record.members) : record.member? m.name = some m := find?_name h hm

/-- The record of an entity is made from the columns of its table. -/
structure IsRecord (a : Application) (tables : List Table) (e : Entity) (record : Record) :
    Prop where
  listed : record ∈ records a tables
  table : ∃ t ∈ tables, t.entity = e.name ∧ record = entityRecord e t.columns

section Accepted

variable {s : Symbols} {extra : List String} {e : EntityDecl}

/-- The record of an accepted entity, made from the table that the plan has filled. -/
theorem exists_record (hs : s.Accepted extra) (he : e ∈ s.entities) {app : String}
    {given : List String} (ha : Plannable (build s app) given) {tables : List Table}
    (hplan : plan (build s app) = .ok tables) :
    ∃ t, Filled (build s app) (build s app).relations (buildEntity s e) t ∧
      IsRecord (build s app) tables (buildEntity s e)
        (entityRecord (buildEntity s e) t.columns) := by
  obtain ⟨own, joins, rfl, hown, -⟩ := plan_filled ha hplan
  obtain ⟨t, ht, hfilled⟩ := exists_of_mem_left hown (mem_entities he)
  have hmem : t ∈ own ++ joins := List.mem_append_left _ ht
  have hentity := hfilled.table.entity
  refine ⟨t, hfilled, List.mem_append_left _ (List.mem_filterMap.mpr ⟨t, hmem, ?_⟩), t, hmem,
    hentity, rfl⟩
  rw [hentity, build_entity? hs.distinct app _ (mem_entities he), Option.map_some]

/-- The record of an entity has a member for every usable field. -/
theorem exists_usable_member (hs : s.Accepted extra) (hn : EntitiesNamed s) (he : e ∈ s.entities)
    {app : String} {done : List Relation} {t : Table}
    (ht : Filled (build s app) done (buildEntity s e) t) {name : String} {k : TypeKind}
    (hk : declaredKind s e name = some k) (husable : (k.isNumeric || k.isTextual) = true) :
    ∃ f, (buildEntity s e).field? name = some f ∧ f.type.kind = k ∧
      ∃ m ∈ (entityRecord (buildEntity s e) t.columns).members, m.name = fieldMember name ∧
        m.type = .of f.type.kind f.type.ref := by
  obtain ⟨f, hf, hk⟩ := Option.bind_eq_some_iff.mp hk
  obtain ⟨type, htype, hk⟩ := Option.map_eq_some_iff.mp hk
  obtain ⟨hmem, hname⟩ := findField?_eq_some hf
  obtain ⟨type', haccepted⟩ := (hs.entity he).field f hmem
  obtain rfl : type' = type := Option.some.inj (haccepted.type.symm.trans htype)
  have hbuilt : (buildField s e f).type = type' := by simp [buildField, htype]
  have hrelation : type'.kind ≠ .relation := by
    intro hrel
    rw [← hk, hrel] at husable
    cases husable
  have hlist : type'.list = false := by
    cases hl : type'.list with
    | false => rfl
    | true => exact absurd (haccepted.list hl) hrelation
  refine ⟨buildField s e f, findField?_build hf, by rw [hbuilt, hk], ?_⟩
  rw [← show (buildField s e f).name = name from hname]
  exact exists_member ht (List.mem_map_of_mem hmem) (field_closed hs hn he hmem app)
    (by rw [hbuilt, hlist]) (by rwa [hbuilt])

/-- The record of an entity has its usable fields, where no two of its members have one name. -/
theorem record_backs (hs : s.Accepted extra) (hn : EntitiesNamed s) (he : e ∈ s.entities)
    {app : String} {done : List Relation} {t : Table}
    (ht : Filled (build s app) done (buildEntity s e) t)
    (hnodup : ((entityRecord (buildEntity s e) t.columns).members.map (·.name)).Nodup) :
    Backs (entityRecord (buildEntity s e) t.columns) (buildEntity s e) (declaredKind s e) := by
  intro name k hk husable
  obtain ⟨f, hf, hkind, m, hm, hmname, hmtype⟩ := exists_usable_member hs hn he ht hk husable
  have hfind := member?_of_mem hnodup hm
  rw [hmname] at hfind
  exact ⟨f, hf, hkind, by rw [hfind, Option.map_some, hmtype, hkind]⟩

/-- The formula of a computed field has a type, and the field can hold its values. -/
theorem virtual_checked (hs : s.Accepted extra) (he : e ∈ s.entities) {f : FieldDecl}
    (hf : f ∈ e.fields) {v : Virtual} (hv : (buildField s e f).virtual = some v) :
    ∃ formula k, v.expr = lower (declaredKind s e) formula ∧
      typeOf (declaredKind s e) formula = .ok k ∧
      (buildField s e f).type.kind.assignable k = true := by
  obtain ⟨⟨source, p⟩, hsource, hv⟩ := Option.bind_eq_some_iff.mp hv
  obtain ⟨t, ht⟩ := (hs.entity he).field f hf
  obtain ⟨formula, k, hparsed, hk, hassign⟩ := hs.assignable he hf hsource ht.type
  simp only [hparsed, Except.toOption, Option.bind_eq_bind, Option.bind_some,
    Option.some.injEq] at hv
  refine ⟨formula, k, by rw [← hv], (formulaKind_checked hk).1, ?_⟩
  simpa [buildField, ht.type] using hassign

/-- A formula of a view has the type that the view keeps for it. -/
theorem shown_checked {members : List Property} {v : BlockDecl} (h : ViewAccepted s v e members)
    {f : ViewField} (hf : f ∈ members.filterMap (buildViewField (declaredKind s e) v.name))
    {source : String} {expr : Expr} (hvalue : f.value = .formula source expr) :
    ∃ formula, expr = lower (declaredKind s e) formula ∧
      typeOf (declaredKind s e) formula = .ok f.resultType := by
  obtain ⟨p, hp, hbuilt⟩ := List.mem_filterMap.mp hf
  have hmember := h.member p hp
  unfold buildViewField at hbuilt
  split at hbuilt
  · cases hbuilt
    cases hvalue
  next text at_ hv =>
    rw [hv] at hmember
    cases hmember with
    | formula _ parsed accepted =>
      obtain ⟨k, hk⟩ := accepted.typed
      obtain ⟨htyped, hkind⟩ := formulaKind_checked hk
      simp only [parsed, Except.toOption, Option.bind_eq_bind, Option.bind_some,
        Option.some.injEq] at hbuilt
      subst hbuilt
      cases hvalue
      exact ⟨_, rfl, by rw [hkind, htyped]⟩
  · cases hbuilt

end Accepted

/-! ## Resolvers -/

/-- The variable that keeps the value of a resolver over a record has the type that the resolver
announces. -/
def Resolver.WellTyped (r : Resolver) (record : Record) : Prop :=
  (termType? record r.value).bind TermType.declared = some r.type

instance (r : Resolver) (record : Record) : Decidable (r.WellTyped record) :=
  inferInstanceAs (Decidable (_ = _))

/-- A resolver computes its value from a record: all operations are between values of one type, and
the value is of the announced type unless the formula is one of those that slip through. -/
structure Resolver.Computes (r : Resolver) (record : Record) (slips : Prop) : Prop where
  receiver : record.name = r.receiver
  value : (termType? record r.value).isSome = true
  result : r.WellTyped record ↔ ¬ slips

theorem computes_of_type {r : Resolver} {record : Record} {slips : Prop} {τ : TermType}
    (hname : record.name = r.receiver) (hvalue : termType? record r.value = some τ)
    (hresult : τ.declared = some r.type ↔ ¬ slips) : r.Computes record slips where
  receiver := hname
  value := by rw [hvalue, Option.isSome_some]
  result := by rw [Resolver.WellTyped, hvalue, Option.bind_some, hresult]

/-- Over the record of each entity, the resolvers of its computed fields and of the formulas of the
views on it compute their values, where no two members of the record have one name. -/
structure ResolversTyped (a : Application) (tables : List Table) : Prop where
  computed : ∀ e ∈ a.entities, ∀ f ∈ e.fields, ∀ v, f.virtual = some v →
    ∃ record r, IsRecord a tables e record ∧ virtualResolver? e f = some r ∧
      ((record.members.map (·.name)).Nodup →
        r.Computes record (Bare f.type.kind v.expr ∨ OtherEnum e f.type v.expr))
  shown : ∀ v ∈ a.views, ∀ f ∈ v.fields, ∀ source expr, f.value = .formula source expr →
    f.resultType ≠ .enum → ∃ e record r, a.entity? v.source = some e ∧
      IsRecord a tables e record ∧ viewResolver? a v f = some r ∧
      ((record.members.map (·.name)).Nodup → r.Computes record (Bare f.resultType expr))

end Scaffold.Server

namespace Scaffold

open Scaffold.Source Scaffold.Model Scaffold.Build Scaffold.Storage Scaffold.Server Scaffold.Check

/-- A computed field and a view that mix numbers and texts. -/
def offers : List Text.Rune := [
  "entity Offer \x7b ",
  "id: Int primaryKey ",
  "name: String ",
  "price: Decimal ",
  "total: Decimal ",
  "@virtual(from: ",
  "\"price * id + 1\") \x7d ",
  "view Offers \x7b ",
  "source: Offer fields: \x7b ",
  "label: \"name + (id + 1)\" ",
  "\x7d \x7d"].flatMap Text.runes

/-- Items whose color is their size, and whose numbers are constants. -/
def mixedItems : List Text.Rune := [
  "enum Size \x7b S L \x7d ",
  "enum Color \x7b RED \x7d ",
  "entity Item \x7b ",
  "id: Int primaryKey ",
  "size: Size ",
  "color: Color ",
  "@virtual(from: \"size\") ",
  "count: Int ",
  "@virtual(from: \"2 + 3\") \x7d ",
  "view Items \x7b ",
  "source: Item fields: \x7b ",
  "one: \"1\" \x7d \x7d"].flatMap Text.runes

end Scaffold
