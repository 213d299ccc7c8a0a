import Scaffold.Build.Application
import Scaffold.Proofs.Check.Config
import Scaffold.Proofs.Check.Page
import Scaffold.Proofs.Lists
import Scaffold.Proofs.Outcome
import Scaffold.Proofs.Source.Names

/-! # A compiled application is closed

An application is closed when every name in it leads somewhere: types to enums and entities,
relations to the place of their target, pages to entities, fields and roles, views and formulas to
fields. Nothing that is generated from a closed application has to look for a missing name.

The checks speak of declarations, and the builder reads the declarations again on its own. Each
part of a model is traced back to the declaration it was built from, where a check has looked at
the same name. -/
namespace Scaffold.Model

namespace Entity

/-- A record of the entity can be looked up by a key. -/
def HasKey (e : Entity) : Prop :=
  e.primaryKey ≠ "" ∧ ∃ f ∈ e.fields, f.primaryKey = true ∧ f.name = e.primaryKey

/-- At most one field is the key, the entity knows it by name, and it is a plain required value. -/
structure KeySound (e : Entity) : Prop where
  single : (e.fields.filter (·.primaryKey)).length ≤ 1
  named : ∀ f ∈ e.fields, f.primaryKey = true → e.primaryKey = f.name
  absent : (∀ f ∈ e.fields, f.primaryKey = false) → e.primaryKey = ""
  plain : ∀ f ∈ e.fields, f.primaryKey = true →
    f.type.kind ≠ .relation ∧ f.type.list = false ∧ f.virtual = none ∧ f.optional = false

/-- Whether a name is that of a field. -/
def Declares (e : Entity) (name : String) : Prop := ∃ f ∈ e.fields, f.name = name

end Entity

namespace Application

/-- The values of an enum; none if there is no such enum. -/
def enumValues (a : Application) (name : String) : List String :=
  ((a.enum? name).map (·.values)).getD []

/-- The values of the enum behind the `role` field of the entity that signs in. -/
def userRoles (a : Application) : List String :=
  match a.config.auth.bind fun u => a.entity? u.userEntity with
  | none => []
  | some e => (e.fields.filter fun f => f.name == "role" && !f.type.list).flatMap fun f =>
      a.enumValues f.type.ref

/-- The roles that a page may name, when `given` come from outside. -/
def knownRoles (a : Application) (given : List String) : List String :=
  reservedRoles ++ given ++ a.enumValues roleEnumName ++ a.userRoles

end Application

/-- A type is a scalar, a declared enum, or a relation to a declared entity with a key. Only a
relation can be a list. -/
inductive FieldType.Closed (a : Application) : FieldType → Prop
  | scalar {k : TypeKind} (known : k ∈ TypeKind.scalars) : Closed a ⟨k, "", false⟩
  | enum {e : Enum} (declared : e ∈ a.enums) : Closed a ⟨.enum, e.name, false⟩
  | relation {e : Entity} (list : Bool) (declared : e ∈ a.entities) (key : e.HasKey) :
      Closed a ⟨.relation, e.name, list⟩

/-- Relation fields, and only they, know their target and its place. -/
structure Field.Closed (a : Application) (f : Field) : Prop where
  type : f.type.Closed a
  relation : f.relation.isSome = true ↔ f.type.kind = .relation
  target : ∀ r, f.relation = some r →
    r.target = f.type.ref ∧ (a.entities[r.targetIndex]?).map (·.name) = some r.target

/-- What a page names is declared, and is named by pages of the right kind only. -/
structure Page.Closed (a : Application) (given : List String) (p : Page) : Prop where
  entity : p.entity ≠ "" ∨ p.kind ≠ .custom → ∃ e ∈ a.entities, e.name = p.entity
  key : p.kind = .details → ∃ e ∈ a.entities, e.name = p.entity ∧ e.HasKey
  columns : ∀ c ∈ p.columns, p.kind = .table ∧
    ∃ e ∈ a.entities, e.name = p.entity ∧ e.Declares c
  fields : ∀ c ∈ p.fields, p.kind = .form ∧
    ∃ e ∈ a.entities, e.name = p.entity ∧ ∃ f ∈ e.fields, f.name = c ∧ f.virtual = none
  permissions : ∀ r ∈ p.permissions, r ∈ a.knownRoles given
  route : "/".toList <+: p.route.toList

/-- A view field shows a field that is no list, or a formula over fields. -/
def ViewValue.Closed (e : Entity) : ViewValue → Prop
  | .ref name => ∃ f ∈ e.fields, f.name = name ∧ f.type.list = false
  | .formula _ expr => ∀ m ∈ expr.mentions, e.Declares m

structure View.Closed (a : Application) (v : View) : Prop where
  names : (v.fields.map (·.name)).Nodup
  source : ∃ e ∈ a.entities, e.name = v.source ∧ ∀ f ∈ v.fields, f.value.Closed e

/-- Names are told apart and lead somewhere. -/
structure Application.Closed (a : Application) (given : List String) : Prop where
  entity_names : (a.entities.map (·.name)).Nodup
  enum_names : (a.enums.map (·.name)).Nodup
  page_names : (a.pages.map (·.name)).Nodup
  view_names : (a.views.map (·.name)).Nodup
  workflow_names : (a.workflows.map (·.name)).Nodup
  entity_builtin : ∀ e ∈ a.entities, isBuiltin e.name = false
  enum_builtin : ∀ e ∈ a.enums, isBuiltin e.name = false
  entity_enum : ∀ e ∈ a.entities, ∀ g ∈ a.enums, e.name ≠ g.name
  entity_view : ∀ e ∈ a.entities, ∀ v ∈ a.views, e.name ≠ v.name
  field_names : ∀ e ∈ a.entities, (e.fields.map (·.name)).Nodup
  keys : ∀ e ∈ a.entities, e.KeySound
  fields : ∀ e ∈ a.entities, ∀ f ∈ e.fields, f.Closed a
  formulas : ∀ e ∈ a.entities, ∀ f ∈ e.fields, ∀ v, f.virtual = some v →
    ∀ m ∈ v.expr.mentions, e.Declares m
  pages : ∀ p ∈ a.pages, p.Closed a given
  routes : (a.pages.map (·.route)).Nodup
  views : ∀ v ∈ a.views, v.Closed a
  auth : ∀ u, a.config.auth = some u → ∃ e ∈ a.entities, e.name = u.userEntity

end Scaffold.Model

namespace Scaffold.Build

open Scaffold.Source Scaffold.Check Scaffold.Model

/-! ## Names and labels -/

theorem label?_of_nameOf? {v : Value} {name : String} (h : nameOf? v = some name) :
    label? v = some name := by
  unfold nameOf? at h
  split at h
  next n p =>
    cases h
    simp [label?, dotted]
  next => exact h
  next => cases h

theorem label_of_nameOf {v : Value} (h : nameOf v ≠ "") : label v = nameOf v := by
  unfold nameOf at h ⊢
  cases hn : nameOf? v with
  | none => simp [hn] at h
  | some name => simp [label, label?_of_nameOf? hn]

/-- A list of names is read back as the same list. -/
theorem labels_of_nameOf? {elems : List Value} {p : Pos} {q : String → Prop}
    (h : ∀ v ∈ elems, ∃ name, nameOf? v = some name ∧ q name) :
    ∀ name ∈ labels (.array elems p), q name := by
  intro name hm
  obtain ⟨v, hv, hl⟩ := List.mem_filterMap.mp hm
  obtain ⟨n, hn, hq⟩ := h v hv
  rw [label?_of_nameOf? hn] at hl
  cases hl
  exact hq

/-! ## Formulas -/

theorem mentions_lower (kindOf : String → Option TypeKind) (f : Formula) :
    (lower kindOf f).mentions = f.mentions.map (·.1) := by
  induction f with
  | field name p => rfl
  | string text p => rfl
  | number raw p => rfl
  | binary op left right p ihl ihr => simp [lower, Expr.mentions, Formula.mentions, ihl, ihr]

/-- The first mentions of fields leave no field out. -/
theorem mem_refs {f : Formula} {m : String × Pos} (h : m ∈ f.mentions) :
    ∃ r ∈ f.refs, r.1 = m.1 := by
  refine exists_mem_keepFirst (fun seen x hx hq => ?_) (.inr ⟨m, h, rfl⟩)
  obtain ⟨y, hy, he⟩ := List.any_eq_true.mp hx
  exact ⟨y, hy, (beq_iff_eq.mp he).trans hq⟩

/-! ## Entities -/

theorem findField?_eq_some {e : EntityDecl} {name : String} {f : FieldDecl}
    (h : findField? e name = some f) : f ∈ e.fields ∧ f.name = name :=
  ⟨List.mem_of_find?_eq_some h, by simpa using List.find?_some h⟩

theorem declares_of_findField? {s : Symbols} {e : EntityDecl} {name : String}
    (h : (findField? e name).isSome = true) : (buildEntity s e).Declares name := by
  obtain ⟨f, hf⟩ := Option.isSome_iff_exists.mp h
  obtain ⟨hm, hn⟩ := findField?_eq_some hf
  exact ⟨buildField s e f, List.mem_map_of_mem hm, hn⟩

theorem declares_of_accepted {s : Symbols} {e : EntityDecl} {formula : Formula}
    (h : FormulaAccepted s e formula) (kindOf : String → Option TypeKind) :
    ∀ m ∈ (lower kindOf formula).mentions, (buildEntity s e).Declares m := by
  intro m hm
  rw [mentions_lower] at hm
  obtain ⟨n, hn, rfl⟩ := List.mem_map.mp hm
  obtain ⟨r, hr, he⟩ := mem_refs hn
  exact he ▸ declares_of_findField? (h.known r hr)

/-- A field is computed in the model exactly when its declaration gives a formula. -/
theorem buildVirtual_eq_none {s : Symbols} {e : EntityDecl} (he : EntityAccepted s e)
    {f : FieldDecl} (hf : f ∈ e.fields) : buildVirtual s e f = none ↔ isComputed f = false := by
  unfold buildVirtual isComputed
  cases hs : formulaSource? f with
  | none => simp
  | some sp =>
    obtain ⟨formula, hp, -⟩ := he.formula f hf sp.1 sp.2 hs
    simp [hp, Except.toOption]

/-- The key of the model is the marked field. -/
theorem primaryKey_buildEntity {s : Symbols} {e : EntityDecl} (he : EntityAccepted s e)
    {f : FieldDecl} (hf : f ∈ e.fields) (hk : f.primaryKey = true) :
    (buildEntity s e).primaryKey = f.name := by
  have hm : f ∈ e.fields.filter (·.primaryKey) := List.mem_filter.mpr ⟨hf, hk⟩
  have hlen := he.key
  match hl : e.fields.filter (·.primaryKey) with
  | [] => simp [hl] at hm
  | [g] =>
    rw [hl, List.mem_singleton] at hm
    simp [buildEntity, hl, hm]
  | _ :: _ :: _ => simp [hl] at hlen

theorem hasKey_buildEntity {s : Symbols} {e : EntityDecl} (he : EntityAccepted s e)
    (hn : ∀ f ∈ e.fields, f.name ≠ "") (hk : hasPrimaryKey e = true) :
    (buildEntity s e).HasKey := by
  obtain ⟨f, hf, hfk⟩ := List.any_eq_true.mp hk
  have hp := primaryKey_buildEntity he hf hfk
  refine ⟨hp ▸ hn f hf, buildField s e f, List.mem_map_of_mem hf, hfk, hp.symm⟩

theorem keySound_buildEntity {s : Symbols} {e : EntityDecl} (he : EntityAccepted s e) :
    (buildEntity s e).KeySound where
  single := by
    have hlen := he.key
    simpa [buildEntity, List.filter_map, Function.comp_def, buildField] using hlen
  named := by
    intro f hf hk
    obtain ⟨g, hg, rfl⟩ := List.mem_map.mp hf
    exact primaryKey_buildEntity he hg hk
  absent := by
    intro hnone
    have hnil : e.fields.filter (·.primaryKey) = [] := by
      rw [List.filter_eq_nil_iff]
      intro f hf
      have := hnone _ (List.mem_map_of_mem hf)
      simpa [buildField] using this
    simp [buildEntity, hnil]
  plain := by
    intro f hf hk
    obtain ⟨g, hg, rfl⟩ := List.mem_map.mp hf
    obtain ⟨t, ht⟩ := he.field g hg
    have hkind := ht.key hk
    have htype : (buildField s e g).type = t := by simp [buildField, ht.type]
    rw [htype]
    refine ⟨hkind.1, ?_, ?_, hkind.2⟩
    · cases hl : t.list with
      | false => rfl
      | true => exact absurd (ht.list hl) hkind.1
    · apply (buildVirtual_eq_none he hg).mpr
      cases hc : isComputed g with
      | false => rfl
      | true =>
        have hk' : g.primaryKey = true := hk
        exact absurd hk' (by simp [(ht.computed hc).2.1])

/-! ## Fields -/

/-- The names of entities and fields are not empty. -/
def EntitiesNamed (s : Symbols) : Prop :=
  ∀ e ∈ s.entities, e.name ≠ "" ∧ ∀ f ∈ e.fields, f.name ≠ ""

theorem entitiesNamed_of_named {f : File} (h : f.Named) : EntitiesNamed ⟨f.decls⟩ := by
  intro e he
  obtain ⟨d, hd, hp⟩ := List.mem_filterMap.mp he
  have hnamed := h d hd
  cases d <;> cases hp
  exact hnamed

theorem mem_entities {s : Symbols} {name : String} {e : EntityDecl} (he : e ∈ s.entities) :
    buildEntity s e ∈ (build s name).entities := List.mem_map_of_mem he

theorem type_closed {s : Symbols} {extra : List String} (hs : s.Accepted extra)
    (hn : EntitiesNamed s) {f : FieldDecl} {t : FieldType} (ht : FieldAccepted s f t)
    (name : String) : t.Closed (build s name) := by
  have hlist {k : TypeKind} {ref : String} (hk : k ≠ .relation)
      (he : t = ⟨k, ref, f.type.list⟩) : f.type.list = false := by
    cases hl : f.type.list with
    | false => rfl
    | true => exact absurd (ht.list (by simp [he, hl])) (by simpa [he] using hk)
  rcases fieldType?_cases ht.type with ⟨k, hk, he⟩ | ⟨g, hg, hname, he⟩ | ⟨g, hg, he⟩
  · have hne : k ≠ .relation := fun h => relation_notMem_scalars (h ▸ hk)
    rw [he, hlist hne he]
    exact .scalar hk
  · rw [he, hlist (by decide) he, ← hname]
    exact FieldType.Closed.enum (e := buildEnum g) (List.mem_map_of_mem hg)
  · obtain ⟨hm, hname⟩ := Symbols.entity?_eq_some hg
    have hkey : hasPrimaryKey g = true := ht.target (by simp [he]) g (by simpa [he] using hg)
    rw [he, ← hname]
    exact FieldType.Closed.relation (e := buildEntity s g) _ (mem_entities hm)
      (hasKey_buildEntity (hs.entity hm) (hn g hm).2 hkey)

theorem entityIndex_name {s : Symbols} {name target : String} {e : EntityDecl}
    (h : s.entity? target = some e) :
    ((build s name).entities[entityIndex s target]?).map (·.name) = some target := by
  obtain ⟨-, hname⟩ := Symbols.entity?_eq_some h
  have hfind : s.entities[entityIndex s target]? = some e := by
    rw [← h]
    exact List.find?_eq_getElem?_findIdx.symm
  simp [build, hfind, buildEntity, hname]

theorem field_closed {s : Symbols} {extra : List String} (hs : s.Accepted extra)
    (hn : EntitiesNamed s) {e : EntityDecl} (he : e ∈ s.entities) {f : FieldDecl}
    (hf : f ∈ e.fields) (name : String) : (buildField s e f).Closed (build s name) := by
  obtain ⟨t, ht⟩ := (hs.entity he).field f hf
  have htype : (buildField s e f).type = t := by simp [buildField, ht.type]
  refine ⟨htype ▸ type_closed hs hn ht name, ?_, fun r hr => ?_⟩
  · rw [htype]
    cases hc : isComputed f with
    | false => simp [buildField, hc, ht.type]
    | true => simp [buildField, hc, (ht.computed hc).1]
  · obtain ⟨-, hrel, rfl⟩ : isComputed f = false ∧ t.kind = .relation ∧ relationRef s e f = r := by
      simpa [buildField, ht.type, and_assoc] using hr
    obtain ⟨g, hg, hform⟩ := fieldType?_relation ht.type hrel
    exact ⟨by simp [relationRef, htype, hform], entityIndex_name hg⟩

/-! ## Pages -/

theorem textOf_of_nameOf {props : List Property} {key : String} {q : Property}
    (hq : lookup props key = some q) (hn : nameOf q.value ≠ "") :
    textOf props key = some (nameOf q.value) := by
  simp [textOf, hq, label_of_nameOf hn]

theorem ofName?_name (k : PageKind) : PageKind.ofName? k.name = some k := by
  cases k <;> decide

theorem name_of_ofName? {name : String} {k : PageKind} (h : PageKind.ofName? name = some k) :
    k.name = name := by
  simpa using List.find?_some h

/-- The kind of a page is the one that its `type` spells. -/
theorem textOf_type {s : Symbols} {known : List String} {p : BlockDecl} {kind : PageKind}
    {entity : Option EntityDecl} (h : PageAccepted s known p kind entity) :
    textOf p.props "type" = some kind.name := by
  obtain ⟨t, ht, hk⟩ := h.type
  have hname := name_of_ofName? hk
  rw [textOf_of_nameOf ht (hname ▸ by cases kind <;> decide), hname]

/-- The entity of a page is the one that was checked. -/
theorem textOf_entity {s : Symbols} (hn : EntitiesNamed s) {p : BlockDecl} {kind : PageKind}
    {entity : Option EntityDecl} (h : EntityGiven s p kind entity) :
    textOf p.props "entity" = entity.map (·.name) := by
  cases h with
  | given prop found key =>
    obtain ⟨hm, hname⟩ := Symbols.entity?_eq_some found
    rw [textOf_of_nameOf prop (hname ▸ (hn _ hm).1), Option.map_some, hname]
  | absent prop custom => simp [textOf, prop]

theorem find?_buildEntity {s : Symbols} (hs : s.Distinct) {e : EntityDecl} (he : e ∈ s.entities) :
    (s.entities.map (buildEntity s)).find? (·.name == e.name) = some (buildEntity s e) := by
  have hnodup : ((s.entities.map (buildEntity s)).map (·.name)).Nodup := by
    rw [List.map_map]
    exact hs.entities
  exact find?_name hnodup (List.mem_map_of_mem he)

/-- A listed name is declared on the entity, and on forms it is not computed. -/
theorem listed_accepted {site : Site} {p : BlockDecl} {kind only : PageKind}
    {e : EntityDecl} {key : String} {editable : Bool} {names : List String}
    (h : checkListed site p p.props (some kind) (some e) key only editable = [])
    (hl : listed p.props key = some names) :
    kind = only ∧ ∀ c ∈ names, ∃ f ∈ e.fields, f.name = c ∧
      (editable = true → isComputed f = false) := by
  obtain ⟨q, hq, rfl⟩ := Option.map_eq_some_iff.mp hl
  obtain ⟨hkind, hlist⟩ := checkListed_accepted h hq
  obtain ⟨elems, at_, hv, hall⟩ := checkFieldList_accepted (hlist e rfl)
  rw [hv]
  refine ⟨hkind, labels_of_nameOf? fun v hm => ?_⟩
  obtain ⟨name, f, hname, hf, hc⟩ := hall v hm
  obtain ⟨hfm, hfn⟩ := findField?_eq_some hf
  exact ⟨name, hname, f, hfm, hfn, hc⟩

/-- The fields that a page shows, listed or taken from its entity: only pages of one kind show
any, and all are fields of the page's entity. -/
theorem shown_closed {s : Symbols} {extra : List String} (hs : s.Accepted extra)
    {site : Site} {p : BlockDecl} {kind only : PageKind} {entity : Option EntityDecl}
    {key : String} {editable : Bool} (hg : EntityGiven s p kind entity) (honly : only ≠ .custom)
    (h : checkListed site p p.props (some kind) entity key only editable = [])
    {preset : Entity → List String}
    (hpreset : ∀ e, ∀ c ∈ preset e, ∃ f ∈ e.fields, f.name = c ∧ f.virtual = none)
    {c : String}
    (hc : c ∈ (listed p.props key).getD (if kind = only then
      (((s.entities.map (buildEntity s)).find? (·.name == (entity.map (·.name)).getD "")).map
        preset).getD [] else [])) :
    kind = only ∧ ∃ e ∈ s.entities, entity = some e ∧
      ∃ f ∈ (buildEntity s e).fields, f.name = c ∧ (editable = true → f.virtual = none) := by
  cases hg with
  | absent prop custom =>
    cases hl : listed p.props key with
    | some names =>
      obtain ⟨q, hq, -⟩ := Option.map_eq_some_iff.mp hl
      exact absurd ((checkListed_accepted h hq).1.symm.trans custom) honly
    | none =>
      have hne : kind ≠ only := fun he => honly (he.symm.trans custom)
      simp [hl, hne] at hc
  | @given q e prop found hkey =>
    obtain ⟨hm, -⟩ := Symbols.entity?_eq_some found
    cases hl : listed p.props key with
    | some names =>
      obtain ⟨hkind, hall⟩ := listed_accepted h hl
      rw [hl, Option.getD_some] at hc
      obtain ⟨f, hf, hname, hcomp⟩ := hall c hc
      exact ⟨hkind, e, hm, rfl, buildField s e f, List.mem_map_of_mem hf, hname,
        fun he => (buildVirtual_eq_none (hs.entity hm) hf).mpr (hcomp he)⟩
    | none =>
      by_cases hkind : kind = only
      · have hfind := find?_buildEntity hs.distinct hm
        simp only [hl, hkind, if_true, Option.getD_none, Option.map_some, Option.getD_some,
          hfind] at hc
        obtain ⟨f, hf, hname, hv⟩ := hpreset _ c hc
        exact ⟨hkind, e, hm, rfl, f, hf, hname, fun _ => hv⟩
      · simp [hl, hkind] at hc

/-- A choice among the stored fields of an entity names fields that are not computed. -/
theorem mem_stored_names {e : Entity} {q : Field → Bool} {c : String}
    (h : c ∈ (e.storedFields.filter q).map (·.name)) :
    ∃ f ∈ e.fields, f.name = c ∧ f.virtual = none := by
  obtain ⟨f, hf, rfl⟩ := List.mem_map.mp h
  have hstored := List.mem_filter.mp (List.mem_filter.mp hf).1
  exact ⟨f, hstored.1, rfl, by simpa using (Bool.and_eq_true_iff.mp hstored.2).1⟩

/-- A page without diagnostics takes the route that was checked, and it starts at the root. -/
theorem route_accepted {p : BlockDecl} (h : (checkRoute (pageSite p) p p.props).2 = []) :
    (textOf p.props "route").getD (defaultRoute p.name) = routeOf p ∧
      "/".toList <+: (routeOf p).toList := by
  have hdefault : "/".toList <+: (defaultRoute p.name).toList := by
    simp [defaultRoute]
  unfold routeOf
  unfold checkRoute at h ⊢
  split at h
  next hr => exact ⟨by simp [textOf, hr], by simpa [hr] using hdefault⟩
  next key at_ text at' hr =>
    split at h
    next ht =>
      simp only [ht, if_true]
      exact ⟨by simp [textOf, hr, label, label?], String.startsWith_string_iff.mp ht⟩
    · cases h
  · cases h

/-! ## Roles -/

theorem enumValues_build {s : Symbols} {name enum : String} :
    (build s name).enumValues enum = Check.enumValues s enum := by
  simp only [Application.enumValues, Application.enum?, Check.enumValues, Symbols.enum?, build,
    List.find?_map, Function.comp_def, buildEnum, Option.map_map]

theorem auth_providers : ∀ schema ∈ ProviderSchema.all, schema.block = .auth →
    schema.provider = "jwt" ∨ schema.provider = "clerk" ∨ schema.provider = "auth0" := by
  decide

theorem buildAuth_userEntity {props : List Property} {provider : String}
    (hp : textOf props "provider" = some provider)
    (h : provider = "jwt" ∨ provider = "clerk" ∨ provider = "auth0") :
    ∃ u, buildAuth props = some u ∧ u.userEntity = (textOf props "userEntity").getD "" := by
  simp only [buildAuth, hp, Option.getD_some]
  rcases h with rfl | rfl | rfl
  · exact ⟨_, rfl, rfl⟩
  · exact ⟨_, rfl, rfl⟩
  · exact ⟨_, rfl, rfl⟩

/-- Authentication is built with the entity that was checked. -/
theorem auth_built {s : Symbols} {extra : List String} (hs : s.Accepted extra)
    (hn : EntitiesNamed s) {a : BlockDecl} (ha : s.auth = some a) :
    ∃ u e, (buildConfig s).auth = some u ∧ e ∈ s.entities ∧ u.userEntity = e.name ∧
      userEntity? s = some e := by
  obtain ⟨p, q, e, hp, ⟨schema, hmem, hblock, hprov⟩, hq, -, he⟩ :=
    checkConfig_userEntity hs.config ha
  obtain ⟨hem, hname⟩ := Symbols.entity?_eq_some he
  have hthree := auth_providers schema hmem hblock
  rw [← hprov] at hthree
  have hne : nameOf p.value ≠ "" := by
    intro h
    simp [h] at hthree
  obtain ⟨u, hu, huser⟩ := buildAuth_userEntity (textOf_of_nameOf hp hne) hthree
  refine ⟨u, e, by simp [buildConfig, ha, hu], hem, ?_, by simp [userEntity?, ha, hq, he]⟩
  rw [huser, textOf_of_nameOf hq (hname ▸ (hn e hem).1), Option.getD_some, hname]

theorem entity?_build {s : Symbols} (hs : s.Distinct) {e : EntityDecl} (he : e ∈ s.entities)
    (name : String) : (build s name).entity? e.name = some (buildEntity s e) :=
  find?_buildEntity hs he

theorem mem_userRoles {s : Symbols} {extra : List String} (hs : s.Accepted extra)
    (hn : EntitiesNamed s) {r : String} (h : r ∈ Check.userRoles s) (name : String) :
    r ∈ (build s name).userRoles := by
  unfold Check.userRoles at h
  split at h
  · cases h
  next e he =>
    obtain ⟨a, ha, -⟩ := Option.bind_eq_some_iff.mp he
    obtain ⟨u, e', hauth, hm, huser, he'⟩ := auth_built hs hn ha
    obtain rfl : e = e' := Option.some.inj (he.symm.trans he')
    have hfound : ((build s name).config.auth.bind fun u => (build s name).entity? u.userEntity) =
        some (buildEntity s e) := by
      simp [build, hauth, huser]
      exact find?_buildEntity hs.distinct hm
    obtain ⟨f, hf, hr⟩ := List.mem_flatMap.mp h
    obtain ⟨hf, hrole⟩ := List.mem_filter.mp hf
    obtain ⟨g, hg⟩ : ∃ g, s.enum? f.type.name = some g := by
      rw [← Option.isSome_iff_exists]
      cases hg : s.enum? f.type.name with
      | none => simp [Check.enumValues, hg] at hr
      | some g => rfl
    obtain ⟨hgm, hgn⟩ := Symbols.enum?_eq_some hg
    have htype := fieldType?_enum hs.distinct hgm hgn.symm
    simp only [Application.userRoles, hfound]
    refine List.mem_flatMap.mpr ⟨buildField s e f, List.mem_filter.mpr ⟨?_, ?_⟩, ?_⟩
    · exact List.mem_map_of_mem hf
    · simpa [buildField, htype] using hrole
    · rw [enumValues_build]
      simpa [buildField, htype] using hr

theorem mem_knownRoles {s : Symbols} {extra : List String} (hs : s.Accepted extra)
    (hn : EntitiesNamed s) {r : String} (h : r ∈ roles s extra) (name : String) :
    r ∈ (build s name).knownRoles extra := by
  simp only [Application.knownRoles, List.mem_append, or_assoc, enumValues_build]
  exact (mem_roles.mp h).imp_right (Or.imp_right (Or.imp_right (mem_userRoles hs hn · name)))

/-! ## Pages and views as a whole -/

theorem page_closed {s : Symbols} {extra : List String} (hs : s.Accepted extra)
    (hn : EntitiesNamed s) {p : BlockDecl} (hp : p ∈ s.pages) (name : String) :
    (buildPage (s.entities.map (buildEntity s)) p).Closed (build s name) extra ∧
      textOf p.props "type" = some (buildPage (s.entities.map (buildEntity s)) p).kind.name := by
  obtain ⟨kind, entity, h⟩ := hs.page hp
  have htype := textOf_type h
  have hentity := textOf_entity hn h.given
  have hkind : (buildPage (s.entities.map (buildEntity s)) p).kind = kind := by
    simp [buildPage, htype, ofName?_name]
  have hname : (buildPage (s.entities.map (buildEntity s)) p).entity =
      (entity.map (·.name)).getD "" := by
    simp [buildPage, hentity]
  refine ⟨⟨?_, ?_, ?_, ?_, ?_, ?_⟩, by rw [htype, hkind]⟩
  · rw [hkind, hname]
    intro hgiven
    cases h.given with
    | @given q e prop found key =>
      exact ⟨buildEntity s e, mem_entities (Symbols.entity?_eq_some found).1, rfl⟩
    | absent prop custom => simp [custom] at hgiven
  · rw [hkind, hname]
    intro hdetails
    cases h.given with
    | @given q e prop found key =>
      have hm := (Symbols.entity?_eq_some found).1
      exact ⟨buildEntity s e, mem_entities hm, rfl,
        hasKey_buildEntity (hs.entity hm) (hn e hm).2 (key hdetails)⟩
    | absent prop custom => cases custom.symm.trans hdetails
  · intro c hc
    rw [hkind, hname]
    simp only [buildPage, htype, hentity, Option.bind_some, ofName?_name, Option.getD_some] at hc
    obtain ⟨hk, e, he, rfl, f, hf, hfn, -⟩ :=
      shown_closed hs h.given (by decide) h.columns (fun e c => mem_stored_names) hc
    exact ⟨hk, buildEntity s e, mem_entities he, rfl, f, hf, hfn⟩
  · intro c hc
    rw [hkind, hname]
    simp only [buildPage, htype, hentity, Option.bind_some, ofName?_name, Option.getD_some] at hc
    obtain ⟨hk, e, he, rfl, f, hf, hfn, hv⟩ :=
      shown_closed hs h.given (by decide) h.fields (fun e c => mem_stored_names) hc
    exact ⟨hk, buildEntity s e, mem_entities he, rfl, f, hf, hfn, hv rfl⟩
  · intro r hr
    apply mem_knownRoles hs hn
    cases hl : lookup p.props "permissions" with
    | none => simp [buildPage, listed, hl] at hr
    | some q =>
      obtain ⟨elems, at_, hv, hall⟩ := checkPermissions_accepted (h.permissions q hl)
      simp only [buildPage, listed, hl, Option.map_some, Option.getD_some, hv] at hr
      refine labels_of_nameOf? (fun v hm => ?_) r hr
      obtain ⟨r, hr, hv⟩ := hall v hm
      exact ⟨r, hv, hr⟩
  · have hroute := route_accepted h.route
    simp only [buildPage]
    rw [hroute.1]
    exact hroute.2

/-- A member of a view is built, under its key, into something that leads to the entity. -/
theorem buildViewField_closed {s : Symbols} {e : EntityDecl} {p : Property}
    (hs : EntityAccepted s e) (h : ViewFieldAccepted s e p.value)
    (kindOf : String → Option TypeKind) (view : String) :
    ∃ f, buildViewField kindOf view p = some f ∧ f.name = p.key ∧
      f.value.Closed (buildEntity s e) := by
  unfold buildViewField
  cases hv : p.value with
  | ident path at_ =>
    rw [hv] at h
    cases h with
    | @ref name f _ found plain =>
      obtain ⟨hf, hname⟩ := findField?_eq_some found
      obtain ⟨t, ht⟩ := hs.field f hf
      refine ⟨_, rfl, rfl, buildField s e f, List.mem_map_of_mem hf, ?_, ?_⟩
      · simp [dotted, buildField, hname]
      · simp [buildField, ht.type, plain t ht.type]
  | string source at_ =>
    rw [hv] at h
    cases h with
    | formula _ parsed accepted =>
      simp only [parsed, Except.toOption, bind, Option.bind]
      exact ⟨_, rfl, rfl, declares_of_accepted accepted kindOf⟩
  | number | boolean | array | object | env | call =>
    rw [hv] at h
    cases h

theorem map_filterMap_of_some {α β γ : Type} {g : α → Option β} {name : β → γ} {key : α → γ}
    {xs : List α} (h : ∀ x ∈ xs, ∃ y, g x = some y ∧ name y = key x) :
    (xs.filterMap g).map name = xs.map key := by
  induction xs with
  | nil => rfl
  | cons x xs ih =>
    obtain ⟨⟨y, hy, hk⟩, hxs⟩ := List.forall_mem_cons.mp h
    rw [List.filterMap_cons_some hy, List.map_cons, List.map_cons, hk, ih hxs]

/-- A view is built member by member, over the entity that was checked. -/
theorem view_built {s : Symbols} {v : BlockDecl} {e : EntityDecl} {members : List Property}
    (h : ViewAccepted s v e members) (hs : s.Distinct) (hn : EntitiesNamed s) :
    e ∈ s.entities ∧ textOf v.props "source" = some e.name ∧
      buildView s v =
        ⟨v.name, e.name, members.filterMap (buildViewField (declaredKind s e) v.name)⟩ := by
  obtain ⟨p, hp, he⟩ := h.source
  obtain ⟨hm, hname⟩ := Symbols.entity?_eq_some he
  obtain ⟨key, q, at_, hf⟩ := h.fields
  have hsource : textOf v.props "source" = some e.name := by
    rw [textOf_of_nameOf hp (hname ▸ (hn e hm).1), hname]
  exact ⟨hm, hsource, by simp [buildView, hsource, hf, hs.entity? hm]⟩

theorem view_closed {s : Symbols} {extra : List String} (hs : s.Accepted extra)
    (hn : EntitiesNamed s) {v : BlockDecl} (hv : v ∈ s.views) (name : String) :
    (buildView s v).Closed (build s name) := by
  obtain ⟨e, members, h⟩ := hs.view hv
  obtain ⟨hm, -, hbuilt⟩ := view_built h hs.distinct hn
  have hmember (r : Property) (hr : r ∈ members) :=
    buildViewField_closed (hs.entity hm) (h.member r hr) (declaredKind s e) v.name
  rw [hbuilt]
  constructor
  · rw [map_filterMap_of_some fun r hr => (hmember r hr).imp fun f hf => ⟨hf.1, hf.2.1⟩]
    exact h.keys
  · refine ⟨buildEntity s e, mem_entities hm, rfl, fun f hmem => ?_⟩
    obtain ⟨r, hr, hfield⟩ := List.mem_filterMap.mp hmem
    obtain ⟨g, hg, -, hclosed⟩ := hmember r hr
    obtain rfl : g = f := Option.some.inj (hg.symm.trans hfield)
    exact hclosed

/-! ## Applications -/

/-- A model built from accepted declarations is closed. -/
theorem build_closed {s : Symbols} {extra : List String} (hs : s.Accepted extra)
    (hn : EntitiesNamed s) (name : String) : (build s name).Closed extra where
  entity_names := by
    rw [build, List.map_map]
    exact hs.distinct.entities
  enum_names := by
    rw [build, List.map_map]
    exact hs.distinct.enums
  page_names := by
    rw [build, List.map_map]
    exact hs.distinct.pages
  view_names := by
    rw [build, List.map_map]
    exact hs.distinct.views
  workflow_names := by
    rw [build, List.map_map]
    exact hs.distinct.workflows
  entity_builtin := List.forall_mem_map.mpr hs.distinct.entity_builtin
  enum_builtin := List.forall_mem_map.mpr hs.distinct.enum_builtin
  entity_enum := List.forall_mem_map.mpr fun e he =>
    List.forall_mem_map.mpr fun g hg => hs.distinct.apart e he g hg
  entity_view := List.forall_mem_map.mpr fun e he => List.forall_mem_map.mpr fun v hv =>
    Symbols.entity?_eq_none (hs.view_apart v hv) e he
  field_names := List.forall_mem_map.mpr fun e he => by
    rw [buildEntity, List.map_map]
    exact (hs.entity he).names
  keys := List.forall_mem_map.mpr fun e he => keySound_buildEntity (hs.entity he)
  fields := List.forall_mem_map.mpr fun e he =>
    List.forall_mem_map.mpr fun f hf => field_closed hs hn he hf name
  formulas := List.forall_mem_map.mpr fun e he => List.forall_mem_map.mpr fun f hf v hv => by
    obtain ⟨⟨source, p⟩, hsource, hv⟩ := Option.bind_eq_some_iff.mp hv
    obtain ⟨formula, hparse, haccepted⟩ := (hs.entity he).formula f hf source p hsource
    simp only [hparse, Except.toOption, bind, Option.bind, Option.some.injEq] at hv
    rw [← hv]
    exact declares_of_accepted haccepted _
  pages := List.forall_mem_map.mpr fun p hp => (page_closed hs hn hp name).1
  routes := by
    have hroutes : (build s name).pages.map (·.route) = s.pages.map routeOf := by
      rw [build, List.map_map]
      refine List.map_congr_left fun p hp => ?_
      obtain ⟨kind, entity, h⟩ := hs.page hp
      exact (route_accepted h.route).1
    rw [hroutes]
    exact hs.routes
  views := List.forall_mem_map.mpr fun v hv => view_closed hs hn hv name
  auth := fun u hu => by
    obtain ⟨a, ha, -⟩ := Option.bind_eq_some_iff.mp hu
    obtain ⟨u', e, hauth, he, huser, -⟩ := auth_built hs hn ha
    obtain rfl : u = u' := Option.some.inj (hu.symm.trans hauth)
    exact ⟨buildEntity s e, mem_entities he, huser.symm⟩

end Scaffold.Build

namespace Scaffold

open Scaffold.Source Scaffold.Check Scaffold.Model Scaffold.Build

/-- What a successful compilation has gone through. -/
theorem compile_ok {path : String} {source : List Text.Rune} {opts : CompileOptions}
    {app : Application} (h : compile path source opts = .ok app) :
    ∃ f, parseSource path source = .ok f ∧ f.Named ∧ Symbols.Accepted ⟨f.decls⟩ opts.roles ∧
      app = build ⟨f.decls⟩ opts.name := by
  unfold compile at h
  split at h
  · cases h
  next f hf =>
    unfold compileFile at h
    split at h
    · cases h
    next c hc =>
      cases h
      obtain ⟨hsymbols, -, haccepted⟩ := validate_accepted hc
      rw [hsymbols] at haccepted ⊢
      exact ⟨f, hf, parseSource_named hf, haccepted, rfl⟩

theorem closed_of_compile {path : String} {source : List Text.Rune} {opts : CompileOptions}
    {app : Application} (h : compile path source opts = .ok app) : app.Closed opts.roles := by
  obtain ⟨f, -, hnamed, haccepted, rfl⟩ := compile_ok h
  exact build_closed haccepted (entitiesNamed_of_named hnamed) opts.name

/-- A compiled application is closed: its names are told apart and lead somewhere. The kind of each
page is the one that the page's declaration spells. -/
theorem compile_closed {path : String} {source : List Text.Rune} {opts : CompileOptions}
    {app : Application} (h : compile path source opts = .ok app) :
    app.Closed opts.roles ∧
      ∃ f, parseSource path source = .ok f ∧ ∀ p ∈ app.pages, ∃ d, Decl.page d ∈ f.decls ∧
        d.name = p.name ∧ textOf d.props "type" = some p.kind.name := by
  obtain ⟨f, hf, hnamed, haccepted, rfl⟩ := compile_ok h
  have hn := entitiesNamed_of_named hnamed
  refine ⟨build_closed haccepted hn opts.name, f, hf, List.forall_mem_map.mpr fun p hp => ?_⟩
  refine ⟨p, ?_, rfl, (page_closed haccepted hn hp opts.name).2⟩
  obtain ⟨d, hd, hpick⟩ := List.mem_filterMap.mp hp
  cases d <;> cases hpick
  exact hd

/-- Posts in threads, each of a level. -/
def threads : List Text.Rune := Text.runes
  "enum Level \x7b A B \x7d entity Post \x7b id: Int primaryKey up: Post level: Level \x7d
  page Show \x7b type: details entity: Post \x7d"

theorem threads_compiles :
    (compile "threads" threads ⟨["EDITOR"], ""⟩).toOption.isSome = true := by
  rw [threads, Text.runes_ofList]
  decide +kernel

theorem compile_threads :
    ∃ app, compile "threads" threads ⟨["EDITOR"], ""⟩ = .ok app ∧ app.Closed ["EDITOR"] ∧
      ∃ f, parseSource "threads" threads = .ok f ∧ ∀ p ∈ app.pages, ∃ d, Decl.page d ∈ f.decls ∧
        d.name = p.name ∧ textOf d.props "type" = some p.kind.name := by
  have hok := threads_compiles
  cases h : compile "threads" threads ⟨["EDITOR"], ""⟩ with
  | error e => simp [h, Except.toOption] at hok
  | ok app => exact ⟨app, rfl, compile_closed h⟩

end Scaffold
