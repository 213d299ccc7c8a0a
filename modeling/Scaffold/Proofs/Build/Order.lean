import Scaffold.Proofs.Build.Closed
import Scaffold.Proofs.Check.Order

/-! # Applications from reordered sources

The builder knows other blocks by their names, as the checks do. The one thing that it takes from
their order is the place of a relation's target among the entities. -/
namespace Scaffold.Model

/-- A relation without the place of its target. -/
def RelationRef.unplaced (r : RelationRef) : RelationRef := { r with targetIndex := 0 }

def Field.unplaced (f : Field) : Field := { f with relation := f.relation.map RelationRef.unplaced }

/-- An entity without the places that its relations lead to. -/
def Entity.unplaced (e : Entity) : Entity := { e with fields := e.fields.map Field.unplaced }

/-- The same members, told apart by their names, in any order. -/
structure SameNamed {α : Type} (name : α → String) (xs ys : List α) : Prop where
  members : xs.Perm ys
  names : (xs.map name).Nodup

/-- Applications that differ in the order of their parts only. The records of relations are left
out: the order of the entities decides which end a record is written from. -/
structure Application.Alike (a b : Application) : Prop where
  name : a.name = b.name
  entities : SameNamed Entity.name (a.entities.map Entity.unplaced) (b.entities.map Entity.unplaced)
  enums : SameNamed Enum.name a.enums b.enums
  pages : SameNamed Page.name a.pages b.pages
  views : SameNamed View.name a.views b.views
  workflows : SameNamed Workflow.name a.workflows b.workflows
  config : a.config = b.config

theorem Entity.storedFields_unplaced (e : Entity) :
    e.unplaced.storedFields = e.storedFields.map Field.unplaced := by
  simp only [Entity.storedFields, Entity.unplaced, List.filter_map]
  rfl

end Scaffold.Model

namespace Scaffold.Build

open Scaffold.Source Scaffold.Check Scaffold.Model

theorem defaultColumns_unplaced (e : Entity) : defaultColumns e.unplaced = defaultColumns e := by
  simp only [defaultColumns, Entity.storedFields_unplaced, List.filter_map, List.map_map]
  rfl

theorem defaultFormFields_unplaced (e : Entity) :
    defaultFormFields e.unplaced = defaultFormFields e := by
  simp only [defaultFormFields, Entity.storedFields_unplaced, List.filter_map, List.map_map]
  rfl

/-- A page reads names and types of an entity's fields, not where its relations lead. -/
theorem buildPage_unplaced (entities : List Entity) (p : BlockDecl) :
    buildPage (entities.map Entity.unplaced) p = buildPage entities p := by
  have hfind (n : String) : (entities.map Entity.unplaced).find? (·.name == n) =
      (entities.find? (·.name == n)).map Entity.unplaced := List.find?_map ..
  have hcolumns : defaultColumns ∘ Entity.unplaced = defaultColumns :=
    funext defaultColumns_unplaced
  have hfields : defaultFormFields ∘ Entity.unplaced = defaultFormFields :=
    funext defaultFormFields_unplaced
  simp only [buildPage, hfind, Option.map_map, hcolumns, hfields]

section Alike

variable {s s' : Symbols} (h : s.Alike s')
include h

theorem inverse?_alike : inverse? s = inverse? s' := by
  have hleads : leadsTo s = leadsTo s' := by
    funext target f
    simp only [leadsTo, h.fieldType?]
  funext owner f
  simp only [inverse?, h.entity?, hleads]

theorem relationRef_alike (owner : EntityDecl) (f : FieldDecl) :
    (relationRef s owner f).unplaced = (relationRef s' owner f).unplaced := by
  simp only [RelationRef.unplaced, relationRef, inverse?_alike h]

theorem declaredKind_alike : declaredKind s = declaredKind s' := by
  funext e name
  simp only [declaredKind, h.fieldType?]

theorem buildEntity_alike (e : EntityDecl) :
    (buildEntity s e).unplaced = (buildEntity s' e).unplaced := by
  have hvirtual : buildVirtual s = buildVirtual s' := by
    funext e f
    simp only [buildVirtual, declaredKind_alike h]
  have hfield (f : FieldDecl) : (buildField s e f).unplaced = (buildField s' e f).unplaced := by
    have hrelation (c : Prop) [Decidable c] :
        (if c then some (relationRef s e f) else none).map RelationRef.unplaced =
          (if c then some (relationRef s' e f) else none).map RelationRef.unplaced := by
      split
      · exact congrArg some (relationRef_alike h e f)
      · rfl
    simp only [Field.unplaced, buildField, h.fieldType?, hvirtual, hrelation]
  simp only [Entity.unplaced, buildEntity, List.map_map, Function.comp_def, hfield]

theorem buildView_alike : buildView s = buildView s' := by
  funext v
  simp only [buildView, h.entity?, declaredKind_alike h]

theorem buildConfig_alike : buildConfig s = buildConfig s' := by
  have hprops : integrationProps s = integrationProps s' := by
    funext block
    simp only [integrationProps, h.integrations]
  simp only [buildConfig, h.root, h.auth, hprops]

/-- From blocks in another order comes the same application, up to order. -/
theorem build_alike (hp : s.decls.Perm s'.decls) (hs : s.Distinct) (name : String) :
    (build s name).Alike (build s' name) := by
  have hentities : ((build s name).entities.map Entity.unplaced).Perm
      ((build s' name).entities.map Entity.unplaced) := by
    simp only [build, List.map_map]
    rw [show Entity.unplaced ∘ buildEntity s = Entity.unplaced ∘ buildEntity s' from
      funext (buildEntity_alike h)]
    exact (hp.filterMap _).map _
  have hnames : (((build s name).entities.map Entity.unplaced).map (·.name)).Nodup := by
    simp only [build, List.map_map]
    exact hs.entities
  have hpage : buildPage (build s name).entities = buildPage (build s' name).entities := by
    funext p
    rw [← buildPage_unplaced, ← buildPage_unplaced (build s' name).entities]
    have hfind (n : String) := find?_perm hentities hnames n
    simp only [buildPage, hfind]
  constructor
  case name => simp only [build, applicationName, h.root]
  case entities => exact ⟨hentities, hnames⟩
  case enums =>
    refine ⟨(hp.filterMap _).map _, ?_⟩
    simp only [build, List.map_map]
    exact hs.enums
  case pages =>
    refine ⟨?_, ?_⟩
    · change (s.pages.map (buildPage (build s name).entities)).Perm
        (s'.pages.map (buildPage (build s' name).entities))
      rw [hpage]
      exact (hp.filterMap _).map _
    · simp only [build, List.map_map]
      exact hs.pages
  case views =>
    refine ⟨?_, ?_⟩
    · simp only [build, buildView_alike h]
      exact (hp.filterMap _).map _
    · simp only [build, List.map_map]
      exact hs.views
  case workflows =>
    refine ⟨(hp.filterMap _).map _, ?_⟩
    simp only [build, List.map_map]
    exact hs.workflows
  case config => exact buildConfig_alike h

end Alike

end Scaffold.Build

namespace Scaffold

open Scaffold.Source Scaffold.Check Scaffold.Model Scaffold.Build

/-- Files may be merged in any order. -/
theorem merge_perm {files files' : List File} (hp : files.Perm files') :
    (File.merge files).decls.Perm (File.merge files').decls := hp.flatMap_right _

/-- The order of the blocks does not matter: a source is accepted in every order or in none, with
the same roles and, up to order, the same application. So files can be merged in any order. -/
theorem validate_any_order {f f' : File} (hp : f.decls.Perm f'.decls) (extra : List String)
    (name : String) :
    ((∃ c, validate f extra = .ok c) ↔ ∃ c', validate f' extra = .ok c') ∧
    (∀ c c', validate f extra = .ok c → validate f' extra = .ok c' →
      c.roles = c'.roles ∧ (build c.symbols name).Alike (build c'.symbols name)) ∧
    ∀ files files' : List File, files.Perm files' →
      ((∃ c, validate (File.merge files) extra = .ok c) ↔
        ∃ c', validate (File.merge files') extra = .ok c') := by
  have hiff {g g' : File} (hg : g.decls.Perm g'.decls) :
      (∃ c, validate g extra = .ok c) ↔ ∃ c', validate g' extra = .ok c' := by
    constructor
    · rintro ⟨c, hc⟩
      obtain ⟨c', hc', -⟩ := validate_perm hg hc
      exact ⟨c', hc'⟩
    · rintro ⟨c, hc⟩
      obtain ⟨c', hc', -⟩ := validate_perm hg.symm hc
      exact ⟨c', hc'⟩
  refine ⟨hiff hp, fun c c' hc hc' => ?_, fun files files' hfiles => hiff (merge_perm hfiles)⟩
  obtain ⟨c₂, hc₂, hroles, halike⟩ := validate_perm hp hc
  cases hc'.symm.trans hc₂
  obtain ⟨hs, -, hacc⟩ := validate_accepted hc
  obtain ⟨hs', -, -⟩ := validate_accepted hc'
  refine ⟨hroles.symm, build_alike halike ?_ hacc.distinct name⟩
  rw [hs, hs']
  exact hp

/-- A page before its entity, and an entity before the one that it refers to. The positions are
all the same. -/
def essays : File := ⟨"essays", [
  .page ⟨⟨"Essays", .start, "essays"⟩, [
    ⟨"type", .start, .ident ["table"] .start⟩,
    ⟨"entity", .start, .ident ["Essay"] .start⟩]⟩,
  .entity ⟨⟨"Essay", .start, "essays"⟩, [
    ⟨"id", .start, ⟨"Int", false, .start⟩, [.primaryKey]⟩,
    ⟨"by", .start, ⟨"Writer", false, .start⟩, []⟩]⟩,
  .entity ⟨⟨"Writer", .start, "essays"⟩, [
    ⟨"id", .start, ⟨"Int", false, .start⟩, [.primaryKey]⟩,
    ⟨"essays", .start, ⟨"Essay", true, .start⟩, []⟩]⟩]⟩

/-- The blocks of a file from back to front. -/
def backwards (f : File) : File := ⟨f.path, f.decls.reverse⟩

theorem essays_accepted : (validate essays []).toOption.isSome = true ∧
    (validate (backwards essays) []).toOption.isSome = true := by
  decide +kernel

theorem validate_essays : ∃ c c', validate essays [] = .ok c ∧
    validate (backwards essays) [] = .ok c' ∧ c.roles = c'.roles ∧
      (build c.symbols "").Alike (build c'.symbols "") := by
  obtain ⟨hok, hok'⟩ := essays_accepted
  cases hc : validate essays [] with
  | error ds => simp [hc, Except.toOption] at hok
  | ok c =>
    cases hc' : validate (backwards essays) [] with
    | error ds => simp [hc', Except.toOption] at hok'
    | ok c' =>
      have hp : essays.decls.Perm (backwards essays).decls := essays.decls.reverse_perm.symm
      obtain ⟨-, hagree, -⟩ := validate_any_order hp [] ""
      exact ⟨c, c', rfl, rfl, hagree c c' hc hc'⟩

end Scaffold
