import Scaffold.Proofs.Model.Texts
import Scaffold.Proofs.Output.Written
import Scaffold.Rest.Schema

/-! # A schema without markers

Besides the texts of the application and the words for kinds and cardinalities, a schema has only
generated names. -/
namespace Scaffold.Rest

open Scaffold.Model Scaffold.Output Scaffold.Json
open Scaffold.Text (kebab camel pascal)

/-! ## Parts of a schema -/

theorem bare_resourceField (f : ResourceField) : f.json.Bare ↔ Unmarked f.name ∧
    Unmarked f.type.name ∧ Unmarked f.ref ∧ Unmarked f.cardinality ∧ Unmarked f.relation := by
  simp [ResourceField.json, unmarked_of_colon]

theorem bare_operation (op : Operation) :
    op.json.Bare ↔ Unmarked op.id ∧ Unmarked op.method ∧ Unmarked op.path := by
  simp [Operation.json, unmarked_of_colon]

theorem bare_resource (r : Resource) : r.json.Bare ↔ Unmarked r.name ∧ Unmarked r.path ∧
    Unmarked r.primaryKey ∧ (∀ f ∈ r.fields, f.json.Bare) ∧ ∀ op ∈ r.operations, op.json.Bare := by
  simp [Resource.json, unmarked_of_colon]

theorem bare_viewRoute (v : ViewRoute) : v.json.Bare ↔ Unmarked v.name ∧ Unmarked v.path ∧
    Unmarked v.source ∧ ∀ f ∈ v.fields, f.json.Bare := by
  simp [ViewRoute.json, unmarked_of_colon]

theorem bare_pageAccess (p : PageAccess) : p.json.Bare ↔ Unmarked p.name ∧ Unmarked p.kind ∧
    Unmarked p.route ∧ Unmarked p.title ∧ Unmarked p.entity ∧ Unmarked p.resource ∧
    (∀ t ∈ p.permissions, Unmarked t) ∧ (∀ t ∈ p.columns, Unmarked t) ∧
    (∀ t ∈ p.fields, Unmarked t) ∧ Unmarked p.component := by
  simp [PageAccess.json, unmarked_of_colon]

theorem bare_workflowRef (w : WorkflowRef) :
    w.json.Bare ↔ Unmarked w.name ∧ Unmarked w.event ∧ Unmarked w.handler := by
  simp [WorkflowRef.json, unmarked_of_colon]

theorem bare_schema (s : Schema) : s.json.Bare ↔ Unmarked s.name ∧ Unmarked s.database ∧
    Unmarked s.auth ∧ (∀ r ∈ s.resources, r.json.Bare) ∧ (∀ v ∈ s.views, v.json.Bare) ∧
    (∀ p ∈ s.pages, p.json.Bare) ∧ ∀ w ∈ s.workflows, w.json.Bare := by
  simp [Schema.json, unmarked_of_colon]

/-! ## The schema of an application -/

theorem colon_resourcePath (entity : String) : ':' ∉ (resourcePath entity).toList := by
  simp [resourcePath, colon_plural (colon_kebab entity)]

theorem bare_operationsOf (e : Entity) : ∀ op ∈ operationsOf e, op.json.Bare := by
  simp only [bare_operation]
  unfold operationsOf
  split <;> simp [unmarked_of_colon, colon_resourcePath]

section Parts

variable {a : Application} (ha : a.Bare)
include ha

theorem bare_fieldOf {e : Entity} (he : e ∈ a.entities) {f : Field} (hf : f ∈ e.fields) :
    (fieldOf f).json.Bare := by
  obtain ⟨-, hfields, -⟩ := (bare_entity e).mp (ha.entities e he)
  obtain ⟨hname, htype, -, -, hrelation⟩ := (bare_field f).mp (hfields f hf)
  obtain ⟨hkind, href⟩ := (bare_type f.type).mp htype
  have hcardinality (c : Cardinality) : Unmarked c.name := by
    cases c <;> exact unmarked_of_colon (by decide)
  have hlabel : Unmarked ((f.relation.map (·.cardinality.name)).getD "") ∧
      Unmarked ((f.relation.map (·.name)).getD "") := by
    cases hr : f.relation with
    | none => exact ⟨unmarked_empty, unmarked_empty⟩
    | some r => exact ⟨hcardinality r.cardinality, bare_relation r (hrelation r hr)⟩
  rw [bare_resourceField]
  exact ⟨hname, hkind, href, hlabel⟩

theorem bare_resourceOf {e : Entity} (he : e ∈ a.entities) : (resourceOf e).json.Bare := by
  obtain ⟨hname, -, hkey⟩ := (bare_entity e).mp (ha.entities e he)
  rw [bare_resource]
  exact ⟨hname, unmarked_of_colon (colon_resourcePath e.name), hkey,
    List.forall_mem_map.mpr fun f hf => bare_fieldOf ha he hf, bare_operationsOf e⟩

theorem bare_viewFieldOf {v : View} (hv : v ∈ a.views) {f : ViewField} (hf : f ∈ v.fields) :
    (viewFieldOf a v f).json.Bare := by
  obtain ⟨-, -, hfields⟩ := (bare_view v).mp (ha.views v hv)
  obtain ⟨hname, -, -, hresult, -⟩ := (bare_viewField f).mp (hfields f hf)
  rw [bare_resourceField]
  unfold viewFieldOf
  cases hg : shownField? a v f with
  | none => exact ⟨hname, hresult, unmarked_empty, unmarked_empty, unmarked_empty⟩
  | some g =>
    have hmem : ∃ e ∈ a.entities, g ∈ e.fields := by
      unfold shownField? at hg
      split at hg
      · obtain ⟨e, he, hg⟩ := Option.bind_eq_some_iff.mp hg
        exact ⟨e, List.mem_of_find?_eq_some he, List.mem_of_find?_eq_some hg⟩
      · cases hg
    obtain ⟨e, he, hg⟩ := hmem
    obtain ⟨-, hkind, href, -, -⟩ := (bare_resourceField _).mp (bare_fieldOf ha he hg)
    exact ⟨hname, hkind, href, unmarked_empty, unmarked_empty⟩

theorem bare_viewOf {v : View} (hv : v ∈ a.views) : (viewOf a v).json.Bare := by
  obtain ⟨hname, hsource, -⟩ := (bare_view v).mp (ha.views v hv)
  have hpath : Unmarked ("/api/views/" ++ kebab v.name) := unmarked_of_colon (by simp)
  rw [bare_viewRoute]
  exact ⟨hname, hpath, hsource, List.forall_mem_map.mpr fun f hf => bare_viewFieldOf ha hv hf⟩

theorem bare_pageOf {p : Page} (hp : p ∈ a.pages) : (pageOf p).json.Bare := by
  obtain ⟨hname, hroute, hentity, htitle, hpermissions, hcolumns, hfields, hcomponent⟩ :=
    (bare_page p).mp (ha.pages p hp)
  have hkind : Unmarked p.kind.name := by cases p.kind <;> exact unmarked_of_colon (by decide)
  have hresource : Unmarked (if p.entity = "" then "" else resourcePath p.entity) := by
    split
    · exact unmarked_empty
    · exact unmarked_of_colon (colon_resourcePath p.entity)
  rw [bare_pageAccess]
  exact ⟨hname, hkind, hroute, htitle, hentity, hresource, hpermissions, hcolumns, hfields,
    hcomponent⟩

theorem bare_schemaOf {o : Generator.Options} (hauth : Unmarked o.auth) :
    (schemaOf a o).json.Bare := by
  have hdatabase : Unmarked o.database.name := by
    cases o.database <;> exact unmarked_of_colon (by decide)
  rw [bare_schema]
  refine ⟨ha.name, hdatabase, hauth, List.forall_mem_map.mpr fun e he => bare_resourceOf ha he,
    List.forall_mem_map.mpr fun v hv => bare_viewOf ha hv,
    List.forall_mem_map.mpr fun p hp => bare_pageOf ha hp,
    List.forall_mem_map.mpr fun w hw => ?_⟩
  obtain ⟨hname, hevent, -⟩ := (bare_workflow w).mp (ha.workflows w hw)
  rw [bare_workflowRef]
  exact ⟨hname, hevent, unmarked_handlerName w.name⟩

/-- A printed schema has no region. -/
theorem lays_schema {o : Generator.Options} (hauth : Unmarked o.auth) {text : String}
    (h : (schemaOf a o).json.lines? = some text) : Lays (text ++ "\n") [] := by
  refine lays_line ?_
  unfold Json.lines? at h
  split at h
  · cases h
    exact unmarked_indented true 0 (bare_schemaOf ha hauth)
  · cases h

end Parts

end Scaffold.Rest
