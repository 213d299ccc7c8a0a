import Scaffold.Model.Encode
import Scaffold.Proofs.Json.Bare
import Scaffold.Proofs.Storage.Names
import Scaffold.Server.Records

/-! # Names and texts of an application

A generated name is made of the letters and digits of the names in the source, and no marker is
without a colon. The texts of an application are those of its JSON, so that no text of it has a
marker exactly when no text of its parts has one. -/
namespace Scaffold.Model

open Scaffold.Output Scaffold.Json
open Scaffold.Text (pascal camel snake kebab)

/-! ## Generated names -/

@[simp] theorem colon_pascal (s : String) : ':' ∉ (pascal s).toList :=
  fun h => Text.pascal_chars s _ h (by decide)

@[simp] theorem colon_camel (s : String) : ':' ∉ (camel s).toList :=
  fun h => Text.camel_chars s _ h (by decide)

@[simp] theorem colon_kebab (s : String) : ':' ∉ (kebab s).toList :=
  fun h => (Text.kebab_chars s _ h).elim (by decide) fun hmark => hmark (by decide)

@[simp] theorem colon_snake (s : String) : ':' ∉ (snake s).toList :=
  fun h => (Text.snake_chars s _ h).elim (by decide) fun hmark => hmark (by decide)

theorem colon_plural {s : String} (h : ':' ∉ s.toList) : ':' ∉ (Storage.plural s).toList :=
  fun hc => (Storage.mem_plural hc).elim h (by decide)

@[simp] theorem colon_tableName (entity : String) : ':' ∉ (Storage.tableName entity).toList :=
  colon_plural (colon_snake entity)

@[simp] theorem colon_memberName (column : String) : ':' ∉ (Server.memberName column).toList := by
  unfold Server.memberName
  dsimp only
  split
  · have hstem : ':' ∉ (pascal column).toList.take ((pascal column).length - 2) :=
      fun h => colon_pascal column (List.mem_of_mem_take h)
    simpa using hstem
  · exact colon_pascal column

theorem unmarked_pascal (s : String) : Unmarked (pascal s) := unmarked_of_colon (colon_pascal s)

theorem unmarked_camel (s : String) : Unmarked (camel s) := unmarked_of_colon (colon_camel s)

theorem unmarked_snake (s : String) : Unmarked (snake s) := unmarked_of_colon (colon_snake s)

theorem unmarked_resolverName (owner field : String) : Unmarked (resolverName owner field) :=
  unmarked_of_colon (by simp [resolverName])

theorem unmarked_enumConstName (enum value : String) : Unmarked (enumConstName enum value) :=
  unmarked_of_colon (by simp [enumConstName])

theorem unmarked_handlerName (workflow : String) : Unmarked (handlerName workflow) :=
  unmarked_of_colon (by simp [handlerName])

/-! ## Texts -/

/-- The texts of an application besides those of its configuration. -/
def Application.texts (a : Application) : List String :=
  a.name :: (a.entities.map Entity.json ++ a.enums.map Enum.json ++ a.pages.map Page.json ++
    a.views.map View.json ++ a.workflows.map Workflow.json).flatMap Json.texts

/-- No text of the parts of an application has a marker. -/
structure Application.Bare (a : Application) : Prop where
  name : Unmarked a.name
  entities : ∀ e ∈ a.entities, e.json.Bare
  enums : ∀ e ∈ a.enums, e.json.Bare
  pages : ∀ p ∈ a.pages, p.json.Bare
  views : ∀ v ∈ a.views, v.json.Bare
  workflows : ∀ w ∈ a.workflows, w.json.Bare

theorem Application.bare_of_texts {a : Application} (h : ∀ t ∈ a.texts, Unmarked t) : a.Bare := by
  simp only [Application.texts, List.forall_mem_cons, List.forall_mem_flatMap,
    List.forall_mem_append, List.forall_mem_map] at h
  obtain ⟨hname, ⟨⟨⟨hentities, henums⟩, hpages⟩, hviews⟩, hworkflows⟩ := h
  exact ⟨hname, hentities, henums, hpages, hviews, hworkflows⟩

/-! ## Entities -/

theorem bare_entity (e : Entity) : e.json.Bare ↔
    Unmarked e.name ∧ (∀ f ∈ e.fields, f.json.Bare) ∧ Unmarked e.primaryKey := by
  simp [Entity.json, unmarked_of_colon]

theorem bare_type (t : FieldType) : t.json.Bare ↔ Unmarked t.kind.name ∧ Unmarked t.ref := by
  simp [FieldType.json, unmarked_of_colon]

theorem bare_field (f : Field) : f.json.Bare ↔ Unmarked f.name ∧ f.type.json.Bare ∧
    (∀ d, f.default = some d → d.json.Bare) ∧ (∀ v, f.virtual = some v → v.json.Bare) ∧
    ∀ r, f.relation = some r → r.json.Bare := by
  simp [Field.json, unmarked_of_colon]

theorem bare_literal (v : Json) : (Default.literal v).json.Bare ↔ v.Bare := by
  simp [Default.json, unmarked_of_colon]

theorem bare_relation (r : RelationRef) : r.json.Bare → Unmarked r.name := by
  simp +contextual [RelationRef.json]

theorem bare_virtual (v : Virtual) :
    v.json.Bare → Unmarked v.source ∧ Unmarked v.resolver ∧ v.expr.json.Bare := by
  simp +contextual [Virtual.json]

theorem bare_binary (op : Source.Operator) (left right : Expr) (type : TypeKind) :
    (Expr.binary op left right type).json.Bare → left.json.Bare ∧ right.json.Bare := by
  simp +contextual [Expr.json]

theorem bare_exprLiteral (type : TypeKind) (value : String) :
    (Expr.literal type value).json.Bare → Unmarked value := by
  simp +contextual [Expr.json]

/-! ## Other blocks -/

theorem bare_enum (e : Enum) : e.json.Bare ↔ Unmarked e.name ∧ ∀ v ∈ e.values, Unmarked v := by
  simp [Enum.json, unmarked_of_colon]

theorem bare_viewField (f : ViewField) : f.json.Bare ↔ Unmarked f.name ∧
    (∀ name, f.value = .ref name → Unmarked name) ∧
    (∀ source e, f.value = .formula source e → Unmarked source ∧ e.json.Bare) ∧
    Unmarked f.resultType.name ∧ Unmarked f.resolver := by
  cases hf : f.value <;> simp [ViewField.json, hf, unmarked_of_colon, and_assoc]

theorem bare_view (v : View) : v.json.Bare ↔
    Unmarked v.name ∧ Unmarked v.source ∧ ∀ f ∈ v.fields, f.json.Bare := by
  simp [View.json, unmarked_of_colon]

theorem bare_page (p : Page) : p.json.Bare ↔ Unmarked p.name ∧ Unmarked p.route ∧
    Unmarked p.entity ∧ Unmarked p.title ∧ (∀ t ∈ p.permissions, Unmarked t) ∧
    (∀ t ∈ p.columns, Unmarked t) ∧ (∀ t ∈ p.fields, Unmarked t) ∧ Unmarked p.component := by
  have hkind : Unmarked p.kind.name := by cases p.kind <;> exact unmarked_of_colon (by decide)
  simp [Page.json, unmarked_of_colon, hkind]

/-- No text of an input has a marker. -/
def InputValue.Bare : InputValue → Prop
  | .literal value => value.Bare
  | .trigger path => ∀ t ∈ path, Unmarked t
  | .env name => Unmarked name

theorem bare_input (i : Input) : i.json.Bare ↔ Unmarked i.key ∧ i.value.Bare := by
  cases hi : i.value <;> simp [Input.json, hi, InputValue.Bare, unmarked_of_colon]

theorem bare_step (s : WorkflowStep) :
    s.json.Bare ↔ Unmarked s.action ∧ ∀ i ∈ s.inputs, i.json.Bare := by
  simp [WorkflowStep.json, unmarked_of_colon]

theorem bare_workflow (w : Workflow) :
    w.json.Bare ↔ Unmarked w.name ∧ Unmarked w.event ∧ ∀ s ∈ w.steps, s.json.Bare := by
  simp [Workflow.json, unmarked_of_colon]

end Scaffold.Model
