import Scaffold.Proofs.Build.Closed
import Scaffold.Proofs.Check.Clash
import Scaffold.Proofs.Lists

/-! # Nothing is dropped

Both the first pass and the readers of properties leave out what they cannot use. What a check has
passed they can use, so a compiled application has one part for each declaration, in source order,
and each part has all that was declared of it. -/
namespace Scaffold.Check

open Scaffold.Source Scaffold.Model

/-! ## Declarations -/

/-- The blocks that count are those of the source: of each kind in source order, and of the
configuration each in its place. -/
structure Symbols.Collects (s : Symbols) (ds : List Decl) : Prop where
  entities : s.entities.map .entity = ds.filter (·.kind = .entity)
  enums : s.enums.map .enum = ds.filter (·.kind = .enum)
  pages : s.pages.map .page = ds.filter (·.kind = .page)
  views : s.views.map .view = ds.filter (·.kind = .view)
  workflows : s.workflows.map .workflow = ds.filter (·.kind = .workflow)
  configs : ((s.root.toList ++ s.auth.toList ++ s.integrations.toList).map .config).Perm
    (ds.filter (·.kind = .config))
  root : ∀ d, s.root = some d → d.name = ""
  auth : ∀ d, s.auth = some d → d.name = "auth"
  integrations : ∀ d, s.integrations = some d → d.name = "integrations"

/-- The blocks of one kind, put back among the declarations. -/
theorem map_filterMap_kind {α : Type} {pick : Decl → Option α} {block : α → Decl}
    {kind : DeclKind} (hpick : ∀ d, (pick d).map block = if d.kind = kind then some d else none)
    (ds : List Decl) : (ds.filterMap pick).map block = ds.filter (·.kind = kind) := by
  induction ds with
  | nil => rfl
  | cons d ds ih =>
    have hd := hpick d
    cases hp : pick d with
    | none =>
      rw [hp, Option.map_none] at hd
      have hk : d.kind ≠ kind := fun hk => by simp [hk] at hd
      rw [List.filterMap_cons_none hp, ih, List.filter_cons_of_neg (by simpa using hk)]
    | some x =>
      rw [hp, Option.map_some] at hd
      have hk : d.kind = kind := by
        by_contra hk
        simp [hk] at hd
      rw [if_pos hk, Option.some.injEq] at hd
      rw [List.filterMap_cons_some hp, List.map_cons, ih, hd,
        List.filter_cons_of_pos (by simpa using hk)]

/-- Names lead to all members of a list, each once, when these are told apart by their names and
have no other names. -/
theorem flatMap_find?_perm {α : Type} {name : α → String} {xs : List α} {names : List String}
    (hnames : names.Nodup) (hxs : (xs.map name).Nodup) (hall : ∀ x ∈ xs, name x ∈ names) :
    (names.flatMap fun n => (xs.find? (name · == n)).toList).Perm xs := by
  have hfound {n : String} {x : α} (h : x ∈ (xs.find? (name · == n)).toList) :
      x ∈ xs ∧ name x = n := by
    rw [Option.mem_toList] at h
    exact ⟨List.mem_of_find?_eq_some h, by simpa using List.find?_some h⟩
  apply (List.perm_ext_iff_of_nodup ?_ hxs.of_map).mpr
  · intro x
    rw [List.mem_flatMap]
    constructor
    · rintro ⟨n, -, h⟩
      exact (hfound h).1
    · intro hx
      exact ⟨name x, hall x hx, Option.mem_toList.mpr (find?_name hxs hx)⟩
  · rw [List.nodup_flatMap]
    constructor
    · intro n _
      cases xs.find? (name · == n) <;> simp
    · refine hnames.imp fun hne x hm hn => ?_
      exact hne ((hfound hm).2.symm.trans (hfound hn).2)

theorem Declarable.collects {ds : List Decl} (h : Declarable ds) : Symbols.Collects ⟨ds⟩ ds := by
  constructor
  case entities => exact map_filterMap_kind (fun d => by cases d <;> rfl) ds
  case enums => exact map_filterMap_kind (fun d => by cases d <;> rfl) ds
  case pages => exact map_filterMap_kind (fun d => by cases d <;> rfl) ds
  case views => exact map_filterMap_kind (fun d => by cases d <;> rfl) ds
  case workflows => exact map_filterMap_kind (fun d => by cases d <;> rfl) ds
  case configs =>
    have hconfigs : (Symbols.configs ⟨ds⟩).map .config = ds.filter (·.kind = .config) :=
      map_filterMap_kind (fun d => by cases d <;> rfl) ds
    have hperm : (["", "auth", "integrations"].flatMap fun n =>
        (Symbols.config? ⟨ds⟩ n).toList).Perm (Symbols.configs ⟨ds⟩) := by
      refine flatMap_find?_perm (by decide)
        (nodup_names (fun d x hx => by cases d <;> cases hx; rfl) h.slots) fun d hd => ?_
      obtain ⟨c, hc, hpick⟩ := List.mem_filterMap.mp hd
      cases c <;> cases hpick
      simpa [Admissible] using h.admissible _ hc
    rw [← hconfigs]
    simpa [Symbols.root, Symbols.auth, Symbols.integrations] using hperm.map Decl.config
  all_goals exact fun d hd => by simpa using List.find?_some hd

end Scaffold.Check

namespace Scaffold.Build

open Scaffold.Source Scaffold.Check Scaffold.Model

/-! ## Parts of an application -/

/-- A field as it was declared: name, flags, default and the text of its formula. -/
structure FieldKept (f : FieldDecl) (x : Field) : Prop where
  name : x.name = f.name
  primaryKey : x.primaryKey = f.primaryKey
  unique : x.unique = f.unique
  optional : x.optional = f.optional
  default : x.default = f.default.map buildDefault
  formula : x.virtual.map (·.source) = (formulaSource? f).map (·.1)

structure EntityKept (e : EntityDecl) (x : Entity) : Prop where
  name : x.name = e.name
  fields : List.Forall₂ FieldKept e.fields x.fields

structure EnumKept (e : EnumDecl) (x : Enum) : Prop where
  name : x.name = e.name
  values : x.values = e.values.map (·.name)

/-- Where a property is given, it lists these names, one for each entry. -/
def ListedAs (props : List Property) (key : String) (names : List String) : Prop :=
  ∀ q, lookup props key = some q → ∃ elems at_, q.value = .array elems at_ ∧
    List.Forall₂ (fun v n => nameOf? v = some n) elems names

structure PageKept (p : BlockDecl) (x : Page) : Prop where
  name : x.name = p.name
  permissions : ListedAs p.props "permissions" x.permissions
  columns : ListedAs p.props "columns" x.columns
  fields : ListedAs p.props "fields" x.fields

/-- A member of a view under its key: the field that it names, or its formula. -/
inductive ViewFieldKept : Property → ViewField → Prop
  | ref (key name : String) (p q : Pos) (kind : TypeKind) (resolver : String) :
    ViewFieldKept ⟨key, p, .ident [name] q⟩ ⟨key, .ref name, kind, resolver⟩
  | formula (key source : String) (p q : Pos) (expr : Expr) (kind : TypeKind)
      (resolver : String) :
    ViewFieldKept ⟨key, p, .string source q⟩ ⟨key, .formula source expr, kind, resolver⟩

structure ViewKept (v : BlockDecl) (x : View) : Prop where
  name : x.name = v.name
  fields : ∃ key p members at_, lookup v.props "fields" = some ⟨key, p, .object members at_⟩ ∧
    List.Forall₂ ViewFieldKept members x.fields

structure StepKept (st : StepDecl) (x : WorkflowStep) : Prop where
  action : x.action = st.action
  inputs : List.Forall₂ (fun p y => y.key = p.key) st.inputs x.inputs

structure WorkflowKept (w : WorkflowDecl) (x : Workflow) : Prop where
  name : x.name = w.name
  event : textOf w.props "trigger" = some x.event
  steps : List.Forall₂ StepKept w.steps x.steps

/-- Whether an integration is declared. -/
def Integrates (s : Symbols) (block : ProviderBlock) : Prop :=
  ∃ d p, s.integrations = some d ∧ lookup d.props block.name = some p

/-- What is configured is what the source has a block for. -/
structure ConfigKept (s : Symbols) (x : Config) : Prop where
  database : ∀ r p, s.root = some r → lookup r.props "db" = some p →
    x.database.name = nameOf p.value
  auth : x.auth.isSome = s.auth.isSome
  email : x.email.isSome = true ↔ Integrates s .email
  monitoring : x.monitoring.isSome = true ↔ Integrates s .monitoring

/-- One part for each declaration, in order, with all that was declared of it. -/
structure Keeps (s : Symbols) (a : Application) : Prop where
  entities : List.Forall₂ EntityKept s.entities a.entities
  enums : List.Forall₂ EnumKept s.enums a.enums
  pages : List.Forall₂ PageKept s.pages a.pages
  views : List.Forall₂ ViewKept s.views a.views
  workflows : List.Forall₂ WorkflowKept s.workflows a.workflows
  config : ConfigKept s a.config

/-! ## Lists that are read -/

theorem listedAs_labels {props : List Property} {key : String} {preset : List String}
    (h : ∀ q, lookup props key = some q → ∃ elems at_, q.value = .array elems at_ ∧
      ∀ v ∈ elems, ∃ n, nameOf? v = some n) :
    ListedAs props key ((listed props key).getD preset) := by
  intro q hq
  obtain ⟨elems, at_, hv, hnames⟩ := h q hq
  refine ⟨elems, at_, hv, ?_⟩
  simp only [listed, hq, Option.map_some, Option.getD_some, hv, labels]
  apply forall₂_filterMap
  intro v hm
  obtain ⟨n, hn⟩ := hnames v hm
  exact ⟨n, label?_of_nameOf? hn, hn⟩

/-! ## What the builder keeps -/

theorem fieldKept_build {s : Symbols} {e : EntityDecl} (he : EntityAccepted s e) {f : FieldDecl}
    (hf : f ∈ e.fields) : FieldKept f (buildField s e f) := by
  constructor
  case default =>
    obtain ⟨t, ht⟩ := he.field f hf
    cases hc : isComputed f with
    | false => simp [buildField, hc]
    | true => simp [buildField, hc, (ht.computed hc).2.2]
  case formula =>
    simp only [buildField, buildVirtual]
    cases hs : formulaSource? f with
    | none => rfl
    | some sp =>
      obtain ⟨formula, hparse, -⟩ := he.formula f hf sp.1 sp.2 hs
      simp [hparse, Except.toOption]
  all_goals rfl

theorem pageKept_build {s : Symbols} {known : List String} {p : BlockDecl} {kind : PageKind}
    {entity : Option EntityDecl} (h : PageAccepted s known p kind entity)
    (entities : List Entity) : PageKept p (buildPage entities p) := by
  -- A list of fields is given on a page of its kind only, and such a page has an entity.
  have hlisted {key : String} {only : PageKind} {editable : Bool} (honly : only ≠ .custom)
      (hcheck : checkListed (pageSite p) p p.props (some kind) entity key only editable = [])
      (q : Property) (hq : lookup p.props key = some q) :
      ∃ elems at_, q.value = .array elems at_ ∧ ∀ v ∈ elems, ∃ n, nameOf? v = some n := by
    obtain ⟨hkind, hlist⟩ := checkListed_accepted hcheck hq
    cases h.given with
    | absent prop custom => exact absurd (hkind.symm.trans custom) honly
    | given prop found key =>
      obtain ⟨elems, at_, hv, hall⟩ := checkFieldList_accepted (hlist _ rfl)
      refine ⟨elems, at_, hv, fun v hm => ?_⟩
      obtain ⟨n, -, hn, -⟩ := hall v hm
      exact ⟨n, hn⟩
  constructor
  case name => rfl
  case permissions =>
    apply listedAs_labels
    intro q hq
    obtain ⟨elems, at_, hv, hall⟩ := checkPermissions_accepted (h.permissions q hq)
    refine ⟨elems, at_, hv, fun v hm => ?_⟩
    obtain ⟨n, -, hn⟩ := hall v hm
    exact ⟨n, hn⟩
  case columns => exact listedAs_labels (hlisted (by decide) h.columns)
  case fields => exact listedAs_labels (hlisted (by decide) h.fields)

theorem viewFieldKept_build {s : Symbols} {e : EntityDecl} {p : Property}
    (h : ViewFieldAccepted s e p.value) (kindOf : String → Option TypeKind) (view : String) :
    ∃ y, buildViewField kindOf view p = some y ∧ ViewFieldKept p y := by
  obtain ⟨key, at_, value⟩ := p
  cases h with
  | ref q found plain => exact ⟨_, rfl, .ref ..⟩
  | formula q parsed accepted =>
    simp only [buildViewField, parsed, Except.toOption, Option.bind_eq_bind, Option.bind_some]
    exact ⟨_, rfl, .formula ..⟩

theorem viewKept_build {s : Symbols} {v : BlockDecl} (h : checkView s v = []) :
    ViewKept v (buildView s v) := by
  obtain ⟨e, members, hv⟩ := checkView_accepted h
  obtain ⟨key, p, at_, hl⟩ := hv.fields
  refine ⟨rfl, key, p, members, at_, hl, ?_⟩
  simp only [buildView, hl]
  exact forall₂_filterMap fun r hr => viewFieldKept_build (hv.member r hr) _ _

theorem workflowKept_build {w : WorkflowDecl} (h : checkWorkflow w = []) :
    WorkflowKept w (buildWorkflow w) := by
  constructor
  case name => rfl
  case event =>
    simp only [checkWorkflow, List.append_eq_nil_iff] at h
    obtain ⟨⟨⟨hprops, htrigger⟩, -⟩, -⟩ := h
    rw [(checkProps_accepted hprops).1] at htrigger
    unfold checkTrigger at htrigger
    cases hp : lookup w.props "trigger" with
    | none => simp [hp] at htrigger
    | some p => simp [buildWorkflow, textOf, hp]
  case steps => exact forall₂_map fun st _ => ⟨rfl, forall₂_map fun p _ => by
    unfold buildInput
    split <;> rfl⟩

/-! ## Configuration -/

/-- The provider of a checked block is one of the table, and the builder reads the same name. -/
theorem provider_accepted {s : Symbols} {site : Site} {block : ProviderBlock} {at_ : Pos}
    {props : List Property} (h : checkProviderBlock s site block at_ props = []) :
    ∃ provider ∈ providers block, textOf props "provider" = some provider := by
  obtain ⟨schema, hmem, hblock, hacc⟩ := checkProviderBlock_accepted h
  obtain ⟨p, hp, hname⟩ := hacc.provider
  have hprovider : schema.provider ∈ providers block :=
    List.mem_map_of_mem (List.mem_filter.mpr ⟨hmem, by simpa using hblock⟩)
  have hne : schema.provider ≠ "" := by
    have hall : ∀ schema ∈ ProviderSchema.all, schema.provider ≠ "" := by decide
    exact hall schema hmem
  refine ⟨schema.provider, hprovider, ?_⟩
  rw [← hname] at hne ⊢
  exact textOf_of_nameOf hp hne

theorem isSome_buildAuth {props : List Property} {provider : String}
    (h : provider ∈ providers .auth) (hp : textOf props "provider" = some provider) :
    (buildAuth props).isSome = true := by
  have hcases : provider = "jwt" ∨ provider = "clerk" ∨ provider = "auth0" := by
    simpa [providers, ProviderSchema.all] using h
  simp only [buildAuth, hp, Option.getD_some]
  rcases hcases with rfl | rfl | rfl <;> rfl

theorem isSome_buildEmail {props : List Property} {provider : String}
    (h : provider ∈ providers .email) (hp : textOf props "provider" = some provider) :
    (buildEmail props).isSome = true := by
  have hcases : provider = "sendgrid" ∨ provider = "smtp" ∨ provider = "resend" := by
    simpa [providers, ProviderSchema.all] using h
  simp only [buildEmail, hp, Option.getD_some]
  rcases hcases with rfl | rfl | rfl <;> rfl

theorem isSome_buildMonitoring {props : List Property} {provider : String}
    (h : provider ∈ providers .monitoring) (hp : textOf props "provider" = some provider) :
    (buildMonitoring props).isSome = true := by
  have hcases : provider = "sentry" ∨ provider = "datadog" := by
    simpa [providers, ProviderSchema.all] using h
  simp only [buildMonitoring, hp, Option.getD_some]
  rcases hcases with rfl | rfl <;> rfl

/-- The properties of an integration that is declared, with its provider. -/
theorem integration_accepted {s : Symbols} (h : checkConfig s = []) {block : ProviderBlock}
    (hblock : block = .email ∨ block = .monitoring) (hi : Integrates s block) :
    ∃ members provider, integrationProps s block = some members ∧
      provider ∈ providers block ∧ textOf members "provider" = some provider := by
  obtain ⟨d, p, hd, hp⟩ := hi
  have hone := (integrations_checked h hd).2.2 block (by simpa using hblock)
  simp only [checkIntegration, hp] at hone
  split at hone
  next heq => cases heq
  next key pos members at_ heq =>
    cases heq
    obtain ⟨provider, hmem, htext⟩ := provider_accepted hone
    refine ⟨members, provider, ?_, hmem, htext⟩
    simp [integrationProps, hd, hp]
  next => cases hone

theorem integrates_of_props {s : Symbols} {block : ProviderBlock} {members : List Property}
    (h : integrationProps s block = some members) : Integrates s block := by
  obtain ⟨d, hd, h⟩ := Option.bind_eq_some_iff.mp h
  obtain ⟨p, hp, -⟩ := Option.bind_eq_some_iff.mp h
  exact ⟨d, p, hd, hp⟩

/-- An integration is built when it is declared, by a builder that knows its providers. -/
theorem isSome_integration {α : Type} {s : Symbols} (h : checkConfig s = [])
    {block : ProviderBlock} (hblock : block = .email ∨ block = .monitoring)
    {build : List Property → Option α}
    (hbuild : ∀ props provider, provider ∈ providers block →
      textOf props "provider" = some provider → (build props).isSome = true) :
    ((integrationProps s block).bind build).isSome = true ↔ Integrates s block := by
  constructor
  · intro hsome
    obtain ⟨x, hx⟩ := Option.isSome_iff_exists.mp hsome
    obtain ⟨members, hmembers, -⟩ := Option.bind_eq_some_iff.mp hx
    exact integrates_of_props hmembers
  · intro hi
    obtain ⟨members, provider, hmembers, hmem, htext⟩ := integration_accepted h hblock hi
    rw [hmembers, Option.bind_some]
    exact hbuild members provider hmem htext

theorem configKept_build {s : Symbols} (h : checkConfig s = []) : ConfigKept s (buildConfig s) := by
  constructor
  case database =>
    intro r p hr hp
    simp only [checkConfig, hr, Option.map_some, Option.getD_some, List.append_eq_nil_iff,
      checkRoot] at h
    obtain ⟨⟨⟨⟨hprops, -⟩, hdb⟩, -⟩, -⟩ := h
    rw [(checkProps_accepted hprops).1, hp] at hdb
    cases hdatabase : Database.ofName? (nameOf p.value) with
    | none => simp [hdatabase] at hdb
    | some database =>
      have hname : database.name = nameOf p.value := by simpa using List.find?_some hdatabase
      have hne : nameOf p.value ≠ "" := by
        rw [← hname]
        cases database <;> decide
      simp only [buildConfig, hr, Option.bind_some, textOf_of_nameOf hp hne, hdatabase,
        Option.getD_some]
      exact hname
  case auth =>
    cases ha : s.auth with
    | none => simp [buildConfig, ha]
    | some a =>
      simp only [checkConfig, ha, Option.map_some, Option.getD_some, List.append_eq_nil_iff] at h
      obtain ⟨provider, hmem, htext⟩ := provider_accepted h.1.2
      simpa [buildConfig, ha] using isSome_buildAuth hmem htext
  case email =>
    exact isSome_integration h (.inl rfl) fun props provider => isSome_buildEmail
  case monitoring =>
    exact isSome_integration h (.inr rfl) fun props provider => isSome_buildMonitoring

theorem build_keeps {s : Symbols} {extra : List String} (h : s.Accepted extra) (name : String) :
    Keeps s (build s name) where
  entities := forall₂_map fun e he =>
    ⟨rfl, forall₂_map fun f hf => fieldKept_build (h.entity he) hf⟩
  enums := forall₂_map fun e _ => ⟨rfl, rfl⟩
  pages := forall₂_map fun p hp => by
    obtain ⟨kind, entity, hpage⟩ := h.page hp
    exact pageKept_build hpage _
  views := forall₂_map fun v hv => viewKept_build (h.views v hv)
  workflows := forall₂_map fun w hw => workflowKept_build (h.workflows w hw)
  config := configKept_build h.config

end Scaffold.Build

namespace Scaffold

open Scaffold.Source Scaffold.Check Scaffold.Model Scaffold.Build

/-- Nothing is dropped from an accepted source, and nothing is invented: each declaration counts,
and has its part in the application. -/
theorem validate_keeps {f : File} {extra : List String} {c : Checked}
    (h : validate f extra = .ok c) (name : String) :
    c.symbols.Collects f.decls ∧ Keeps c.symbols (build c.symbols name) := by
  obtain ⟨hs, -, haccepted⟩ := validate_accepted h
  refine ⟨?_, build_keeps haccepted name⟩
  rw [hs]
  exact (validate_declarable h).collects

/-- Cards with a state, and a view of them. The positions are all the same. -/
def board : File := ⟨"board", [
  .enum ⟨⟨"State", .start, "board"⟩, [⟨"OPEN", .start⟩, ⟨"DONE", .start⟩]⟩,
  .entity ⟨⟨"Card", .start, "board"⟩, [
    ⟨"id", .start, ⟨"Int", false, .start⟩, [.primaryKey]⟩,
    ⟨"state", .start, ⟨"State", false, .start⟩, [.default (.ident ["OPEN"] .start)]⟩,
    ⟨"text", .start, ⟨"String", false, .start⟩, [.unique, .optional]⟩]⟩,
  .view ⟨⟨"Board", .start, "board"⟩, [
    ⟨"source", .start, .ident ["Card"] .start⟩,
    ⟨"fields", .start, .object [
      ⟨"card", .start, .ident ["id"] .start⟩,
      ⟨"label", .start, .string "text + state" .start⟩] .start⟩]⟩]⟩

theorem board_accepted : (validate board []).toOption.isSome = true := by
  decide +kernel

theorem validate_board : ∃ c, validate board [] = .ok c ∧ c.symbols.Collects board.decls ∧
    Keeps c.symbols (build c.symbols "") := by
  have hok := board_accepted
  cases hc : validate board [] with
  | error ds => simp [hc, Except.toOption] at hok
  | ok c => exact ⟨c, rfl, validate_keeps hc ""⟩

end Scaffold
