import Mathlib.Data.List.Forall2
import Scaffold.Generator.Builtin
import Scaffold.Meta.Server
import Scaffold.Proofs.Generator.Registry

/-! # Literal secrets stay inside of the model

Two applications resemble each other when they differ at most in the texts of literal secrets, and
where one has such a text the other has one too. Whatever is told about the one or made from it is
told about the other and made from it, so no literal text finds a way out of the model. -/
namespace Scaffold

/-! ## Applications that differ in literals alone -/

namespace Model

/-- The same variable, and a literal on both sides or on none. -/
structure Secret.Resembles (s t : Secret) : Prop where
  env : s.env = t.env
  literal : s.literal = "" ↔ t.literal = ""

inductive Auth.Resembles : Auth → Auth → Prop
  | jwt (user expiresIn : String) {s t : Secret} :
    s.Resembles t → Resembles (.jwt user s expiresIn) (.jwt user t expiresIn)
  | clerk (user : String) {p q s t : Secret} :
    p.Resembles q → s.Resembles t → Resembles (.clerk user p s) (.clerk user q t)
  | auth0 (user domain clientId audience : String) {s t : Secret} :
    s.Resembles t →
      Resembles (.auth0 user domain clientId s audience) (.auth0 user domain clientId t audience)

inductive Email.Resembles : Email → Email → Prop
  | sendgrid (sender : String) {s t : Secret} :
    s.Resembles t → Resembles (.sendgrid s sender) (.sendgrid t sender)
  | smtp (host : String) (port : Int) (user sender : String) {s t : Secret} :
    s.Resembles t → Resembles (.smtp host port user s sender) (.smtp host port user t sender)
  | resend (sender : String) {s t : Secret} :
    s.Resembles t → Resembles (.resend s sender) (.resend t sender)

inductive Monitoring.Resembles : Monitoring → Monitoring → Prop
  | sentry (environment : String) {s t : Secret} :
    s.Resembles t → Resembles (.sentry s environment) (.sentry t environment)
  | datadog (site : String) {s t : Secret} :
    s.Resembles t → Resembles (.datadog s site) (.datadog t site)

structure Config.Resembles (c d : Config) : Prop where
  database : c.database = d.database
  auth : Option.Rel Auth.Resembles c.auth d.auth
  email : Option.Rel Email.Resembles c.email d.email
  monitoring : Option.Rel Monitoring.Resembles c.monitoring d.monitoring

/-- Applications that differ at most in the texts of literal secrets. -/
structure Application.Resembles (a b : Application) : Prop where
  config : a.config.Resembles b.config
  rest : { a with config := b.config } = b

theorem Application.Resembles.exists_config {a b : Application} (h : a.Resembles b) :
    ∃ d, a.config.Resembles d ∧ b = { a with config := d } :=
  ⟨b.config, h.config, h.rest.symm⟩

/-! ## What is shown of a configuration -/

theorem Secret.Resembles.json {s t : Secret} (h : s.Resembles t) : s.json = t.json := by
  have hliteral : (s.literal ≠ "") = (t.literal ≠ "") := propext (not_congr h.literal)
  simp only [Secret.json, h.env, hliteral]

/-- What is the same of related values is the same of optional ones. -/
theorem map_eq_of_rel {α β : Type} {R : α → α → Prop} {f g : α → β} {o p : Option α}
    (h : Option.Rel R o p) (hfg : ∀ x y, R x y → f x = g y) : o.map f = p.map g := by
  cases h with
  | some hxy => exact congrArg Option.some (hfg _ _ hxy)
  | none => rfl

theorem isSome_eq_of_rel {α : Type} {R : α → α → Prop} {o p : Option α} (h : Option.Rel R o p) :
    o.isSome = p.isSome := by
  cases h <;> rfl

theorem optionMember_eq_of_rel {α : Type} {R : α → α → Prop} {f : α → Json} {o p : Option α}
    (h : Option.Rel R o p) (hf : ∀ x y, R x y → f x = f y) (key : String) :
    Json.optionMember key f o = Json.optionMember key f p := by
  cases h with
  | some hxy => exact congrArg (fun v => [(key, v)]) (hf _ _ hxy)
  | none => rfl

theorem Auth.Resembles.tagged {x y : Auth} (h : x.Resembles y) :
    Config.tagged x.provider x.members = Config.tagged y.provider y.members := by
  cases h with
  | jwt user expiresIn hs => simp only [Auth.provider, Auth.members, hs.json]
  | clerk user hp hs => simp only [Auth.provider, Auth.members, hp.json, hs.json]
  | auth0 user domain clientId audience hs => simp only [Auth.provider, Auth.members, hs.json]

theorem Email.Resembles.tagged {x y : Email} (h : x.Resembles y) :
    Config.tagged x.provider x.members = Config.tagged y.provider y.members := by
  cases h with
  | sendgrid sender hs => simp only [Email.provider, Email.members, hs.json]
  | smtp host port user sender hs => simp only [Email.provider, Email.members, hs.json]
  | resend sender hs => simp only [Email.provider, Email.members, hs.json]

theorem Monitoring.Resembles.tagged {x y : Monitoring} (h : x.Resembles y) :
    Config.tagged x.provider x.members = Config.tagged y.provider y.members := by
  cases h with
  | sentry environment hs => simp only [Monitoring.provider, Monitoring.members, hs.json]
  | datadog site hs => simp only [Monitoring.provider, Monitoring.members, hs.json]

/-! The variables of secrets, provider by provider. -/

theorem Auth.Resembles.envs {x y : Auth} (h : x.Resembles y) :
    x.secrets.map Secret.env = y.secrets.map Secret.env := by
  cases h with
  | jwt user expiresIn hs => simp only [Auth.secrets, List.map_cons, hs.env, List.map_nil]
  | clerk user hp hs => simp only [Auth.secrets, List.map_cons, hp.env, hs.env, List.map_nil]
  | auth0 user domain clientId audience hs =>
    simp only [Auth.secrets, List.map_cons, hs.env, List.map_nil]

theorem Email.Resembles.envs {x y : Email} (h : x.Resembles y) :
    x.secrets.map Secret.env = y.secrets.map Secret.env := by
  cases h with
  | sendgrid sender hs => simp only [Email.secrets, List.map_cons, hs.env, List.map_nil]
  | smtp host port user sender hs =>
    simp only [Email.secrets, List.map_cons, hs.env, List.map_nil]
  | resend sender hs => simp only [Email.secrets, List.map_cons, hs.env, List.map_nil]

theorem Monitoring.Resembles.envs {x y : Monitoring} (h : x.Resembles y) :
    x.secrets.map Secret.env = y.secrets.map Secret.env := by
  cases h with
  | sentry environment hs => simp only [Monitoring.secrets, List.map_cons, hs.env, List.map_nil]
  | datadog site hs => simp only [Monitoring.secrets, List.map_cons, hs.env, List.map_nil]

/-- A list taken from an optional provider, or none. -/
theorem envs_getD {α : Type} (secrets : α → List Secret) (o : Option α) :
    ((o.map secrets).getD []).map Secret.env =
      (o.map fun x => (secrets x).map Secret.env).getD [] := by
  cases o <;> rfl

namespace Config.Resembles

variable {c d : Config}

theorem json (h : c.Resembles d) : c.json = d.json := by
  simp only [Config.json, h.database,
    optionMember_eq_of_rel h.auth (fun _ _ hxy => hxy.tagged),
    optionMember_eq_of_rel h.email (fun _ _ hxy => hxy.tagged),
    optionMember_eq_of_rel h.monitoring (fun _ _ hxy => hxy.tagged)]

/-- The variables are the same, since a literal is none. -/
theorem secrets (h : c.Resembles d) : c.secrets = d.secrets := by
  have henvs : c.allSecrets.map Secret.env = d.allSecrets.map Secret.env := by
    simp only [Config.allSecrets, List.map_append, envs_getD]
    rw [map_eq_of_rel h.auth fun _ _ hxy => hxy.envs,
      map_eq_of_rel h.email fun _ _ hxy => hxy.envs,
      map_eq_of_rel h.monitoring fun _ _ hxy => hxy.envs]
  simp only [Config.secrets, henvs]

theorem auth_isNone (h : c.Resembles d) : c.auth.isNone = d.auth.isNone := by
  rw [← Option.not_isSome, ← Option.not_isSome, isSome_eq_of_rel h.auth]

theorem configured (h : c.Resembles d) : c.configured = d.configured := by
  simp only [Config.configured, isSome_eq_of_rel h.email, isSome_eq_of_rel h.monitoring]

theorem configuredAuth (h : c.Resembles d) :
    Generator.configuredAuth c = Generator.configuredAuth d := by
  have hprovider : c.auth.map Auth.provider = d.auth.map Auth.provider :=
    map_eq_of_rel h.auth fun _ _ hxy => by cases hxy <;> rfl
  simp only [Generator.configuredAuth, hprovider]

end Config.Resembles

namespace Application.Resembles

variable {a b : Application}

theorem json (h : a.Resembles b) : a.json = b.json := by
  obtain ⟨d, hd, rfl⟩ := h.exists_config
  simp only [Application.json, hd.json]

theorem warnings (h : a.Resembles b) : a.warnings = b.warnings := by
  obtain ⟨d, hd, rfl⟩ := h.exists_config
  simp only [Application.warnings, hd.auth_isNone]

end Application.Resembles

end Model

/-! ## Answers of the meta server -/

namespace Meta

open Scaffold.Model

/-- Servers that were loaded at the same time with applications that resemble each other. -/
structure Server.Resembles (s t : Server) : Prop where
  app : s.app.Resembles t.app
  loadedAt : s.loadedAt = t.loadedAt

/-- The same comes of a reload, but for literal secrets. -/
inductive SameReload : Reload → Reload → Prop
  | unconfigured : SameReload none none
  | failed (e : ReloadError) : SameReload (some (.error e)) (some (.error e))
  | loaded {a b : Application} : a.Resembles b → SameReload (some (.ok a)) (some (.ok b))

structure Event.Resembles (e f : Event) : Prop where
  request : e.request = f.request
  now : e.now = f.now
  outcome : SameReload e.outcome f.outcome

theorem Server.Resembles.answer {s t : Server} (h : s.Resembles t) (x : Endpoint) :
    s.answer x = t.answer x := by
  obtain ⟨a, loadedAt⟩ := s
  obtain ⟨b, _⟩ := t
  obtain rfl : loadedAt = _ := h.loadedAt
  have hjson : a.json = b.json := h.app.json
  have hwarnings : warningList a = warningList b := by
    simp only [warningList, h.app.warnings]
  obtain ⟨d, -, rfl⟩ := h.app.exists_config
  cases x with
  | health => rfl
  | entities => rfl
  | entity name => rfl
  | enum name => rfl
  | pages => rfl
  | model => exact congrArg (Response.json 200) hjson
  | warnings => exact congrArg (Response.json 200) hwarnings
  | reload => rfl

theorem reloadSuccess_eq {a b : Application} (h : a.Resembles b) :
    reloadSuccess a = reloadSuccess b := by
  have hwarnings : warningList a = warningList b := by simp only [warningList, h.warnings]
  obtain ⟨d, -, rfl⟩ := h.exists_config
  simp only [reloadSuccess, hwarnings]

theorem Server.Resembles.reload {s t : Server} (h : s.Resembles t) (now : String) {r q : Reload}
    (hr : SameReload r q) :
    (s.reload now r).1 = (t.reload now q).1 ∧
      (s.reload now r).2.Resembles (t.reload now q).2 := by
  cases hr with
  | unconfigured => exact ⟨rfl, h⟩
  | failed e => exact ⟨rfl, h⟩
  | loaded hab => exact ⟨reloadSuccess_eq hab, hab, rfl⟩

/-- One request: the answers are the same, and the servers go on resembling each other. -/
theorem Server.Resembles.handle {s t : Server} (h : s.Resembles t) {e f : Event}
    (he : e.Resembles f) :
    (s.handle e).1 = (t.handle f).1 ∧ (s.handle e).2.Resembles (t.handle f).2 := by
  unfold Server.handle
  rw [← he.request, ← he.now]
  cases e.request.route with
  | endpoint x =>
    cases x with
    | reload => exact h.reload e.now he.outcome
    | _ =>
      dsimp only
      exact ⟨h.answer _, h⟩
  | redirect path => exact ⟨rfl, h⟩
  | missing => exact ⟨rfl, h⟩

/-- Any number of requests, with reloads among them. -/
theorem Server.Resembles.run {s t : Server} (h : s.Resembles t) {es fs : List Event}
    (he : List.Forall₂ Event.Resembles es fs) : (s.run es).1 = (t.run fs).1 := by
  induction he generalizing s t with
  | nil => rfl
  | cons hef _ ih =>
    obtain ⟨hanswer, hnext⟩ := h.handle hef
    simp only [Server.run, hanswer, ih hnext]

end Meta

/-! ## Generated files -/

namespace Storage

open Scaffold.Model

/-- No table depends on the configuration. The recursion over relations hides this from a mere
unfolding. -/
theorem planRelations_config (a : Application) (d : Config) (tables : List Table)
    (rs : List Relation) :
    planRelations { a with config := d } tables rs = planRelations a tables rs := by
  induction rs generalizing tables with
  | nil => rfl
  | cons r rs ih =>
    have hkey : keyField { a with config := d } = keyField a := rfl
    have hreference : reference { a with config := d } = reference a := rfl
    simp only [planRelations, hkey, hreference, ih]

theorem plan_config (a : Application) (d : Config) : plan { a with config := d } = plan a := by
  simp only [plan, planRelations_config]

end Storage

namespace Generator

open Scaffold.Model

variable {a b : Application}

/-- The server's files hold nothing of the configuration but what the options repeat. -/
theorem serverFiles_config (a : Application) (d : Config) (o : Options) :
    Server.files { a with config := d } o = Server.files a o := by
  have hschema : Rest.schemaOf { a with config := d } o = Rest.schemaOf a o := rfl
  have hrecords : Server.recordListing { a with config := d } = Server.recordListing a := rfl
  have hresolvers : Server.resolverListing { a with config := d } = Server.resolverListing a := rfl
  have hworkflows : Server.workflowListing { a with config := d } = Server.workflowListing a := rfl
  have hscript : Storage.schemaScript o.database { a with config := d } =
      Storage.schemaScript o.database a := rfl
  simp only [Server.files, Storage.plan_config, hschema, hrecords, hresolvers, hworkflows, hscript]

theorem monitoringVars_eq {m n : Option Monitoring} (h : Option.Rel Monitoring.Resembles m n) :
    Deploy.monitoringVars m = Deploy.monitoringVars n := by
  cases h with
  | none => rfl
  | some hxy =>
    cases hxy with
    | sentry environment hs => simp only [Deploy.monitoringVars, hs.env]
    | datadog site hs => rfl

theorem agent?_eq {m n : Option Monitoring} (h : Option.Rel Monitoring.Resembles m n) :
    Deploy.agent? m = Deploy.agent? n := by
  cases h with
  | none => rfl
  | some hxy =>
    cases hxy with
    | sentry environment hs => rfl
    | datadog site hs => simp only [Deploy.agent?, hs.env]

theorem composeFile_eq (h : a.Resembles b) (o : Options) :
    Deploy.composeFile a o = Deploy.composeFile b o := by
  obtain ⟨d, hd, rfl⟩ := h.exists_config
  have hactive : Option.Rel Monitoring.Resembles (Deploy.activeMonitoring a o)
      (Deploy.activeMonitoring { a with config := d } o) := by
    unfold Deploy.activeMonitoring
    split
    · exact hd.monitoring
    · exact .none
  have hurl : Deploy.databaseUrl { a with config := d } o = Deploy.databaseUrl a o := rfl
  simp only [Deploy.composeFile, Deploy.services, Deploy.serverService, Deploy.databaseService,
    hurl, monitoringVars_eq hactive, agent?_eq hactive]

theorem envFile_eq (h : a.Resembles b) (o : Options) :
    Deploy.envFile a o = Deploy.envFile b o := by
  obtain ⟨d, hd, rfl⟩ := h.exists_config
  have hurl : Deploy.databaseUrl { a with config := d } o = Deploy.databaseUrl a o := rfl
  have hworkflow : Deploy.workflowVars { a with config := d } = Deploy.workflowVars a := rfl
  simp only [Deploy.envFile, Deploy.envVars, hd.secrets, hurl, hworkflow]

theorem terraformModule_eq (h : a.Resembles b) (o : Options) :
    Deploy.terraformModule a o = Deploy.terraformModule b o := by
  obtain ⟨d, hd, rfl⟩ := h.exists_config
  have hresources : Deploy.resourceBlocks { a with config := d } o = Deploy.resourceBlocks a o := rfl
  simp only [Deploy.terraformModule, Deploy.moduleBlocks, Deploy.secretVariables, hd.secrets,
    hresources]

/-- Each generator renders the same from both, be its options and dependencies what they may. -/
theorem generate_eq (h : a.Resembles b) {g : Generator} (hg : g ∈ builtin.generators)
    (r : Request) : g.generate { r with app := a } = g.generate { r with app := b } := by
  simp only [builtin, List.mem_cons, List.not_mem_nil, or_false] at hg
  rcases hg with rfl | rfl | rfl
  · obtain ⟨d, -, rfl⟩ := h.exists_config
    simp only [server, serverFiles_config]
  · rfl
  · simp only [deployment, Deploy.files, composeFile_eq h, envFile_eq h, terraformModule_eq h]

theorem resolve_eq (h : a.Resembles b) (o : Requested) : resolve o a = resolve o b := by
  simp only [resolve, h.config.database, h.config.configuredAuth, h.config.configured]

/-- One generator's turn in a run. -/
theorem Setting.step_eq (h : a.Resembles b) {g : Generator} (hg : g ∈ builtin.generators)
    (root : String) (o : Options) (cancelled : Bool) (p : Progress) :
    Setting.step ⟨a, root, o, cancelled⟩ p g = Setting.step ⟨b, root, o, cancelled⟩ p g := by
  have hrender : Setting.render ⟨a, root, o, cancelled⟩ g
        (Setting.request ⟨a, root, o, cancelled⟩ p g) =
      Setting.render ⟨b, root, o, cancelled⟩ g
        (Setting.request ⟨b, root, o, cancelled⟩ p g) := by
    have hgenerate := generate_eq h hg (Setting.request ⟨a, root, o, cancelled⟩ p g)
    simp only [Setting.request] at hgenerate
    simp only [Setting.render, Setting.request, hgenerate]
  have hdir : (Setting.request ⟨a, root, o, cancelled⟩ p g).outputDir =
      (Setting.request ⟨b, root, o, cancelled⟩ p g).outputDir := rfl
  simp only [Setting.step, hrender, hdir]

theorem Setting.runEach_eq_of_resembles (h : a.Resembles b) {gs : List Generator}
    (hgs : ∀ g ∈ gs, g ∈ builtin.generators) (root : String) (o : Options) (cancelled : Bool)
    (p : Progress) :
    Setting.runEach ⟨a, root, o, cancelled⟩ p gs =
      Setting.runEach ⟨b, root, o, cancelled⟩ p gs := by
  induction gs generalizing p with
  | nil => rfl
  | cons g gs ih =>
    obtain ⟨hg, hgs⟩ := List.forall_mem_cons.mp hgs
    simp only [Setting.runEach, Setting.step_eq h hg, ih hgs]

end Generator

/-! ## Nothing tells two applications apart -/

open Scaffold.Model Scaffold.Generator

/-- The same is told about two applications, at any time and under any requests, and the same is
made from them, under any options. -/
structure Model.Application.Indistinguishable (a b : Application) : Prop where
  json : a.json = b.json
  warnings : a.warnings = b.warnings
  responses : ∀ (loadedAt : String) (es fs : List Meta.Event),
    List.Forall₂ Meta.Event.Resembles es fs →
      (Meta.Server.run ⟨a, loadedAt⟩ es).1 = (Meta.Server.run ⟨b, loadedAt⟩ fs).1
  trees : ∀ g ∈ builtin.generators, ∀ r : Generator.Request,
    g.generate { r with app := a } = g.generate { r with app := b }
  runs : ∀ (disk : Disk) (root : String) (enabled : List String) (requested : Requested)
    (cancelled : Bool),
    builtin.run disk a root enabled requested cancelled =
      builtin.run disk b root enabled requested cancelled

theorem builtin_registered : builtin.Registered :=
  have hserver : Registry.Registered ⟨[server]⟩ := .register (g := server) .empty rfl
  have hclient : Registry.Registered ⟨[server, client]⟩ := .register (g := client) hserver rfl
  .register (g := deployment) hclient rfl

theorem builtin_run_eq {a b : Application} (h : a.Resembles b) (disk : Disk) (root : String)
    (enabled : List String) (requested : Requested) (cancelled : Bool) :
    builtin.run disk a root enabled requested cancelled =
      builtin.run disk b root enabled requested cancelled := by
  unfold Registry.run
  rw [← resolve_eq h requested]
  cases hselected : builtin.selected enabled with
  | error n => rfl
  | ok gs =>
    cases resolve requested a with
    | error e => rfl
    | ok options =>
      have hsub := (Registry.selected_ok builtin_registered hselected).1
      exact congrArg Except.ok (Setting.runEach_eq_of_resembles h (fun g hg => hsub.subset hg)
        root options cancelled ⟨[], [], disk⟩)

/-- Applications that differ in literal secrets alone cannot be told apart by what they are shown as
or by what is made from them. -/
theorem literal_secrets_stay_inside {a b : Application} (h : a.Resembles b) :
    a.Indistinguishable b where
  json := h.json
  warnings := h.warnings
  responses loadedAt _ _ hes :=
    Meta.Server.Resembles.run (s := ⟨a, loadedAt⟩) (t := ⟨b, loadedAt⟩) ⟨h, rfl⟩ hes
  trees _ hg r := generate_eq h hg r
  runs disk root enabled requested cancelled :=
    builtin_run_eq h disk root enabled requested cancelled

/-- An application that keeps one literal as the secret of every provider. -/
def guarded (password : String) : Application :=
  { Build.build ⟨[]⟩ "vault" with
    config := ⟨.postgresql, some (.jwt "User" (.ofLiteral password) "1h"),
      some (.smtp "mail.example.com" 587 "robot" (.ofLiteral password) ""),
      some (.datadog (.ofLiteral password) "")⟩ }

theorem guarded_indistinguishable :
    (guarded "hunter2").Resembles (guarded "swordfish") ∧
      (guarded "hunter2").config ≠ (guarded "swordfish").config ∧
      (guarded "hunter2").Indistinguishable (guarded "swordfish") := by
  have hsecret : (Secret.ofLiteral "hunter2").Resembles (.ofLiteral "swordfish") :=
    ⟨rfl, by decide⟩
  have h : (guarded "hunter2").Resembles (guarded "swordfish") :=
    ⟨⟨rfl, .some (.jwt _ _ hsecret), .some (.smtp _ _ _ _ hsecret), .some (.datadog _ hsecret)⟩,
      rfl⟩
  exact ⟨h, by decide, literal_secrets_stay_inside h⟩

end Scaffold
