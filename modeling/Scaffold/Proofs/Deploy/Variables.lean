import Scaffold.Deploy.Terraform
import Scaffold.Proofs.Build.Closed
import Scaffold.Proofs.Check.Clash
import Scaffold.Proofs.Source.Values

/-! # Variables that a source refers to

A variable of a provider's property, and one that is all of an input of a step, is among the
variables of the deployment. An input may also hold a variable inside of a list or a table; such a
reference becomes a plain text and is not listed.

The module for the database declares the variables of the configuration under names in lower case,
so a variable is declared twice when another one differs from it in case only, or when the database
has one of the same name. -/
namespace Scaffold

open Scaffold.Source Scaffold.Check Scaffold.Model Scaffold.Build

/-! ## Variables of a model -/

namespace Model

theorem mem_keepNew {x : String} {seen xs : List String} :
    x ∈ xs.foldl (fun seen v => if seen.contains v then seen else seen ++ [v]) seen ↔
      x ∈ seen ∨ x ∈ xs := by
  induction xs generalizing seen with
  | nil => simp
  | cons v vs ih =>
    rw [List.foldl_cons, ih]
    split
    next hv =>
      have hmem : v ∈ seen := List.contains_iff_mem.mp hv
      constructor
      · exact Or.imp_right (.tail _)
      · rintro (h | h)
        · exact .inl h
        · rcases List.mem_cons.mp h with rfl | h
          · exact .inl hmem
          · exact .inr h
    next => simp [or_assoc]

/-- The variables of a configuration are those of its secrets. -/
theorem mem_secrets {c : Config} {v : String} :
    v ∈ c.secrets ↔ v ≠ "" ∧ ∃ s ∈ c.allSecrets, s.env = v := by
  rw [Config.secrets, mem_keepNew]
  simp [and_comm]

theorem nodup_keepNew {seen : List String} (h : seen.Nodup) (xs : List String) :
    (xs.foldl (fun seen v => if seen.contains v then seen else seen ++ [v]) seen).Nodup := by
  induction xs generalizing seen with
  | nil => exact h
  | cons v vs ih =>
    rw [List.foldl_cons]
    split
    · exact ih h
    next hv => exact ih (Symbols.nodup_snoc h (by simpa using hv))

theorem nodup_secrets (c : Config) : c.secrets.Nodup := nodup_keepNew List.nodup_nil _

end Model

namespace Deploy

open Scaffold.Generator (Options)

theorem mem_envVars {a : Application} {o : Options} {v : String} :
    v ∈ envVars a o ↔ v = databaseVar ∨ (o.database = .postgresql ∧ v = passwordVar) ∨
      v ∈ a.config.secrets ∨ v ∈ workflowVars a := by
  rw [envVars, List.mem_eraseDups, List.mem_mergeSort]
  by_cases hdb : o.database = .postgresql <;> simp [hdb]

/-- The file with examples has a line for each variable, after its header. -/
theorem envFile_lines (a : Application) (o : Options) :
    ∃ lines, lines.Perm ((envVars a o).map fun v =>
        envLine v (if v = databaseVar then databaseUrl a o else "")) ∧
      envFile a o = "# " ++ Output.generatedHeader ++ "\n" ++ "\n".intercalate lines ++ "\n" :=
  ⟨_, List.mergeSort_perm _ _, rfl⟩

end Deploy

/-! ## Secrets of a provider -/

namespace Build

theorem variables_of_nameOf? {v : Value} (h : (nameOf? v).isSome = true) : v.variables = [] := by
  cases v <;> first | rfl | cases h

theorem variables_of_nameOf {v : Value} (h : nameOf v ≠ "") : v.variables = [] := by
  refine variables_of_nameOf? ?_
  rw [Option.isSome_iff_ne_none]
  intro hnone
  rw [nameOf, hnone] at h
  exact h rfl

theorem secretOf_env {props : List Property} {key v : String} (hv : v ≠ "") :
    (secretOf props key).env = v ↔ ∃ k p q, lookup props key = some ⟨k, p, .env v q⟩ := by
  unfold secretOf
  split
  next k p var q hl =>
    rw [hl]
    constructor
    · rintro rfl
      exact ⟨k, p, q, rfl⟩
    · rintro ⟨k', p', q', heq⟩
      cases heq
      rfl
  next k p text q hl =>
    rw [hl]
    exact ⟨fun h => absurd h.symm hv, fun ⟨_, _, _, heq⟩ => by cases heq⟩
  next hne _ =>
    exact ⟨fun h => absurd h.symm hv, fun ⟨k, p, q, heq⟩ => absurd heq (hne k p v q)⟩

theorem provider_ne_empty : ∀ schema ∈ ProviderSchema.all, schema.provider ≠ "" := by decide

/-- The secrets that a provider takes, in the order of its table. -/
def secretsOf (schema : ProviderSchema) (props : List Property) : List Secret :=
  (schema.props.filter (·.kind = .secret)).map fun spec => secretOf props spec.name

/-- Of the values that fit a kind of property, only a secret refers to a variable, and is nothing
but that. -/
theorem secret_of_mem_variables {kind : PropKind} {value : Value} {v : String}
    (hkind : ofPropKind kind value = true) (hv : v ∈ value.variables) :
    kind = .secret ∧ ∃ q, value = .env v q := by
  cases kind with
  | string | entity =>
    rw [variables_of_nameOf? hkind] at hv
    cases hv
  | int =>
    cases value with
    | number => cases hv
    | _ => cases hkind
  | secret =>
    cases value with
    | string => cases hv
    | env var q =>
      cases List.mem_singleton.mp hv
      exact ⟨rfl, q, rfl⟩
    | _ => cases hkind

/-- A variable in the properties of an accepted block is that of one of its secrets. -/
theorem mem_variables_iff_secret {s : Symbols} {site : Site} {props : List Property}
    {schema : ProviderSchema} (hschema : schema ∈ ProviderSchema.all)
    (h : ProviderAccepted s site props schema) (hkeys : (props.map (·.key)).Nodup) {v : String}
    (hv : v ≠ "") :
    (∃ p ∈ props, v ∈ p.value.variables) ↔ ∃ secret ∈ secretsOf schema props, secret.env = v := by
  constructor
  · rintro ⟨p, hp, hvar⟩
    have hl := lookup_of_mem hkeys hp
    by_cases hkey : p.key = "provider"
    · -- the provider itself is a name
      obtain ⟨q, hq, hname⟩ := h.provider
      rw [← hkey, hl] at hq
      cases hq
      rw [variables_of_nameOf (hname ▸ provider_ne_empty schema hschema)] at hvar
      cases hvar
    · obtain ⟨spec, hspec, hcheck⟩ := h.kind p.key p hkey hl
      have hkind : ofPropKind spec.kind p.value = true := by
        by_contra hne
        rw [checkPropKind, if_pos (by simpa using hne)] at hcheck
        cases hcheck
      have hmem := List.mem_of_find?_eq_some hspec
      have hname : spec.name = p.key := by simpa using List.find?_some hspec
      obtain ⟨hsecret, q, hvalue⟩ := secret_of_mem_variables hkind hvar
      refine ⟨secretOf props spec.name, List.mem_map_of_mem ?_, ?_⟩
      · exact List.mem_filter.mpr ⟨hmem, by simp [hsecret]⟩
      · rw [hname, secretOf_env hv, hl]
        exact ⟨p.key, p.pos, q, by rw [← hvalue]⟩
  · rintro ⟨secret, hsecret, henv⟩
    obtain ⟨spec, -, rfl⟩ := List.mem_map.mp hsecret
    obtain ⟨k, p, q, hl⟩ := (secretOf_env hv).mp henv
    exact ⟨_, (lookup_mem hl).1, by simp [Value.variables, Value.parts]⟩

/-! ## Secrets of a configuration -/

theorem textOf_provider {s : Symbols} {site : Site} {props : List Property}
    {schema : ProviderSchema} (hschema : schema ∈ ProviderSchema.all)
    (h : ProviderAccepted s site props schema) :
    textOf props "provider" = some schema.provider := by
  obtain ⟨p, hp, hname⟩ := h.provider
  rw [textOf_of_nameOf hp (hname ▸ provider_ne_empty schema hschema), hname]

/-- A token secret that is left out is replaced; otherwise authentication takes what it is given. -/
theorem buildAuth_secrets {schema : ProviderSchema} (hschema : schema ∈ ProviderSchema.all)
    (hblock : schema.block = .auth) {props : List Property}
    (hp : textOf props "provider" = some schema.provider) :
    ∃ u, buildAuth props = some u ∧
      (u.secrets = secretsOf schema props ∨
        ((∀ secret ∈ secretsOf schema props, secret.isNone = true) ∧
          ∃ user expiresIn, u = .jwt user defaultTokenSecret expiresIn)) := by
  simp only [ProviderSchema.all, List.mem_cons, List.not_mem_nil, or_false] at hschema
  rcases hschema with rfl | rfl | rfl | rfl | rfl | rfl | rfl | rfl <;> cases hblock <;>
    simp only [buildAuth, hp, Option.getD_some]
  · refine ⟨_, rfl, ?_⟩
    cases hnone : (secretOf props "secret").isNone with
    | true =>
      refine .inr ⟨fun secret hsecret => ?_, _, _, by rw [if_pos rfl]⟩
      have hone : secret ∈ [secretOf props "secret"] := hsecret
      rw [List.mem_singleton.mp hone]
      exact hnone
    | false => exact .inl rfl
  · refine ⟨_, rfl, .inl ?_⟩
    rfl
  · refine ⟨_, rfl, .inl ?_⟩
    rfl

theorem buildEmail_secrets {schema : ProviderSchema} (hschema : schema ∈ ProviderSchema.all)
    (hblock : schema.block = .email) {props : List Property}
    (hp : textOf props "provider" = some schema.provider) :
    ∃ m, buildEmail props = some m ∧ m.secrets = secretsOf schema props := by
  simp only [ProviderSchema.all, List.mem_cons, List.not_mem_nil, or_false] at hschema
  rcases hschema with rfl | rfl | rfl | rfl | rfl | rfl | rfl | rfl <;> cases hblock <;>
    simp only [buildEmail, hp, Option.getD_some]
  · refine ⟨_, rfl, ?_⟩
    rfl
  · refine ⟨_, rfl, ?_⟩
    rfl
  · refine ⟨_, rfl, ?_⟩
    rfl

theorem buildMonitoring_secrets {schema : ProviderSchema} (hschema : schema ∈ ProviderSchema.all)
    (hblock : schema.block = .monitoring) {props : List Property}
    (hp : textOf props "provider" = some schema.provider) :
    ∃ m, buildMonitoring props = some m ∧ m.secrets = secretsOf schema props := by
  simp only [ProviderSchema.all, List.mem_cons, List.not_mem_nil, or_false] at hschema
  rcases hschema with rfl | rfl | rfl | rfl | rfl | rfl | rfl | rfl <;> cases hblock <;>
    simp only [buildMonitoring, hp, Option.getD_some]
  · refine ⟨_, rfl, ?_⟩
    rfl
  · refine ⟨_, rfl, ?_⟩
    rfl

/-- A variable is that of one of the secrets, if it has a name. -/
def HoldsVariable (secrets : List Secret) (v : String) : Prop := ∃ secret ∈ secrets, secret.env = v

/-- Whether tokens are signed with the secret that is used when none is given. -/
def SignsByDefault (c : Config) : Prop :=
  ∃ user expiresIn, c.auth = some (.jwt user defaultTokenSecret expiresIn)

theorem not_holdsVariable_of_isNone {secrets : List Secret} {v : String} (hv : v ≠ "")
    (h : ∀ secret ∈ secrets, secret.isNone = true) : ¬ HoldsVariable secrets v := by
  rintro ⟨secret, hsecret, rfl⟩
  have hnone := h secret hsecret
  simp only [Secret.isNone, Bool.and_eq_true, decide_eq_true_eq] at hnone
  exact hv hnone.2

theorem auth_variables {s : Symbols} (h : checkConfig s = []) {v : String} (hv : v ≠ "") :
    HoldsVariable (((buildConfig s).auth.map Auth.secrets).getD []) v ↔
      (SignsByDefault (buildConfig s) ∧ v = "JWT_SECRET") ∨
        ∃ d, s.auth = some d ∧ ∃ p ∈ d.props, v ∈ p.value.variables := by
  cases ha : s.auth with
  | none =>
    have hnone : (buildConfig s).auth = none := by simp [buildConfig, ha]
    simp [HoldsVariable, SignsByDefault, hnone]
  | some d =>
    simp only [checkConfig, ha, Option.map_some, Option.getD_some, List.append_eq_nil_iff] at h
    have hkeys := checkProviderBlock_keys h.1.2
    obtain ⟨schema, hschema, hblock, hacc⟩ := checkProviderBlock_accepted h.1.2
    obtain ⟨u, hu, hsecrets⟩ :=
      buildAuth_secrets hschema hblock (textOf_provider hschema hacc)
    have hauth : (buildConfig s).auth = some u := by simp [buildConfig, ha, hu]
    have hvariables : (∃ d', some d = some d' ∧ ∃ p ∈ d'.props, v ∈ p.value.variables) ↔
        HoldsVariable (secretsOf schema d.props) v := by
      simpa [HoldsVariable] using mem_variables_iff_secret hschema hacc hkeys hv
    simp only [SignsByDefault, hauth, Option.map_some, Option.getD_some, hvariables]
    rcases hsecrets with hgiven | ⟨hnone, user, expiresIn, rfl⟩
    · rw [hgiven]
      constructor
      · exact .inr
      · rintro (⟨⟨user, expiresIn, heq⟩, rfl⟩ | h)
        · cases heq
          exact ⟨defaultTokenSecret, by rw [← hgiven]; exact List.mem_singleton.mpr rfl, rfl⟩
        · exact h
    · constructor
      · rintro ⟨secret, hsecret, rfl⟩
        cases List.mem_singleton.mp hsecret
        exact .inl ⟨⟨user, expiresIn, rfl⟩, rfl⟩
      · rintro (⟨-, rfl⟩ | h)
        · exact ⟨defaultTokenSecret, List.mem_singleton.mpr rfl, rfl⟩
        · exact absurd h (not_holdsVariable_of_isNone hv hnone)

theorem mem_membersParts {w : Value} {ps : List Property} :
    w ∈ membersParts ps ↔ ∃ p ∈ ps, w ∈ p.value.parts := by
  induction ps with
  | nil => simp [membersParts]
  | cons p ps ih =>
    obtain ⟨key, pos, v⟩ := p
    simp [membersParts, ih]

theorem mem_variables_object {members : List Property} {pos : Pos} {v : String} :
    v ∈ (Value.object members pos).variables ↔ ∃ p ∈ members, v ∈ p.value.variables := by
  simp only [mem_variables, Value.parts, List.mem_cons, reduceCtorEq, false_or, mem_membersParts]
  constructor
  · rintro ⟨q, p, hp, hmem⟩
    exact ⟨p, hp, q, hmem⟩
  · rintro ⟨p, hp, q, hmem⟩
    exact ⟨q, p, hp, hmem⟩

/-- Every property of the integrations is the block of one of them. -/
theorem integrations_accepted {s : Symbols} (h : checkConfig s = []) {d : BlockDecl}
    (hd : s.integrations = some d) {p : Property} (hp : p ∈ d.props) :
    ∃ block members pos, (block = .email ∨ block = .monitoring) ∧ p.value = .object members pos ∧
      integrationProps s block = some members := by
  obtain ⟨hallowed, hkeys, hblocks⟩ := integrations_checked h hd
  have hl := lookup_of_mem hkeys hp
  have hkey : ∃ block : ProviderBlock, (block = .email ∨ block = .monitoring) ∧
      p.key = block.name := by
    have hallowed := hallowed p hp
    simp only [List.mem_cons, List.not_mem_nil, or_false] at hallowed
    rcases hallowed with heq | heq
    · exact ⟨.email, .inl rfl, heq⟩
    · exact ⟨.monitoring, .inr rfl, heq⟩
  obtain ⟨block, hblock, hname⟩ := hkey
  have hone := hblocks block (by simpa using hblock)
  rw [hname] at hl
  simp only [checkIntegration, hl] at hone
  split at hone
  next heq => cases heq
  next key pos members at_ heq =>
    cases heq
    exact ⟨block, members, at_, hblock, rfl, by simp [integrationProps, hd, hl]⟩
  next => cases hone

theorem integrationProps_accepted {s : Symbols} (h : checkConfig s = []) {block : ProviderBlock}
    (hblock : block = .email ∨ block = .monitoring) {members : List Property}
    (hm : integrationProps s block = some members) :
    ∃ site at_, checkProviderBlock s site block at_ members = [] := by
  obtain ⟨d, hd, hm⟩ := Option.bind_eq_some_iff.mp hm
  obtain ⟨p, hp, hm⟩ := Option.bind_eq_some_iff.mp hm
  have hone := (integrations_checked h hd).2.2 block (by simpa using hblock)
  obtain ⟨key, pos, value⟩ := p
  cases value <;> cases hm
  simp only [checkIntegration, hp] at hone
  exact ⟨_, _, hone⟩

/-- An integration holds the variables of its properties, if its builder takes the secrets that the
table of providers lists. -/
theorem integration_variables {α : Type} {s : Symbols} (h : checkConfig s = [])
    {block : ProviderBlock} (hblock : block = .email ∨ block = .monitoring)
    {build : List Property → Option α} {secrets : α → List Secret}
    (hbuild : ∀ schema ∈ ProviderSchema.all, schema.block = block → ∀ {props},
      textOf props "provider" = some schema.provider →
      ∃ m, build props = some m ∧ secrets m = secretsOf schema props) {v : String} (hv : v ≠ "") :
    HoldsVariable ((((integrationProps s block).bind build).map secrets).getD []) v ↔
      ∃ members, integrationProps s block = some members ∧
        ∃ p ∈ members, v ∈ p.value.variables := by
  cases hm : integrationProps s block with
  | none => simp [HoldsVariable]
  | some members =>
    obtain ⟨site, at_, hcheck⟩ := integrationProps_accepted h hblock hm
    obtain ⟨schema, hschema, hof, hacc⟩ := checkProviderBlock_accepted hcheck
    obtain ⟨m, hbuilt, hsecrets⟩ := hbuild schema hschema hof (textOf_provider hschema hacc)
    have hiff := mem_variables_iff_secret hschema hacc (checkProviderBlock_keys hcheck) hv
    simpa [HoldsVariable, hbuilt, hsecrets] using hiff.symm

theorem integrations_variables {s : Symbols} (h : checkConfig s = []) {v : String} :
    (∃ d, s.integrations = some d ∧ ∃ p ∈ d.props, v ∈ p.value.variables) ↔
      (∃ members, integrationProps s .email = some members ∧
        ∃ p ∈ members, v ∈ p.value.variables) ∨
      ∃ members, integrationProps s .monitoring = some members ∧
        ∃ p ∈ members, v ∈ p.value.variables := by
  have hinside : ∀ block members, integrationProps s block = some members →
      (∃ p ∈ members, v ∈ p.value.variables) →
      ∃ d, s.integrations = some d ∧ ∃ p ∈ d.props, v ∈ p.value.variables := by
    intro block members hm hvar
    obtain ⟨d, hd, hm⟩ := Option.bind_eq_some_iff.mp hm
    obtain ⟨⟨key, pos, value⟩, hp, hm⟩ := Option.bind_eq_some_iff.mp hm
    cases value <;> cases hm
    exact ⟨d, hd, _, (lookup_mem hp).1, mem_variables_object.mpr hvar⟩
  constructor
  · rintro ⟨d, hd, p, hp, hvar⟩
    obtain ⟨block, members, pos, hblock, hvalue, hm⟩ := integrations_accepted h hd hp
    rw [hvalue, mem_variables_object] at hvar
    rcases hblock with rfl | rfl
    · exact .inl ⟨members, hm, hvar⟩
    · exact .inr ⟨members, hm, hvar⟩
  · rintro (⟨members, hm, hvar⟩ | ⟨members, hm, hvar⟩)
    · exact hinside .email members hm hvar
    · exact hinside .monitoring members hm hvar

/-- The name and the database of an application hold no variables. -/
theorem root_variables {s : Symbols} (h : checkConfig s = []) {d : BlockDecl}
    (hd : s.root = some d) {p : Property} (hp : p ∈ d.props) : p.value.variables = [] := by
  simp only [checkConfig, hd, Option.map_some, Option.getD_some, List.append_eq_nil_iff,
    checkRoot] at h
  obtain ⟨⟨⟨⟨hprops, hname⟩, hdb⟩, -⟩, -⟩ := h
  obtain ⟨hkept, hallowed, hkeys⟩ := checkProps_accepted hprops
  rw [hkept] at hname hdb
  have hl := lookup_of_mem hkeys hp
  have hallowed := hallowed p hp
  simp only [List.mem_cons, List.not_mem_nil, or_false] at hallowed
  rcases hallowed with heq | heq
  · rw [heq] at hl
    simp only [hl] at hname
    split at hname
    next hsome => exact variables_of_nameOf? hsome
    next => cases hname
  · rw [heq] at hl
    simp only [hl] at hdb
    split at hdb
    next hsome =>
      refine variables_of_nameOf fun hempty => ?_
      rw [hempty] at hsome
      cases hsome
    next => cases hdb

/-- Each configuration block is the only one of its kind. -/
theorem config_cases {ds : List Decl} (h : Declarable ds) {d : BlockDecl} (hd : .config d ∈ ds) :
    Symbols.root ⟨ds⟩ = some d ∨ Symbols.auth ⟨ds⟩ = some d ∨
      Symbols.integrations ⟨ds⟩ = some d := by
  have hfound : Symbols.config? ⟨ds⟩ d.name = some d := by
    have hmem : d ∈ Symbols.configs ⟨ds⟩ := List.mem_filterMap.mpr ⟨_, hd, rfl⟩
    obtain ⟨c, hc⟩ : ∃ c, Symbols.config? ⟨ds⟩ d.name = some c := by
      rw [← Option.isSome_iff_exists, Symbols.config?, List.find?_isSome]
      exact ⟨d, hmem, by simp⟩
    have hname : c.name = d.name := by simpa using List.find?_some hc
    obtain ⟨decl, hdecl, hpick⟩ := List.mem_filterMap.mp (List.mem_of_find?_eq_some hc)
    cases decl <;> cases hpick
    have heq := List.inj_on_of_nodup_map h.slots hdecl hd (Prod.ext rfl hname)
    cases heq
    exact hc
  rcases h.admissible _ hd with heq | heq | heq <;> rw [heq] at hfound
  · exact .inl hfound
  · exact .inr (.inl hfound)
  · exact .inr (.inr hfound)

/-- The variables in the configuration of an accepted source are those of its secrets, and that of
the token secret where none is given. -/
theorem config_variables {ds : List Decl} {extra : List String} (hd : Declarable ds)
    (h : Symbols.Accepted ⟨ds⟩ extra) {v : String} (hv : v ≠ "") :
    v ∈ (buildConfig ⟨ds⟩).secrets ↔
      (SignsByDefault (buildConfig ⟨ds⟩) ∧ v = "JWT_SECRET") ∨
        ∃ d, Decl.config d ∈ ds ∧ ∃ p ∈ d.props, v ∈ p.value.variables := by
  have hall : v ∈ (buildConfig ⟨ds⟩).secrets ↔ HoldsVariable (buildConfig ⟨ds⟩).allSecrets v := by
    simp only [mem_secrets, HoldsVariable, ne_eq, hv, not_false_eq_true, true_and]
  have happend : ∀ xs ys : List Secret,
      HoldsVariable (xs ++ ys) v ↔ HoldsVariable xs v ∨ HoldsVariable ys v := by
    intro xs ys
    simp [HoldsVariable, or_and_right, exists_or]
  rw [hall, Config.allSecrets, happend, happend, auth_variables h.config hv,
    show (buildConfig ⟨ds⟩).email = (integrationProps ⟨ds⟩ .email).bind buildEmail from rfl,
    show (buildConfig ⟨ds⟩).monitoring = (integrationProps ⟨ds⟩ .monitoring).bind buildMonitoring
      from rfl,
    integration_variables h.config (.inl rfl) (fun _ hs hb => buildEmail_secrets hs hb) hv,
    integration_variables h.config (.inr rfl) (fun _ hs hb => buildMonitoring_secrets hs hb) hv,
    or_assoc, or_assoc, ← integrations_variables h.config]
  refine or_congr_right ?_
  have hdecl : ∀ {name d}, Symbols.config? ⟨ds⟩ name = some d → Decl.config d ∈ ds := by
    intro name d hfound
    obtain ⟨decl, hdecl, hpick⟩ := List.mem_filterMap.mp (List.mem_of_find?_eq_some hfound)
    cases decl <;> cases hpick
    exact hdecl
  constructor
  · rintro (⟨d, hfound, hvar⟩ | ⟨d, hfound, hvar⟩)
    · exact ⟨d, hdecl hfound, hvar⟩
    · exact ⟨d, hdecl hfound, hvar⟩
  · rintro ⟨d, hmem, p, hp, hvar⟩
    rcases config_cases hd hmem with hfound | hfound | hfound
    · rw [root_variables h.config hfound hp] at hvar
      cases hvar
    · exact .inl ⟨d, hfound, p, hp, hvar⟩
    · exact .inr ⟨d, hfound, p, hp, hvar⟩

/-! ## Inputs of steps -/

theorem buildInput_env {p : Property} {v : String} :
    (buildInput p).value = .env v ↔ ∃ pos, p.value = .env v pos := by
  unfold buildInput
  split
  next path pos heq => simp [heq]
  next var pos heq => simp [heq]
  next hpath henv =>
    constructor
    · intro h
      cases h
    · rintro ⟨pos, heq⟩
      exact absurd heq (henv v pos)

/-- The inputs of all steps of a source. -/
def inputsOf (ds : List Decl) : List Value :=
  ds.flatMap fun
    | .workflow w => w.steps.flatMap fun st => st.inputs.map (·.value)
    | _ => []

theorem mem_inputsOf {ds : List Decl} {v : Value} :
    v ∈ inputsOf ds ↔ ∃ w, Decl.workflow w ∈ ds ∧ ∃ st ∈ w.steps, ∃ p ∈ st.inputs, p.value = v := by
  simp only [inputsOf, List.mem_flatMap]
  constructor
  · rintro ⟨decl, hdecl, hv⟩
    cases decl with
    | workflow w =>
      obtain ⟨st, hst, hv⟩ := List.mem_flatMap.mp hv
      obtain ⟨p, hp, rfl⟩ := List.mem_map.mp hv
      exact ⟨w, hdecl, st, hst, p, hp, rfl⟩
    | _ => cases hv
  · rintro ⟨w, hw, st, hst, p, hp, rfl⟩
    exact ⟨_, hw, List.mem_flatMap.mpr ⟨st, hst, List.mem_map_of_mem hp⟩⟩

/-- The variables of steps are the inputs that are variables as a whole. -/
theorem mem_workflowVars {ds : List Decl} {name v : String} :
    v ∈ Deploy.workflowVars (build ⟨ds⟩ name) ↔ ∃ pos, Value.env v pos ∈ inputsOf ds := by
  simp only [Deploy.workflowVars, List.mem_flatMap, List.mem_filterMap, mem_inputsOf]
  constructor
  · rintro ⟨workflow, hworkflow, step, hstep, input, hinput, hvar⟩
    obtain ⟨w, hw, rfl⟩ := List.mem_map.mp hworkflow
    obtain ⟨decl, hdecl, hpick⟩ := List.mem_filterMap.mp hw
    cases decl <;> cases hpick
    obtain ⟨st, hst, rfl⟩ := List.mem_map.mp hstep
    obtain ⟨p, hp, rfl⟩ := List.mem_map.mp hinput
    have henv : (buildInput p).value = .env v := by
      split at hvar
      next var heq =>
        cases hvar
        exact heq
      next => cases hvar
    obtain ⟨pos, hpos⟩ := buildInput_env.mp henv
    exact ⟨pos, w, hdecl, st, hst, p, hp, hpos⟩
  · rintro ⟨pos, w, hw, st, hst, p, hp, hpos⟩
    have henv := buildInput_env.mpr ⟨pos, hpos⟩
    refine ⟨buildWorkflow w, List.mem_map_of_mem (List.mem_filterMap.mpr ⟨_, hw, rfl⟩),
      _, List.mem_map_of_mem hst, buildInput p, List.mem_map_of_mem hp, by rw [henv]⟩

end Build

/-! ## Variables of a source -/

namespace Deploy

open Scaffold.Generator (Options)

/-- The variables of a deployment are those that the database and tokens bring along, those that
properties of providers refer to, and those that are an input of a step as a whole; each has a line
in the file with examples. -/
structure Lists (f : File) (app : Application) (o : Options) : Prop where
  listed : ∀ v, v ∈ envVars app o ↔
    v = databaseVar ∨ (o.database = .postgresql ∧ v = passwordVar) ∨
      (SignsByDefault app.config ∧ v = "JWT_SECRET") ∨
      (∃ d, Decl.config d ∈ f.decls ∧ ∃ p ∈ d.props, v ∈ p.value.variables) ∨
      ∃ pos, Value.env v pos ∈ inputsOf f.decls
  examples : ∃ lines, lines.Perm ((envVars app o).map fun v =>
      envLine v (if v = databaseVar then databaseUrl app o else "")) ∧
    envFile app o = "# " ++ Output.generatedHeader ++ "\n" ++ "\n".intercalate lines ++ "\n"

/-- A compiled application lists the variables of its source, whatever the options are. -/
theorem compile_lists {path : String} {source : List Text.Rune} {opts : CompileOptions}
    {app : Application} (h : compile path source opts = .ok app) :
    ∃ f, parseSource path source = .ok f ∧ ∀ o, Lists f app o := by
  obtain ⟨f, hf, -, haccepted, rfl⟩ := compile_ok h
  have hdeclarable : Declarable f.decls := by
    unfold compile at h
    rw [hf] at h
    unfold compileFile at h
    dsimp only at h
    split at h
    · cases h
    next c hc => exact validate_declarable hc
  refine ⟨f, hf, fun o => ⟨fun v => ?_, envFile_lines _ o⟩⟩
  rw [mem_envVars, mem_workflowVars]
  refine or_congr_right (or_congr_right ?_)
  rw [← or_assoc]
  refine or_congr_left ?_
  by_cases hv : v = ""
  · -- no variable is without a name
    subst hv
    constructor
    · intro hmem
      exact absurd rfl (mem_secrets.mp hmem).1
    · rintro (⟨-, heq⟩ | ⟨d, hd, p, hp, hvar⟩)
      · exact absurd heq (by decide)
      · obtain ⟨q, hq⟩ := mem_variables.mp hvar
        have hspelled := parseSource_values hf _ hd p.value (List.mem_map_of_mem hp) _ hq
        exact absurd rfl hspelled
  · exact config_variables hdeclarable haccepted hv

/-- A mail server with a password, and a step with two keys, one of them in a list. -/
def notices : List Text.Rune := [
  "config integrations \x7b ",
  "email: \x7b provider: smtp ",
  "host: mail ",
  "password: env(MAIL_KEY) \x7d \x7d ",
  "workflow Notify \x7b ",
  "trigger: \"note.created\" ",
  "step send \x7b ",
  "key: env(SEND_KEY) ",
  "keys: [env(LIST_KEY)] \x7d \x7d"].flatMap Text.runes

theorem notices_lists : ∃ app f, compile "" notices ⟨[], ""⟩ = .ok app ∧
    parseSource "" notices = .ok f ∧ ∀ o, Lists f app o := by
  have hok : (compile "" notices ⟨[], ""⟩).toOption.any (fun _ => true) = true := by
    simp only [notices, List.flatMap_cons]
    repeat rw [Text.runes_ofList]
    decide +kernel
  obtain ⟨app, happ, -⟩ := exists_ok_of_any hok
  obtain ⟨f, hf, hlists⟩ := compile_lists happ
  exact ⟨app, f, happ, hf, hlists⟩

/-- The key in the list is not among the variables of the deployment. -/
theorem notices_left_out : ∃ app f, compile "" notices ⟨[], ""⟩ = .ok app ∧
    parseSource "" notices = .ok f ∧ (∃ v ∈ inputsOf f.decls, "LIST_KEY" ∈ v.variables) ∧
    ∀ o, "LIST_KEY" ∉ envVars app o := by
  have hparsed : (parseSource "" notices).toOption.any (fun f =>
      (inputsOf f.decls).any fun v => v.variables.contains "LIST_KEY") = true := by
    simp only [notices, List.flatMap_cons]
    repeat rw [Text.runes_ofList]
    decide +kernel
  have hbuilt : (compile "" notices ⟨[], ""⟩).toOption.any (fun app =>
      !(app.config.secrets ++ workflowVars app).contains "LIST_KEY") = true := by
    simp only [notices, List.flatMap_cons]
    repeat rw [Text.runes_ofList]
    decide +kernel
  obtain ⟨f, hf, hused⟩ := exists_ok_of_any hparsed
  obtain ⟨app, happ, hlisted⟩ := exists_ok_of_any hbuilt
  refine ⟨app, f, happ, hf, by simpa using hused, fun o hmem => ?_⟩
  have hnot : "LIST_KEY" ∉ app.config.secrets ∧ "LIST_KEY" ∉ workflowVars app := by
    simpa using hlisted
  rcases mem_envVars.mp hmem with heq | ⟨-, heq⟩ | hsecret | hstep
  · exact absurd heq (by decide)
  · exact absurd heq (by decide)
  · exact hnot.1 hsecret
  · exact hnot.2 hstep

/-! ## Variables of a module -/

open Scaffold.Text (downcase)

/-- The names of the variables that a module declares, one for each of its blocks. -/
def declaredNames (a : Application) (o : Options) : List String :=
  ((moduleBlocks a o).filter (·.kind = "variable")).flatMap Block.labels

theorem declaredNames_eq (a : Application) (o : Options) :
    declaredNames a o =
      (databaseVariables o).map (·.name) ++ a.config.secrets.map downcase := by
  have hvariables (vs : List Variable) :
      ((vs.map Variable.block).filter (·.kind = "variable")).flatMap Block.labels =
        vs.map (·.name) := by
    induction vs with
    | nil => rfl
    | cons v vs ih =>
      rw [List.map_cons, List.filter_cons_of_pos rfl, List.flatMap_cons, ih]
      rfl
  have hresources : (resourceBlocks a o).filter (·.kind = "variable") = [] := by
    unfold resourceBlocks
    cases o.database <;> rfl
  have hsecrets : (secretVariables a).map (·.name) = a.config.secrets.map downcase := by
    rw [secretVariables, List.map_map]
    rfl
  rw [declaredNames, moduleBlocks, List.filter_append, List.filter_append, hresources,
    List.append_nil, List.flatMap_append, hvariables, hvariables, hsecrets]

/-- The configuration refers to a variable: one of its properties does, or tokens are signed with
the secret that is used when none is given. -/
def RefersTo (f : File) (app : Application) (v : String) : Prop :=
  (SignsByDefault app.config ∧ v = "JWT_SECRET") ∨
    ∃ d, Decl.config d ∈ f.decls ∧ ∃ p ∈ d.props, v ∈ p.value.variables

/-- A module declares the variables of its database and, in lower case, those that the configuration
refers to. It declares each of them once when no two that are referred to are the same in lower case
and none is one of the database's. -/
structure Declares (f : File) (app : Application) (o : Options) : Prop where
  declared : ∀ n, n ∈ declaredNames app o ↔ n ∈ (databaseVariables o).map (·.name) ∨
    ∃ v, RefersTo f app v ∧ downcase v = n
  once : (declaredNames app o).Nodup ↔
    (∀ v w, RefersTo f app v → RefersTo f app w → downcase v = downcase w → v = w) ∧
      (o.database = .postgresql →
        ∀ v, RefersTo f app v → downcase v ∉ ["db_host", "db_port", "db_password"])

theorem declares_of_secrets {f : File} {app : Application}
    (h : ∀ v, v ∈ app.config.secrets ↔ RefersTo f app v) (o : Options) : Declares f app o where
  declared n := by simp only [declaredNames_eq, List.mem_append, List.mem_map, h]
  once := by
    have hown : ((databaseVariables o).map (·.name)).Nodup := by
      unfold databaseVariables
      cases o.database <;> decide
    have hfolded : (app.config.secrets.map downcase).Nodup ↔
        ∀ v w, RefersTo f app v → RefersTo f app w → downcase v = downcase w → v = w := by
      rw [List.nodup_map_iff_inj_on (nodup_secrets app.config)]
      simp only [h]
      exact ⟨fun hinj v w hv hw => hinj v hv w hw, fun hinj v hv w hw => hinj v w hv hw⟩
    have hapart : ((databaseVariables o).map (·.name)).Disjoint
        (app.config.secrets.map downcase) ↔ (o.database = .postgresql →
          ∀ v, RefersTo f app v → downcase v ∉ ["db_host", "db_port", "db_password"]) := by
      unfold databaseVariables
      cases o.database with
      | sqlite => simp
      | postgresql =>
        rw [List.disjoint_comm, List.disjoint_left]
        simp only [List.forall_mem_map, h]
        exact (true_imp_iff).symm
    rw [declaredNames_eq, List.nodup_append', hfolded, hapart]
    exact and_iff_right hown

/-- No variable is without a name. -/
theorem RefersTo.ne_empty {path : String} {source : List Text.Rune} {f : File} {app : Application}
    (hf : parseSource path source = .ok f) {v : String} (h : RefersTo f app v) : v ≠ "" := by
  rcases h with ⟨-, rfl⟩ | ⟨d, hd, p, hp, hvar⟩
  · decide
  · obtain ⟨q, hq⟩ := mem_variables.mp hvar
    exact parseSource_values hf _ hd p.value (List.mem_map_of_mem hp) _ hq

theorem compile_declarable {path : String} {source : List Text.Rune} {opts : CompileOptions}
    {app : Application} (h : compile path source opts = .ok app) {f : File}
    (hf : parseSource path source = .ok f) : Declarable f.decls := by
  simp only [compile, hf, compileFile] at h
  cases hc : validate f opts.roles with
  | error ds => simp [hc] at h
  | ok c => exact validate_declarable hc

theorem downcase_eq {s t : String} (h : s.toList.map Text.lower = t.toList) : downcase s = t :=
  String.toList_inj.mp (by rwa [downcase, String.toList_map])

/-- What the module of a compiled application declares, whatever the options are. -/
theorem compile_declares {path : String} {source : List Text.Rune} {opts : CompileOptions}
    {app : Application} (h : compile path source opts = .ok app) :
    ∃ f, parseSource path source = .ok f ∧ ∀ o, Declares f app o := by
  obtain ⟨f, hf, -, haccepted, rfl⟩ := compile_ok h
  refine ⟨f, hf, declares_of_secrets fun v => ?_⟩
  have hiff (hv : v ≠ "") := config_variables (compile_declarable h hf) haccepted hv
  exact ⟨fun hmem => (hiff (mem_secrets.mp hmem).1).mp hmem,
    fun hrefers => (hiff (hrefers.ne_empty hf)).mpr hrefers⟩

theorem notices_declares : ∃ app f, compile "" notices ⟨[], ""⟩ = .ok app ∧
    parseSource "" notices = .ok f ∧ ∀ o, Declares f app o ∧ (declaredNames app o).Nodup := by
  have hbuilt : (compile "" notices ⟨[], ""⟩).toOption.any (fun app =>
      app.config.secrets = ["MAIL_KEY"]) = true := by
    simp only [notices, List.flatMap_cons]
    repeat rw [Text.runes_ofList]
    decide +kernel
  obtain ⟨app, happ, hsecrets⟩ := exists_ok_of_any hbuilt
  obtain ⟨f, hf, hdeclares⟩ := compile_declares happ
  have hkey : downcase "MAIL_KEY" = "mail_key" := downcase_eq (by decide)
  refine ⟨app, f, happ, hf, fun o => ⟨hdeclares o, ?_⟩⟩
  rw [declaredNames_eq, of_decide_eq_true hsecrets, List.map_cons, hkey, databaseVariables]
  cases o.database <;> decide

/-- A mail server and a monitor whose keys differ in case only. -/
def folded : List Text.Rune := [
  "config integrations \x7b ",
  "email: \x7b provider: smtp ",
  "host: mail ",
  "password: env(KEY) \x7d ",
  "monitoring: \x7b provider: sentry ",
  "dsn: env(key) \x7d \x7d"].flatMap Text.runes

/-- The variable of both keys is declared twice. -/
theorem folded_twice : ∃ app, compile "" folded ⟨[], ""⟩ = .ok app ∧
    ∀ o, (declaredNames app o).count "key" = 2 ∧ ¬ (declaredNames app o).Nodup := by
  have hbuilt : (compile "" folded ⟨[], ""⟩).toOption.any (fun app =>
      app.config.secrets = ["KEY", "key"]) = true := by
    simp only [folded, List.flatMap_cons]
    repeat rw [Text.runes_ofList]
    decide +kernel
  obtain ⟨app, happ, hsecrets⟩ := exists_ok_of_any hbuilt
  have hupper : downcase "KEY" = "key" := downcase_eq (by decide)
  have hlower : downcase "key" = "key" := downcase_eq (by decide)
  refine ⟨app, happ, fun o => ?_⟩
  rw [declaredNames_eq, of_decide_eq_true hsecrets, List.map_cons, List.map_cons, hupper, hlower,
    databaseVariables]
  cases o.database <;> decide

end Deploy

end Scaffold
