import Mathlib.Tactic.Tauto
import Scaffold.Check.Role
import Scaffold.Proofs.Check.Entity

/-! # What holds of accepted provider blocks

The provider of a block is one of the table, all its required properties are given, and each
property is of the kind that the table says. The roles are those that are reserved, given or
declared. -/
namespace Scaffold.Check

open Scaffold.Source Scaffold.Model

theorem checkProviderProps_accepted {s : Symbols} {site : Site} {schema : ProviderSchema}
    {seen : List String} {ps : List Property}
    (h : checkProviderProps s site schema seen ps = []) :
    ∀ p ∈ ps, ∃ spec, schema.prop? p.key = some spec ∧ checkPropKind s site schema spec p = [] := by
  induction ps generalizing seen with
  | nil => simp
  | cons p ps ih =>
    unfold checkProviderProps at h
    split at h
    · cases h
    · rw [List.append_eq_nil_iff] at h
      refine List.forall_mem_cons.mpr ⟨?_, ih h.2⟩
      have hp := h.1
      split at hp
      · cases hp
      next spec hs => exact ⟨spec, hs, hp⟩

theorem lookup_isSome {props : List Property} {key : String}
    (h : props.any (·.key == key) = true) : ∃ p, lookup props key = some p := by
  rw [← Option.isSome_iff_exists]
  simpa [lookup] using h

theorem lookup_mem {props : List Property} {key : String} {p : Property}
    (h : lookup props key = some p) : p ∈ props ∧ p.key = key :=
  ⟨List.mem_of_find?_eq_some h, by simpa using List.find?_some h⟩

/-- What holds of the properties of a provider block without diagnostics. -/
structure ProviderAccepted (s : Symbols) (site : Site) (props : List Property)
    (schema : ProviderSchema) : Prop where
  provider : ∃ p, lookup props "provider" = some p ∧ nameOf p.value = schema.provider
  required : ∀ key ∈ schema.required, ∃ p, lookup props key = some p
  kind : ∀ key p, key ≠ "provider" → lookup props key = some p →
    ∃ spec, schema.prop? key = some spec ∧ checkPropKind s site schema spec p = []

theorem checkProviderBlock_accepted {s : Symbols} {site : Site} {block : ProviderBlock}
    {at_ : Pos} {props : List Property} (h : checkProviderBlock s site block at_ props = []) :
    ∃ schema ∈ ProviderSchema.all, schema.block = block ∧ ProviderAccepted s site props schema := by
  unfold checkProviderBlock at h
  split at h
  · cases h
  next p hp =>
    split at h
    · cases h
    next schema hschema =>
      have hmem := List.mem_of_find?_eq_some hschema
      have hfound := List.find?_some hschema
      simp only [Bool.and_eq_true, decide_eq_true_eq, beq_iff_eq] at hfound
      simp only [List.append_eq_nil_iff, List.map_eq_nil_iff, List.filter_eq_nil_iff] at h
      refine ⟨schema, hmem, hfound.1, ⟨p, hp, hfound.2.symm⟩, fun key hkey => ?_,
        fun key q hne hq => ?_⟩
      · exact lookup_isSome (by simpa using h.2 key hkey)
      · obtain ⟨hqm, rfl⟩ := lookup_mem hq
        refine checkProviderProps_accepted h.1 q ?_
        exact (List.mem_eraseP_of_neg (by simpa using hne)).mpr hqm

/-- The properties beside the provider have keys of their own. -/
theorem checkProviderProps_keys {s : Symbols} {site : Site} {schema : ProviderSchema}
    {seen : List String} {ps : List Property}
    (h : checkProviderProps s site schema seen ps = []) :
    (ps.map (·.key)).Nodup ∧ ∀ p ∈ ps, p.key ∉ seen := by
  induction ps generalizing seen with
  | nil => simp
  | cons p ps ih =>
    unfold checkProviderProps at h
    split at h
    · cases h
    next hp =>
      obtain ⟨hnodup, hfresh⟩ := ih (List.append_eq_nil_iff.mp h).2
      have hnew : p.key ∉ seen := by simpa using hp
      refine ⟨List.nodup_cons.mpr ⟨fun hm => ?_, hnodup⟩,
        List.forall_mem_cons.mpr ⟨hnew, fun q hq hs => hfresh q hq (.tail _ hs)⟩⟩
      obtain ⟨q, hq, heq⟩ := List.mem_map.mp hm
      exact hfresh q hq (by simp [heq])

/-- A provider block gives each property once. -/
theorem checkProviderBlock_keys {s : Symbols} {site : Site} {block : ProviderBlock} {at_ : Pos}
    {props : List Property} (h : checkProviderBlock s site block at_ props = []) :
    (props.map (·.key)).Nodup := by
  unfold checkProviderBlock at h
  split at h
  · cases h
  next p hp =>
    split at h
    · cases h
    next schema hschema =>
      obtain ⟨hnodup, hfresh⟩ := checkProviderProps_keys (List.append_eq_nil_iff.mp h).1
      obtain ⟨hmem, hkey⟩ := lookup_mem hp
      obtain ⟨q, front, back, -, hq, rfl, herase⟩ :=
        List.exists_of_eraseP (p := (·.key == "provider")) hmem (by simpa using hkey)
      rw [withoutFirst, herase] at hnodup hfresh
      rw [(List.perm_middle.map _).nodup_iff]
      refine List.nodup_cons.mpr ⟨fun hm => ?_, hnodup⟩
      obtain ⟨r, hr, heq⟩ := List.mem_map.mp hm
      have hprovider : q.key = "provider" := by simpa using hq
      exact hfresh r hr (by simp [heq, hprovider])

theorem lookup_of_mem {props : List Property} (h : (props.map (·.key)).Nodup) {p : Property}
    (hp : p ∈ props) : lookup props p.key = some p := find?_name h hp

theorem userEntity_required : ∀ schema ∈ ProviderSchema.all, schema.block = .auth →
    "userEntity" ∈ schema.required ∧
      ∀ spec, schema.prop? "userEntity" = some spec → spec.kind = .entity := by
  decide

/-- Authentication names a declared entity. -/
theorem checkConfig_userEntity {s : Symbols} (h : checkConfig s = []) {a : BlockDecl}
    (ha : s.auth = some a) :
    ∃ p q e, lookup a.props "provider" = some p ∧
      (∃ schema ∈ ProviderSchema.all, schema.block = .auth ∧ nameOf p.value = schema.provider) ∧
      lookup a.props "userEntity" = some q ∧ (nameOf? q.value).isSome = true ∧
      s.entity? (nameOf q.value) = some e := by
  simp only [checkConfig, ha, Option.map_some, Option.getD_some, List.append_eq_nil_iff] at h
  obtain ⟨schema, hmem, hblock, hacc⟩ := checkProviderBlock_accepted h.1.2
  obtain ⟨hreq, hkind⟩ := userEntity_required schema hmem hblock
  obtain ⟨p, hp, hname⟩ := hacc.provider
  obtain ⟨q, hq⟩ := hacc.required _ hreq
  obtain ⟨spec, hspec, hcheck⟩ := hacc.kind _ q (by decide) hq
  have hentity := hkind spec hspec
  unfold checkPropKind at hcheck
  split at hcheck
  · cases hcheck
  next hof =>
    split at hcheck
    · cases hcheck
    next hnone =>
      obtain ⟨e, he⟩ : ∃ e, s.entity? (nameOf q.value) = some e := by
        rw [← Option.isSome_iff_exists, Option.isSome_iff_ne_none]
        simpa [hentity] using hnone
      refine ⟨p, q, e, hp, ⟨schema, hmem, hblock, hname⟩, hq, ?_, he⟩
      simpa [hentity, ofPropKind, Option.isSome_iff_ne_none] using hof

/-! ## Integrations -/

/-- Accepted integrations have none but the known blocks, each once, and each one passes its check. -/
theorem integrations_checked {s : Symbols} (h : checkConfig s = []) {d : BlockDecl}
    (hd : s.integrations = some d) :
    (∀ p ∈ d.props, p.key ∈ ["email", "monitoring"]) ∧ (d.props.map (·.key)).Nodup ∧
      ∀ block ∈ [ProviderBlock.email, .monitoring],
        checkIntegration s ⟨d.file, .config, "integrations"⟩ d.props block = [] := by
  simp only [checkConfig, hd, Option.map_some, Option.getD_some, List.append_eq_nil_iff,
    checkIntegrations] at h
  obtain ⟨-, hprops, hblocks⟩ := h
  obtain ⟨hkept, hallowed, hkeys⟩ := checkProps_accepted hprops
  rw [hkept, List.flatMap_eq_nil_iff] at hblocks
  exact ⟨hallowed, hkeys, hblocks⟩

/-! ## Roles -/

theorem mem_eraseReps_loop {x a : String} {as acc : List String} :
    x ∈ List.eraseRepsBy.loop (· == ·) a as acc ↔ x = a ∨ x ∈ as ∨ x ∈ acc := by
  induction as generalizing a acc with
  | nil => simp [List.eraseRepsBy.loop, or_comm]
  | cons b bs ih =>
    unfold List.eraseRepsBy.loop
    split
    next h =>
      have hab : a = b := by simpa using h
      rw [ih, hab, List.mem_cons]
      tauto
    next =>
      rw [ih, List.mem_cons, List.mem_cons]
      tauto

theorem mem_eraseReps {x : String} {xs : List String} : x ∈ xs.eraseReps ↔ x ∈ xs := by
  cases xs with
  | nil => rfl
  | cons a as =>
    rw [List.eraseReps, List.eraseRepsBy, mem_eraseReps_loop]
    simp

/-- Sorting and dropping repetitions keeps every member. -/
theorem mem_sortedSet {x : String} {xs : List String} : x ∈ sortedSet xs ↔ x ∈ xs := by
  rw [sortedSet, mem_eraseReps, List.mem_mergeSort]

theorem mem_roles {s : Symbols} {extra : List String} {r : String} :
    r ∈ roles s extra ↔
      r ∈ reservedRoles ∨ r ∈ extra ∨ r ∈ enumValues s roleEnumName ∨ r ∈ userRoles s := by
  simp only [roles, mem_sortedSet, List.mem_append, or_assoc]

end Scaffold.Check
