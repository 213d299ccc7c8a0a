import Mathlib.Data.List.Perm.Basic
import Scaffold.Proofs.Check.Entity

/-! # Blocks that clash

A block is left out when it may not be declared at all, or when a block before it has taken its
name. Which of two blocks came first does not matter for whether there is anything to report.

What the checks know of the other blocks of a source is what a name leads to: an entity, an enum or
a configuration. Two lists of blocks in which every name leads to the same block are therefore
checked alike, block by block. -/
namespace Scaffold.Check

open Scaffold.Source Scaffold.Model

/-! ## Slots -/

/-- The kinds whose names are told apart together: an entity and an enum are types of one name. -/
def nameSpace : DeclKind → DeclKind
  | .enum => .entity
  | kind => kind

/-- The place that a block takes among the declared names. -/
def slot (d : Decl) : DeclKind × String := (nameSpace d.kind, d.name)

@[simp] theorem slot_entity (e : EntityDecl) : slot (.entity e) = (.entity, e.name) := rfl

@[simp] theorem slot_enum (e : EnumDecl) : slot (.enum e) = (.entity, e.name) := rfl

@[simp] theorem slot_page (p : BlockDecl) : slot (.page p) = (.page, p.name) := rfl

@[simp] theorem slot_view (v : BlockDecl) : slot (.view v) = (.view, v.name) := rfl

@[simp] theorem slot_workflow (w : WorkflowDecl) : slot (.workflow w) = (.workflow, w.name) := rfl

@[simp] theorem slot_config (c : BlockDecl) : slot (.config c) = (.config, c.name) := rfl

/-- A block that may be declared, whatever else there is. -/
def Admissible : Decl → Prop
  | .entity d => isBuiltin d.name = false
  | .enum d => isBuiltin d.name = false
  | .config d => d.name = "" ∨ d.name = "auth" ∨ d.name = "integrations"
  | _ => True

namespace Symbols

/-- A search by name fails when no block of the kind has the name. -/
theorem find?_eq_none_iff {α : Type} {pick : Decl → Option α} {name : α → String} {ds : List Decl}
    {n : String} : (ds.filterMap pick).find? (name · == n) = none ↔
      ∀ d ∈ ds, ∀ x, pick d = some x → name x ≠ n := by
  rw [List.find?_eq_none]
  constructor
  · intro h d hd x hx heq
    exact h x (List.mem_filterMap.mpr ⟨d, hd, hx⟩) (by simpa using heq)
  · intro h x hx heq
    obtain ⟨d, hd, hpick⟩ := List.mem_filterMap.mp hx
    exact h d hd x hpick (by simpa using heq)

/-- The slot of a page, a view, a workflow or a configuration is free when no block of the kind
has the name. -/
theorem slot_free_iff {α : Type} {pick : Decl → Option α} {name : α → String} {kind : DeclKind}
    {ds : List Decl} {n : String}
    (hpick : ∀ d, slot d = (kind, n) ↔ ∃ x, pick d = some x ∧ name x = n) :
    (kind, n) ∉ ds.map slot ↔ (ds.filterMap pick).find? (name · == n) = none := by
  rw [find?_eq_none_iff, List.mem_map]
  constructor
  · intro h d hd x hx hn
    exact h ⟨d, hd, (hpick d).mpr ⟨x, hx, hn⟩⟩
  · rintro h ⟨d, hd, hs⟩
    obtain ⟨x, hx, hn⟩ := (hpick d).mp hs
    exact h d hd x hx hn

/-- The slot of a type is free when neither an entity nor an enum has the name. -/
theorem type_slot_free_iff {s : Symbols} {n : String} :
    (DeclKind.entity, n) ∉ s.decls.map slot ↔ s.entity? n = none ∧ s.enum? n = none := by
  rw [Symbols.entity?, Symbols.enum?, Symbols.entities, Symbols.enums, find?_eq_none_iff,
    find?_eq_none_iff, List.mem_map]
  constructor
  · intro h
    refine ⟨fun d hd x hx hn => h ⟨d, hd, ?_⟩, fun d hd x hx hn => h ⟨d, hd, ?_⟩⟩ <;>
      cases d <;> cases hx <;> exact Prod.ext rfl hn
  · rintro ⟨hentity, henum⟩ ⟨d, hd, hs⟩
    cases d with
    | entity e => exact hentity _ hd e rfl (congrArg Prod.snd hs)
    | enum e => exact henum _ hd e rfl (congrArg Prod.snd hs)
    | _ => cases congrArg Prod.fst hs

/-- A block counts when it may be declared and its slot is free. -/
theorem objection_eq_none_iff {s : Symbols} {d : Decl} :
    s.objection d = none ↔ Admissible d ∧ slot d ∉ s.decls.map slot := by
  cases d with
  | entity e =>
    change _ ↔ _ ∧ (DeclKind.entity, e.name) ∉ s.decls.map slot
    rw [type_slot_free_iff]
    constructor
    · exact objection_entity
    · rintro ⟨hb, hn, hg⟩
      have hb : isBuiltin e.name = false := hb
      simp [objection, hb, hn, hg]
  | enum e =>
    change _ ↔ _ ∧ (DeclKind.entity, e.name) ∉ s.decls.map slot
    rw [type_slot_free_iff]
    constructor
    · intro h
      obtain ⟨hb, hg, hn⟩ := objection_enum h
      exact ⟨hb, hn, hg⟩
    · rintro ⟨hb, hn, hg⟩
      have hb : isBuiltin e.name = false := hb
      simp [objection, hb, hn, hg]
  | page p =>
    have hfree : (DeclKind.page, p.name) ∉ s.decls.map slot ↔ s.page? p.name = none :=
      slot_free_iff fun d => by cases d <;> simp
    exact Option.map_eq_none_iff.trans (hfree.symm.trans (iff_of_eq (true_and _)).symm)
  | view v =>
    have hfree : (DeclKind.view, v.name) ∉ s.decls.map slot ↔ s.view? v.name = none :=
      slot_free_iff fun d => by cases d <;> simp
    exact Option.map_eq_none_iff.trans (hfree.symm.trans (iff_of_eq (true_and _)).symm)
  | workflow w =>
    have hfree : (DeclKind.workflow, w.name) ∉ s.decls.map slot ↔ s.workflow? w.name = none :=
      slot_free_iff fun d => by cases d <;> simp
    exact Option.map_eq_none_iff.trans (hfree.symm.trans (iff_of_eq (true_and _)).symm)
  | config c =>
    have hfree : (DeclKind.config, c.name) ∉ s.decls.map slot ↔ s.config? c.name = none :=
      slot_free_iff fun d => by cases d <;> simp
    change _ ↔ (_ ∨ _ ∨ _) ∧ (DeclKind.config, c.name) ∉ s.decls.map slot
    rw [hfree]
    by_cases h : c.name = "" ∨ c.name = "auth" ∨ c.name = "integrations" <;>
      simp [objection, h, or_assoc]

end Symbols

/-! ## Sources without clashes -/

/-- Blocks that can be declared together. -/
structure Declarable (ds : List Decl) : Prop where
  admissible : ∀ d ∈ ds, Admissible d
  slots : (ds.map slot).Nodup

theorem declarable_cons {d : Decl} {ds : List Decl} :
    Declarable (d :: ds) ↔ Admissible d ∧ slot d ∉ ds.map slot ∧ Declarable ds := by
  constructor
  · intro h
    obtain ⟨hd, hds⟩ := List.forall_mem_cons.mp h.admissible
    obtain ⟨hnew, hnodup⟩ := List.nodup_cons.mp h.slots
    exact ⟨hd, hnew, hds, hnodup⟩
  · rintro ⟨hd, hnew, hds⟩
    exact ⟨List.forall_mem_cons.mpr ⟨hd, hds.admissible⟩, List.nodup_cons.mpr ⟨hnew, hds.slots⟩⟩

/-- Nothing is left out when all blocks can be declared together, beside those before them. -/
theorem accept_eq_nil_iff {s : Symbols} {ds : List Decl} :
    (accept s ds).2 = [] ↔ Declarable ds ∧ ∀ d ∈ ds, slot d ∉ s.decls.map slot := by
  induction ds generalizing s with
  | nil => simp [accept, Declarable.mk]
  | cons d ds ih =>
    unfold accept
    cases ho : s.objection d with
    | none =>
      obtain ⟨hd, hfree⟩ := Symbols.objection_eq_none_iff.mp ho
      rw [ih, declarable_cons]
      constructor
      · rintro ⟨hds, hall⟩
        refine ⟨⟨hd, fun hmem => ?_, hds⟩, List.forall_mem_cons.mpr ⟨hfree, fun c hc hmem => ?_⟩⟩
        · obtain ⟨c, hc, heq⟩ := List.mem_map.mp hmem
          exact hall c hc (by simp [heq])
        · exact hall c hc (List.map_subset _ (List.subset_append_left _ _) hmem)
      · rintro ⟨⟨-, hnew, hds⟩, hall⟩
        refine ⟨hds, fun c hc hmem => ?_⟩
        rw [List.map_append, List.mem_append] at hmem
        rcases hmem with hmem | hmem
        · exact hall c (.tail _ hc) hmem
        · have heq : slot c = slot d := List.mem_singleton.mp hmem
          exact hnew (heq ▸ List.mem_map_of_mem hc)
    | some v =>
      constructor
      · intro h
        cases h
      · rintro ⟨hds, hall⟩
        have hnone : s.objection d = none :=
          Symbols.objection_eq_none_iff.mpr ⟨hds.admissible d (.head _), hall d (.head _)⟩
        rw [ho] at hnone
        cases hnone

/-- Blocks that can be declared together are all kept. -/
theorem accept_of_declarable {ds : List Decl} (h : Declarable ds) :
    accept ⟨[]⟩ ds = (⟨ds⟩, []) := by
  have hnone : (accept ⟨[]⟩ ds).2 = [] := accept_eq_nil_iff.mpr ⟨h, by simp⟩
  have hall := (accept_distinct Symbols.distinct_nil hnone).1
  exact Prod.ext (congrArg Symbols.mk hall) hnone

/-- The first pass has nothing to report when all blocks can be declared together and no view has
the name of an entity. -/
theorem collect_eq_nil_iff {f : File} :
    (collect f).2 = [] ↔ Declarable f.decls ∧ viewClashes ⟨f.decls⟩ = [] := by
  simp only [collect, List.append_eq_nil_iff]
  constructor
  · rintro ⟨h, hv⟩
    have hd := (accept_eq_nil_iff.mp h).1
    rw [accept_of_declarable hd] at hv
    exact ⟨hd, hv⟩
  · rintro ⟨hd, hv⟩
    rw [accept_of_declarable hd]
    exact ⟨rfl, hv⟩

/-- Clashes do not depend on the order of the blocks. -/
theorem Declarable.perm {ds ds' : List Decl} (hp : ds.Perm ds') (h : Declarable ds) :
    Declarable ds' :=
  ⟨fun d hd => h.admissible d (hp.mem_iff.mpr hd), (hp.map slot).nodup_iff.mp h.slots⟩

theorem validate_ok_iff {f : File} {extra : List String} :
    (∃ c, validate f extra = .ok c) ↔ violations f extra = [] := by
  unfold validate
  constructor
  · rintro ⟨c, h⟩
    split at h
    next hv => exact hv
    next => cases h
  · intro h
    simp [h]

/-- The blocks of an accepted source can be declared together. -/
theorem validate_declarable {f : File} {extra : List String} {c : Checked}
    (h : validate f extra = .ok c) : Declarable f.decls := by
  have hnil : violations f extra = [] := validate_ok_iff.mp ⟨c, h⟩
  simp only [violations, List.append_eq_nil_iff] at hnil
  obtain ⟨⟨⟨⟨⟨⟨⟨hcollect, -⟩, -⟩, -⟩, -⟩, -⟩, -⟩, -⟩ := hnil
  exact (collect_eq_nil_iff.mp hcollect).1

/-! ## Searches by name -/

/-- Members told apart by their names are found in any order. -/
theorem find?_perm {α : Type} {name : α → String} {xs ys : List α} (hp : xs.Perm ys)
    (h : (xs.map name).Nodup) (n : String) : xs.find? (name · == n) = ys.find? (name · == n) := by
  have hys : (ys.map name).Nodup := (hp.map name).nodup_iff.mp h
  cases hx : xs.find? (name · == n) with
  | none =>
    symm
    rw [List.find?_eq_none] at hx ⊢
    intro y hy
    exact hx y (hp.mem_iff.mpr hy)
  | some x =>
    have hname : name x = n := by simpa using List.find?_some hx
    have hmem : x ∈ ys := hp.mem_iff.mp (List.mem_of_find?_eq_some hx)
    rw [← hname]
    exact (find?_name hys hmem).symm

/-- Every name leads to the same block in both lists. -/
structure Symbols.Alike (s s' : Symbols) : Prop where
  entity? : s.entity? = s'.entity?
  enum? : s.enum? = s'.enum?
  config? : s.config? = s'.config?

/-- The names of one kind are distinct when the slots of all blocks are. -/
theorem nodup_names {α : Type} {pick : Decl → Option α} {name : α → String} {kind : DeclKind}
    {ds : List Decl} (hpick : ∀ d x, pick d = some x → slot d = (kind, name x))
    (h : (ds.map slot).Nodup) : ((ds.filterMap pick).map name).Nodup := by
  induction ds with
  | nil => exact List.nodup_nil
  | cons d ds ih =>
    rw [List.map_cons, List.nodup_cons] at h
    obtain ⟨hnew, hds⟩ := h
    cases hd : pick d with
    | none =>
      rw [List.filterMap_cons_none hd]
      exact ih hds
    | some x =>
      rw [List.filterMap_cons_some hd, List.map_cons, List.nodup_cons]
      refine ⟨fun hmem => hnew ?_, ih hds⟩
      obtain ⟨y, hy, heq⟩ := List.mem_map.mp hmem
      obtain ⟨c, hc, hcy⟩ := List.mem_filterMap.mp hy
      refine List.mem_map.mpr ⟨c, hc, ?_⟩
      rw [hpick c y hcy, hpick d x hd, heq]

/-- Blocks that can be declared together are found in any order. -/
theorem Declarable.alike {ds ds' : List Decl} (h : Declarable ds) (hp : ds.Perm ds') :
    Symbols.Alike ⟨ds⟩ ⟨ds'⟩ where
  entity? := funext fun n => find?_perm (hp.filterMap _)
    (nodup_names (fun d x hx => by cases d <;> cases hx; rfl) h.slots) n
  enum? := funext fun n => find?_perm (hp.filterMap _)
    (nodup_names (fun d x hx => by cases d <;> cases hx; rfl) h.slots) n
  config? := funext fun n => find?_perm (hp.filterMap _)
    (nodup_names (fun d x hx => by cases d <;> cases hx; rfl) h.slots) n

namespace Symbols.Alike

variable {s s' : Symbols} (h : s.Alike s')
include h

theorem root : s.root = s'.root := congrFun h.config? ""

theorem auth : s.auth = s'.auth := congrFun h.config? "auth"

theorem integrations : s.integrations = s'.integrations := congrFun h.config? "integrations"

theorem fieldType? : s.fieldType? = s'.fieldType? := by
  funext t
  simp only [Symbols.fieldType?, h.enum?, h.entity?]

theorem fieldKind? : Check.fieldKind? s = Check.fieldKind? s' := by
  funext e name
  simp only [Check.fieldKind?, h.fieldType?]

/-! ## Entities -/

theorem checkDefault : Check.checkDefault s = Check.checkDefault s' := by
  have hfits : literalFits s = literalFits s' := by
    funext t v
    simp only [literalFits, h.enum?]
  funext site f t v
  simp only [Check.checkDefault, hfits]

theorem checkField : Check.checkField s = Check.checkField s' := by
  funext site f
  simp only [Check.checkField, h.fieldType?, h.entity?, h.checkDefault]

theorem checkFields (site : Site) (e : EntityDecl) (seen fs : List FieldDecl) :
    Check.checkFields s site e seen fs = Check.checkFields s' site e seen fs := by
  induction fs generalizing seen with
  | nil => rfl
  | cons f fs ih => simp only [Check.checkFields, h.checkField, ih]

theorem checkRelationGroups : Check.checkRelationGroups s = Check.checkRelationGroups s' := by
  have hrelations : relationFields s = relationFields s' := by
    funext e
    simp only [relationFields, h.fieldType?]
  funext site e
  simp only [Check.checkRelationGroups, hrelations]

theorem computedFields (site : Site) (e : EntityDecl) (fs : List FieldDecl) :
    Check.computedFields s site e fs = Check.computedFields s' site e fs := by
  have hcomputed : checkComputed s = checkComputed s' := by
    funext site e c
    simp only [checkComputed, h.fieldType?, h.fieldKind?]
  induction fs with
  | nil => rfl
  | cons f fs ih => simp only [Check.computedFields, hcomputed, ih]

theorem checkEntity : Check.checkEntity s = Check.checkEntity s' := by
  funext e
  simp only [Check.checkEntity, h.checkFields, h.checkRelationGroups, checkComputedFields,
    h.computedFields]

/-! ## Roles -/

theorem roles (extra : List String) : Check.roles s extra = Check.roles s' extra := by
  have hvalues : enumValues s = enumValues s' := by
    funext name
    simp only [enumValues, h.enum?]
  have huser : userEntity? s = userEntity? s' := by
    simp only [userEntity?, h.auth, h.entity?]
  simp only [Check.roles, userRoles, hvalues, huser]

/-! ## Configuration -/

theorem checkProviderProps (site : Site) (schema : ProviderSchema) (seen : List String)
    (ps : List Property) :
    Check.checkProviderProps s site schema seen ps =
      Check.checkProviderProps s' site schema seen ps := by
  have hkind : checkPropKind s = checkPropKind s' := by
    funext site schema spec p
    simp only [checkPropKind, h.entity?]
  induction ps generalizing seen with
  | nil => rfl
  | cons p ps ih => simp only [Check.checkProviderProps, hkind, ih]

theorem checkConfig : Check.checkConfig s = Check.checkConfig s' := by
  have hblock : checkProviderBlock s = checkProviderBlock s' := by
    funext site block at_ props
    simp only [checkProviderBlock, h.checkProviderProps]
  have hintegrations : checkIntegrations s = checkIntegrations s' := by
    have hone : checkIntegration s = checkIntegration s' := by
      funext site props block
      simp only [checkIntegration, hblock]
    funext d
    simp only [checkIntegrations, hone]
  simp only [Check.checkConfig, h.root, h.auth, h.integrations, hblock, hintegrations]

/-! ## Pages and views -/

theorem checkPage : Check.checkPage s = Check.checkPage s' := by
  have hentity : checkPageEntity s = checkPageEntity s' := by
    funext site p props kind
    simp only [checkPageEntity, h.entity?]
  funext known routes p
  simp only [Check.checkPage, hentity]

theorem checkView : Check.checkView s = Check.checkView s' := by
  have hfield : checkViewField s = checkViewField s' := by
    funext site e p
    simp only [checkViewField, h.fieldType?, h.fieldKind?]
  funext v
  simp only [Check.checkView, checkViewFields, h.entity?, hfield]

end Symbols.Alike

/-- No view has the name of an entity. -/
theorem viewClashes_eq_nil_iff {s : Symbols} :
    viewClashes s = [] ↔ ∀ v ∈ s.views, s.entity? v.name = none := by
  simp [viewClashes]

end Scaffold.Check
