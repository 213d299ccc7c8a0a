import Mathlib.Data.List.Flatten
import Mathlib.Data.List.Perm.Basic
import Scaffold.Proofs.Check.Entity

/-! # Claimed names are told apart

Without diagnostics every name has been claimed once, so the names that the blocks of a source
claim in one namespace are distinct. -/
namespace Scaffold.Check

open Scaffold.Source Scaffold.Model
open Scaffold.Text (snake)

/-! ## Claims -/

/-- The names taken so far. -/
def Taken.names (taken : Taken) : List String := taken.map (·.1)

theorem lookup_eq_none {taken : Taken} {name : String} (h : taken.lookup name = none) :
    name ∉ taken.names := by
  intro hm
  obtain ⟨p, hp, rfl⟩ := List.mem_map.mp hm
  have := List.lookup_eq_none_iff.mp h p hp
  simp at this

/-- Claims without diagnostics are all granted, and none of the names was taken. -/
theorem claimAll_accepted {space : String} {taken : Taken} {cs : List Claim}
    (h : (taken.claimAll space cs).2 = []) :
    (taken.claimAll space cs).1.names = taken.names ++ cs.map (·.ident) ∧
      (taken.names.Nodup → (taken.names ++ cs.map (·.ident)).Nodup) := by
  induction cs generalizing taken with
  | nil => simp [Taken.claimAll]
  | cons c cs ih =>
    simp only [Taken.claimAll, List.append_eq_nil_iff] at h ⊢
    cases hl : taken.lookup c.ident with
    | some holder => simp [Taken.claim, hl] at h
    | none =>
      simp only [Taken.claim, hl] at h ⊢
      have hnames : Taken.names (taken ++ [(c.ident, ⟨c.what, some c.pos⟩)]) =
          taken.names ++ [c.ident] := by simp [Taken.names]
      obtain ⟨hall, hnodup⟩ := ih h.2
      rw [hnames, List.append_assoc, List.singleton_append] at hall hnodup
      exact ⟨hall, fun ht => hnodup (Symbols.nodup_snoc ht (lookup_eq_none hl))⟩

theorem claim_eq_claimAll (space : String) (taken : Taken) (c : Claim) :
    taken.claim space c = taken.claimAll space [c] := by
  simp [Taken.claimAll]

theorem firstOf_eq {α : Type} {key : α → String} {seen : List String} {xs : List α}
    (hseen : ∀ x ∈ xs, key x ∉ seen) (h : (xs.map key).Nodup) : firstOf key seen xs = xs := by
  induction xs generalizing seen with
  | nil => rfl
  | cons x xs ih =>
    obtain ⟨hx, hxs⟩ := List.forall_mem_cons.mp hseen
    rw [List.map_cons, List.nodup_cons] at h
    have hrest : ∀ y ∈ xs, key y ∉ key x :: seen := by
      intro y hy hmem
      rcases List.mem_cons.mp hmem with he | hm
      · exact h.1 (he ▸ List.mem_map_of_mem hy)
      · exact hxs y hy hm
    simp [firstOf, hx, ih hrest h.2]

/-! ## Blocks -/

theorem checkValues_accepted {site : Site} {e : EnumDecl} {seen : List String}
    {vs : List EnumValue} (h : checkValues site e seen vs = []) :
    (vs.map (·.name)).Nodup ∧ ∀ v ∈ vs, v.name ∉ seen := by
  induction vs generalizing seen with
  | nil => simp
  | cons v vs ih =>
    unfold checkValues at h
    split at h
    · cases h
    next hv =>
      obtain ⟨hnodup, hseen⟩ := ih h
      have hfresh : v.name ∉ vs.map (·.name) := by
        intro hm
        obtain ⟨w, hw, he⟩ := List.mem_map.mp hm
        exact hseen w hw (by simp [he])
      refine ⟨List.nodup_cons.mpr ⟨hfresh, hnodup⟩, List.forall_mem_cons.mpr ⟨by simpa using hv, ?_⟩⟩
      exact fun w hw hm => hseen w hw (List.mem_cons_of_mem _ hm)

theorem checkEnum_accepted {e : EnumDecl} (h : checkEnum e = []) :
    (e.values.map (·.name)).Nodup := by
  simp only [checkEnum, List.append_eq_nil_iff] at h
  exact (checkValues_accepted h.2).1

/-- The names that a block claims among the identifiers of the package. -/
def packageIdents : Decl → List String
  | .entity e => typeName e.name :: (e.fields.filter isComputed).map (resolverName e.name ·.name)
  | .enum e =>
    typeName e.name :: (firstOf EnumValue.name [] e.values).map (enumConstName e.name ·.name)
  | .view v => typeName v.name :: (viewFormulas v).map (resolverName v.name ·.key)
  | .workflow w => [handlerName w.name]
  | _ => []

/-- The names that a block claims among the regions of workflow steps. -/
def regionIdents : Decl → List String
  | .workflow w => [stepRegion w.name 1]
  | _ => []

/-- What one block without diagnostics adds to the names taken. -/
structure DeclClaimed (package regions : Taken) (d : Decl) (after : Taken × Taken) : Prop where
  idents : after.1.names = package.names ++ packageIdents d
  idents_apart : package.names.Nodup → (package.names ++ packageIdents d).Nodup
  steps : after.2.names = regions.names ++ regionIdents d
  steps_apart : regions.names.Nodup → (regions.names ++ regionIdents d).Nodup
  columns : ∀ e, d = .entity e →
    ((firstOf FieldDecl.name [] e.fields).map (snake ·.name)).Nodup

theorem claimDecl_accepted {s : Symbols} {package regions : Taken} {d : Decl}
    (hview : ∀ v, d = .view v → s.entity? v.name = none)
    (h : (claimDecl s package regions d).2 = []) :
    DeclClaimed package regions d (claimDecl s package regions d).1 := by
  -- A block of another kind declares no columns.
  cases d with
  | entity e =>
    simp only [claimDecl, claim_eq_claimAll, List.append_eq_nil_iff] at h ⊢
    obtain ⟨⟨htype, hcolumns⟩, hresolvers⟩ := h
    obtain ⟨ht, htn⟩ := claimAll_accepted htype
    obtain ⟨hr, hrn⟩ := claimAll_accepted hresolvers
    obtain ⟨-, hcn⟩ := claimAll_accepted hcolumns
    have hidents : package.names ++ packageIdents (.entity e) =
        package.names ++ [typeName e.name] ++
          (resolverClaims (siteOf (.entity e)) e).map (·.ident) := by
      simp [packageIdents, resolverClaims, Function.comp_def]
    rw [ht] at hr hrn
    refine ⟨by rw [hidents]; exact hr, fun hp => by rw [hidents]; exact hrn (htn hp),
      by simp [regionIdents], by simp [regionIdents], fun e' he => ?_⟩
    cases he
    simpa [columnClaims, Taken.names, Function.comp_def] using hcn (by simp [Taken.names])
  | enum e =>
    simp only [claimDecl] at h ⊢
    obtain ⟨hc, hcn⟩ := claimAll_accepted h
    have hidents : (enumClaims (siteOf (.enum e)) e).map (·.ident) = packageIdents (.enum e) := by
      simp [packageIdents, enumClaims, Function.comp_def]
    rw [hidents] at hc hcn
    exact ⟨hc, hcn, by simp [regionIdents], by simp [regionIdents], fun _ he => by cases he⟩
  | view v =>
    simp only [claimDecl, hview v rfl, Option.isSome_none, Bool.false_eq_true, if_false] at h ⊢
    obtain ⟨hc, hcn⟩ := claimAll_accepted h
    have hidents : (viewClaims (siteOf (.view v)) v).map (·.ident) = packageIdents (.view v) := by
      simp [packageIdents, viewClaims, Function.comp_def]
    rw [hidents] at hc hcn
    exact ⟨hc, hcn, by simp [regionIdents], by simp [regionIdents], fun _ he => by cases he⟩
  | workflow w =>
    simp only [claimDecl, claim_eq_claimAll] at h ⊢
    split at h
    next hempty =>
      simp only [hempty, if_true]
      obtain ⟨hc, hcn⟩ := claimAll_accepted (List.isEmpty_iff.mp hempty)
      obtain ⟨hr, hrn⟩ := claimAll_accepted h
      exact ⟨hc, hcn, hr, hrn, fun _ he => by cases he⟩
    next hempty => exact absurd (List.isEmpty_iff.mpr h) hempty
  | page p => exact ⟨by simp [claimDecl, packageIdents], by simp [packageIdents],
      by simp [claimDecl, regionIdents], by simp [regionIdents], fun _ he => by cases he⟩
  | config c => exact ⟨by simp [claimDecl, packageIdents], by simp [packageIdents],
      by simp [claimDecl, regionIdents], by simp [regionIdents], fun _ he => by cases he⟩

theorem claimDecls_accepted {s : Symbols} {package regions : Taken} {ds : List Decl}
    (hview : ∀ v, .view v ∈ ds → s.entity? v.name = none)
    (hp : package.names.Nodup) (hr : regions.names.Nodup)
    (h : claimDecls s package regions ds = []) :
    (package.names ++ ds.flatMap packageIdents).Nodup ∧
      (regions.names ++ ds.flatMap regionIdents).Nodup ∧
      ∀ e, .entity e ∈ ds → ((firstOf FieldDecl.name [] e.fields).map (snake ·.name)).Nodup := by
  induction ds generalizing package regions with
  | nil => simpa using ⟨hp, hr⟩
  | cons d ds ih =>
    simp only [claimDecls, List.append_eq_nil_iff] at h
    have hd := claimDecl_accepted (fun v hv => hview v (by simp [hv])) h.1
    obtain ⟨hpackage, hregions, hcolumns⟩ := ih (fun v hv => hview v (by simp [hv]))
      (hd.idents ▸ hd.idents_apart hp) (hd.steps ▸ hd.steps_apart hr) h.2
    rw [hd.idents, List.append_assoc] at hpackage
    rw [hd.steps, List.append_assoc] at hregions
    refine ⟨hpackage, hregions, fun e he => ?_⟩
    rcases List.mem_cons.mp he with he | he
    · exact hd.columns e he.symm
    · exact hcolumns e he

/-! ## Sources -/

/-- The blocks of a source, one kind after another. -/
theorem flatMap_decls_perm (s : Symbols) (f : Decl → List String) (hpage : ∀ p, f (.page p) = [])
    (hconfig : ∀ c, f (.config c) = []) :
    (s.decls.flatMap f).Perm
      (s.entities.flatMap (f ∘ .entity) ++ s.enums.flatMap (f ∘ .enum) ++
        s.views.flatMap (f ∘ .view) ++ s.workflows.flatMap (f ∘ .workflow)) := by
  obtain ⟨ds⟩ := s
  rw [List.perm_iff_count]
  intro name
  simp only [Symbols.entities, Symbols.enums, Symbols.views, Symbols.workflows, List.count_append]
  induction ds with
  | nil => simp
  | cons d ds ih =>
    rw [List.flatMap_cons, List.count_append, ih]
    cases d <;> simp only [List.filterMap_cons, List.flatMap_cons, Function.comp_apply,
      List.count_append, List.count_nil, hpage, hconfig] <;> omega

theorem flatMap_regionIdents (s : Symbols) :
    s.decls.flatMap regionIdents = s.workflows.map (stepRegion ·.name 1) := by
  obtain ⟨ds⟩ := s
  simp only [Symbols.workflows]
  induction ds with
  | nil => rfl
  | cons d ds ih =>
    rw [List.flatMap_cons, ih]
    cases d <;> simp [regionIdents]

theorem Symbols.Accepted.claimed {s : Symbols} {extra : List String} (h : s.Accepted extra) :
    (runtimeNames ++ s.decls.flatMap packageIdents).Nodup ∧
      (s.workflows.map (stepRegion ·.name 1)).Nodup ∧
      ∀ e ∈ s.entities, (e.fields.map (snake ·.name)).Nodup := by
  have hnames := h.names
  simp only [checkGeneratedNames, List.append_eq_nil_iff] at hnames
  have hview (v : BlockDecl) (hv : .view v ∈ s.decls) : s.entity? v.name = none :=
    h.view_apart v (List.mem_filterMap.mpr ⟨_, hv, rfl⟩)
  have hruntime : runtimeOwners.names = runtimeNames := by
    simp [Taken.names, runtimeOwners, Function.comp_def]
  obtain ⟨hpackage, hregions, hcolumns⟩ := claimDecls_accepted hview
    (by rw [hruntime]; decide) (by simp [Taken.names]) hnames.1
  rw [hruntime] at hpackage
  rw [flatMap_regionIdents] at hregions
  refine ⟨hpackage, hregions, fun e he => ?_⟩
  obtain ⟨d, hd, hpick⟩ := List.mem_filterMap.mp he
  cases d <;> cases hpick
  have hfirst := hcolumns e hd
  rwa [firstOf_eq (by simp) (h.entity he).names] at hfirst

end Scaffold.Check
