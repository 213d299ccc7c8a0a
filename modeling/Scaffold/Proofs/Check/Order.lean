import Scaffold.Proofs.Check.Clash
import Scaffold.Proofs.Check.GeneratedNames
import Scaffold.Proofs.Check.Page

/-! # The order of the blocks

A route and a generated name go to the block that asks first, and the other block is reported. So
the reports depend on the order of the blocks, but whether there is anything to report does not:
each list of claims is granted exactly when no two of them are for the same name. -/
namespace Scaffold.Check

open Scaffold.Source Scaffold.Model
open Scaffold.Text (snake)

/-! ## Routes -/

theorem checkPage_props {s : Symbols} {known : List String} {routes : List (String × String)}
    {p : BlockDecl} (h : (checkPage s known routes p).2 = []) :
    (checkProps (pageSite p) p.props pageKeys).1 = p.props := by
  simp only [checkPage, List.append_eq_nil_iff] at h
  obtain ⟨⟨⟨⟨⟨⟨⟨⟨⟨hprops, -⟩, -⟩, -⟩, -⟩, -⟩, -⟩, -⟩, -⟩, -⟩ := h
  exact (checkProps_accepted hprops).1

/-- What a page with a free route has to report does not depend on the routes before it. -/
theorem checkPage_free {s : Symbols} {known : List String} {routes : List (String × String)}
    {p : BlockDecl} (hprops : (checkProps (pageSite p) p.props pageKeys).1 = p.props)
    (hfree : routes.lookup (routeOf p) = none) :
    (checkPage s known routes p).2 = (checkPage s known [] p).2 := by
  rw [routeOf, ← hprops] at hfree
  unfold pageSite at hfree
  simp only [checkPage, hfree, List.lookup_nil]

/-- Beside others a page has nothing to report when it has nothing to report by itself and its
route is free. -/
theorem checkPage_eq_nil_iff {s : Symbols} {known : List String}
    {routes : List (String × String)} {p : BlockDecl} :
    (checkPage s known routes p).2 = [] ↔
      (checkPage s known [] p).2 = [] ∧ routes.lookup (routeOf p) = none := by
  constructor
  · intro h
    have hfree := (checkPage_accepted h).2.1
    exact ⟨(checkPage_free (checkPage_props h) hfree).symm.trans h, hfree⟩
  · rintro ⟨h, hfree⟩
    exact (checkPage_free (checkPage_props h) hfree).trans h

theorem checkPages_eq_nil_iff {s : Symbols} {known : List String}
    {routes : List (String × String)} {ps : List BlockDecl} :
    checkPages s known routes ps = [] ↔ (∀ p ∈ ps, (checkPage s known [] p).2 = []) ∧
      (ps.map routeOf).Nodup ∧ ∀ p ∈ ps, routes.lookup (routeOf p) = none := by
  induction ps generalizing routes with
  | nil => simp [checkPages]
  | cons p ps ih =>
    have hlookup (q : BlockDecl) : (routes ++ [(routeOf p, p.name)]).lookup (routeOf q) = none ↔
        routes.lookup (routeOf q) = none ∧ routeOf q ≠ routeOf p := by
      rw [List.lookup_append, Option.or_eq_none_iff]
      simp
    simp only [checkPages, List.append_eq_nil_iff]
    constructor
    · rintro ⟨hp, hps⟩
      obtain ⟨-, -, hnext⟩ := checkPage_accepted hp
      obtain ⟨hown, hfree⟩ := checkPage_eq_nil_iff.mp hp
      rw [hnext, ih] at hps
      obtain ⟨hall, hnodup, hroutes⟩ := hps
      refine ⟨List.forall_mem_cons.mpr ⟨hown, hall⟩, List.nodup_cons.mpr ⟨fun hmem => ?_, hnodup⟩,
        List.forall_mem_cons.mpr ⟨hfree, fun q hq => ((hlookup q).mp (hroutes q hq)).1⟩⟩
      obtain ⟨q, hq, heq⟩ := List.mem_map.mp hmem
      exact ((hlookup q).mp (hroutes q hq)).2 heq
    · rintro ⟨hall, hnodup, hroutes⟩
      obtain ⟨hown, hall⟩ := List.forall_mem_cons.mp hall
      obtain ⟨hnew, hnodup⟩ := List.nodup_cons.mp hnodup
      obtain ⟨hfree, hroutes⟩ := List.forall_mem_cons.mp hroutes
      have hp := checkPage_eq_nil_iff.mpr ⟨hown, hfree⟩
      refine ⟨hp, ?_⟩
      rw [(checkPage_accepted hp).2.2, ih]
      refine ⟨hall, hnodup, fun q hq => (hlookup q).mpr ⟨hroutes q hq, fun heq => hnew ?_⟩⟩
      exact heq ▸ List.mem_map_of_mem hq

/-! ## Generated names -/

/-- Names of which none is taken and no two are equal are all granted. -/
theorem claimAll_granted {space : String} {taken : Taken} {cs : List Claim}
    (h : (taken.names ++ cs.map (·.ident)).Nodup) : (taken.claimAll space cs).2 = [] := by
  induction cs generalizing taken with
  | nil => rfl
  | cons c cs ih =>
    have hfree : taken.lookup c.ident = none := by
      rw [List.lookup_eq_none_iff]
      intro t ht
      have hmem : t.1 ∈ taken.names := List.mem_map_of_mem ht
      exact bne_iff_ne.mpr ((List.nodup_append.mp h).2.2 _ hmem _ (.head _)).symm
    simp only [Taken.claimAll, Taken.claim, hfree, List.nil_append]
    apply ih
    simpa [Taken.names] using h

/-- A block is granted its names when they are distinct and not taken. -/
theorem claimDecl_granted {s : Symbols} {package regions : Taken} {d : Decl}
    (hview : ∀ v, d = .view v → s.entity? v.name = none)
    (hidents : (package.names ++ packageIdents d).Nodup)
    (hsteps : (regions.names ++ regionIdents d).Nodup)
    (hcolumns : ∀ e, d = .entity e →
      ((firstOf FieldDecl.name [] e.fields).map (snake ·.name)).Nodup) :
    (claimDecl s package regions d).2 = [] := by
  cases d with
  | entity e =>
    have htype : (package.claimAll packageSpace
        [⟨siteOf (.entity e), e.pos, typeName e.name, "entity " ++ Text.quoted e.name⟩]).2 = [] := by
      apply claimAll_granted
      rw [packageIdents, List.append_cons] at hidents
      exact hidents.of_append_left
    simp only [claimDecl, claim_eq_claimAll, List.append_eq_nil_iff]
    refine ⟨⟨htype, ?_⟩, ?_⟩
    · apply claimAll_granted
      simpa [columnClaims, Taken.names, Function.comp_def] using hcolumns e rfl
    · apply claimAll_granted
      rw [(claimAll_accepted htype).1]
      simpa [packageIdents, resolverClaims, Function.comp_def] using hidents
  | enum e =>
    simp only [claimDecl]
    apply claimAll_granted
    simpa [packageIdents, enumClaims, Function.comp_def] using hidents
  | view v =>
    simp only [claimDecl, hview v rfl, Option.isSome_none, Bool.false_eq_true, if_false]
    apply claimAll_granted
    simpa [packageIdents, viewClaims, Function.comp_def] using hidents
  | workflow w =>
    have hhandler : (package.claimAll packageSpace [⟨siteOf (.workflow w), w.pos,
        handlerName w.name, "workflow " ++ Text.quoted w.name⟩]).2 = [] :=
      claimAll_granted hidents
    simp only [claimDecl, claim_eq_claimAll, hhandler, List.isEmpty_nil, if_true]
    exact claimAll_granted hsteps
  | page p => rfl
  | config c => rfl

/-- The names of all blocks are granted exactly when they are distinct and none is taken. -/
theorem claimDecls_eq_nil_iff {s : Symbols} {package regions : Taken} {ds : List Decl}
    (hview : ∀ v, .view v ∈ ds → s.entity? v.name = none)
    (hp : package.names.Nodup) (hr : regions.names.Nodup) :
    claimDecls s package regions ds = [] ↔
      (package.names ++ ds.flatMap packageIdents).Nodup ∧
      (regions.names ++ ds.flatMap regionIdents).Nodup ∧
      ∀ e, .entity e ∈ ds → ((firstOf FieldDecl.name [] e.fields).map (snake ·.name)).Nodup := by
  refine ⟨claimDecls_accepted hview hp hr, ?_⟩
  induction ds generalizing package regions with
  | nil => exact fun _ => rfl
  | cons d ds ih =>
    rintro ⟨hidents, hsteps, hcolumns⟩
    rw [List.flatMap_cons, ← List.append_assoc] at hidents hsteps
    have hown := claimDecl_granted (fun v hv => hview v (by simp [hv])) hidents.of_append_left
      hsteps.of_append_left fun e he => hcolumns e (by simp [he])
    have hd := claimDecl_accepted (fun v hv => hview v (by simp [hv])) hown
    rw [← hd.idents] at hidents
    rw [← hd.steps] at hsteps
    simp only [claimDecls, hown, List.nil_append]
    exact ih (fun v hv => hview v (.tail _ hv)) hidents.of_append_left hsteps.of_append_left
      ⟨hidents, hsteps, fun e he => hcolumns e (.tail _ he)⟩

theorem claimDecls_alike {s s' : Symbols} (h : s.Alike s') (package regions : Taken)
    (ds : List Decl) : claimDecls s package regions ds = claimDecls s' package regions ds := by
  have hdecl : claimDecl s = claimDecl s' := by
    funext package regions d
    simp only [claimDecl, h.entity?]
  induction ds generalizing package regions with
  | nil => rfl
  | cons d ds ih => simp only [claimDecls, hdecl, ih]

/-! ## Sources -/

theorem checkPages_perm {s s' : Symbols} (h : s.Alike s') {known : List String}
    {ps ps' : List BlockDecl} (hp : ps.Perm ps') (hnil : checkPages s known [] ps = []) :
    checkPages s' known [] ps' = [] := by
  rw [checkPages_eq_nil_iff] at hnil ⊢
  obtain ⟨hown, hnodup, -⟩ := hnil
  refine ⟨fun p hm => ?_, (hp.map routeOf).nodup_iff.mp hnodup, fun p _ => rfl⟩
  rw [← h.checkPage]
  exact hown p (hp.mem_iff.mpr hm)

theorem checkGeneratedNames_perm {s s' : Symbols} (h : s.Alike s')
    (hp : s.decls.Perm s'.decls) (hview : ∀ v ∈ s.views, s.entity? v.name = none)
    (hnil : checkGeneratedNames s = []) : checkGeneratedNames s' = [] := by
  have hfree (v : BlockDecl) (hv : .view v ∈ s.decls) : s.entity? v.name = none :=
    hview v (List.mem_filterMap.mpr ⟨_, hv, rfl⟩)
  have hruntime : runtimeOwners.names.Nodup := by decide
  have hempty : Taken.names [] = [] := rfl
  simp only [checkGeneratedNames, List.append_eq_nil_iff] at hnil ⊢
  obtain ⟨hnames, hpages⟩ := hnil
  constructor
  · rw [claimDecls_eq_nil_iff hfree hruntime (by simp [hempty])] at hnames
    obtain ⟨hidents, hsteps, hcolumns⟩ := hnames
    rw [← claimDecls_alike h, claimDecls_eq_nil_iff
      (fun v hv => hfree v (hp.mem_iff.mpr hv)) hruntime (by simp [hempty])]
    have hpackage := (hp.flatMap_right packageIdents).append_left runtimeOwners.names
    refine ⟨hpackage.nodup_iff.mp hidents, (hp.flatMap_right regionIdents).nodup_iff.mp hsteps,
      fun e he => hcolumns e (hp.mem_iff.mpr he)⟩
  · rw [List.flatMap_eq_nil_iff] at hpages ⊢
    exact fun p hm => hpages p ((hp.filterMap _).mem_iff.mpr hm)

/-- A source without violations has none in any other order. -/
theorem violations_perm {f f' : File} (hp : f.decls.Perm f'.decls) {extra : List String}
    (h : violations f extra = []) : violations f' extra = [] := by
  simp only [violations, List.append_eq_nil_iff] at h ⊢
  obtain ⟨⟨⟨⟨⟨⟨⟨hcollect, hentities⟩, henums⟩, hconfig⟩, hpages⟩, hviews⟩, hworkflows⟩, hnames⟩ := h
  obtain ⟨hdecls, hclash⟩ := collect_eq_nil_iff.mp hcollect
  have hs : (collect f).1 = ⟨f.decls⟩ := (collect_distinct hcollect).1
  have halike : Symbols.Alike ⟨f.decls⟩ ⟨f'.decls⟩ := hdecls.alike hp
  rw [viewClashes_eq_nil_iff] at hclash
  have hcollect' : (collect f').2 = [] := by
    rw [collect_eq_nil_iff, viewClashes_eq_nil_iff, ← halike.entity?]
    exact ⟨hdecls.perm hp, fun v hv => hclash v ((hp.filterMap _).mem_iff.mpr hv)⟩
  rw [hs] at hentities henums hconfig hpages hviews hworkflows hnames
  rw [(collect_distinct hcollect').1]
  rw [List.flatMap_eq_nil_iff] at hentities henums hviews hworkflows
  simp only [List.flatMap_eq_nil_iff]
  refine ⟨⟨⟨⟨⟨⟨⟨hcollect', fun e he => ?_⟩, fun e he => ?_⟩, ?_⟩, ?_⟩, fun v hv => ?_⟩,
    fun w hw => ?_⟩, ?_⟩
  · rw [← halike.checkEntity]
    exact hentities e ((hp.filterMap _).mem_iff.mpr he)
  · exact henums e ((hp.filterMap _).mem_iff.mpr he)
  · rw [← halike.checkConfig]
    exact hconfig
  · rw [← halike.roles]
    exact checkPages_perm halike (hp.filterMap _) hpages
  · rw [← halike.checkView]
    exact hviews v ((hp.filterMap _).mem_iff.mpr hv)
  · exact hworkflows w ((hp.filterMap _).mem_iff.mpr hw)
  · exact checkGeneratedNames_perm halike hp hclash hnames

/-- In any other order a source is accepted as well, with the same roles, and every name leads to
the same block. -/
theorem validate_perm {f f' : File} (hp : f.decls.Perm f'.decls) {extra : List String}
    {c : Checked} (h : validate f extra = .ok c) :
    ∃ c', validate f' extra = .ok c' ∧ c'.roles = c.roles ∧ c.symbols.Alike c'.symbols := by
  obtain ⟨c', h'⟩ := validate_ok_iff.mpr (violations_perm hp (validate_ok_iff.mp ⟨c, h⟩))
  obtain ⟨hs, hroles, -⟩ := validate_accepted h
  obtain ⟨hs', hroles', -⟩ := validate_accepted h'
  have halike : c.symbols.Alike c'.symbols := by
    rw [hs, hs']
    exact (validate_declarable h).alike hp
  refine ⟨c', h', ?_, halike⟩
  rw [hroles, hroles', halike.roles]

end Scaffold.Check
