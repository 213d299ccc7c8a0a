import Scaffold.Proofs.Check.Order

/-! # A page whose entity is not declared

What a page says of its entity is checked only where the entity is declared. So a page that names
no entity is reported for that alone, however much else it says: its columns, its fields and the key
that a details page asks for are passed over, and no other check reads the entity of a page. -/
namespace Scaffold.Check

open Scaffold.Source Scaffold.Model

/-! ## Another value -/

/-- A property that has `v` for its value if it has the given key. -/
def withValue (key : String) (v : Value) (p : Property) : Property :=
  if p.key = key then { p with value := v } else p

@[simp] theorem withValue_key (key : String) (v : Value) (p : Property) :
    (withValue key v p).key = p.key := by
  rw [withValue]
  split <;> rfl

@[simp] theorem withValue_pos (key : String) (v : Value) (p : Property) :
    (withValue key v p).pos = p.pos := by
  rw [withValue]
  split <;> rfl

/-- Whether properties count is a matter of their keys. -/
theorem acceptProps_withValue (site : Site) (allowed : Option (List String)) (key : String)
    (v : Value) (seen ps : List Property) :
    acceptProps site allowed (seen.map (withValue key v)) (ps.map (withValue key v)) =
      ((acceptProps site allowed seen ps).1.map (withValue key v),
        (acceptProps site allowed seen ps).2) := by
  induction ps generalizing seen with
  | nil => rfl
  | cons p ps ih =>
    have hseen : (seen.map (withValue key v)).any (·.key == p.key) = seen.any (·.key == p.key) := by
      simp [List.any_map, Function.comp_def]
    have hnext := ih (seen ++ [p])
    rw [List.map_append, List.map_singleton] at hnext
    simp only [List.map_cons, acceptProps, withValue_key, withValue_pos, hseen, ih, hnext]
    split
    · rfl
    · split
      · split <;> rfl
      · rfl

theorem lookup_withValue (key : String) (v : Value) (props : List Property) (k : String) :
    lookup (props.map (withValue key v)) k = (lookup props k).map (withValue key v) := by
  simp only [lookup, List.find?_map, Function.comp_def, withValue_key]

theorem lookup_withValue_ne {key k : String} (hne : k ≠ key) (v : Value) (props : List Property) :
    lookup (props.map (withValue key v)) k = lookup props k := by
  rw [lookup_withValue]
  cases hl : lookup props k with
  | none => rfl
  | some p =>
    have hk : p.key = k := by simpa using List.find?_some hl
    rw [Option.map_some, withValue, if_neg (hk ▸ hne)]

/-! ## One page -/

/-- A page with `v` for its entity. -/
def retarget (v : Value) (p : BlockDecl) : BlockDecl :=
  { p with props := p.props.map (withValue "entity" v) }

section Retarget

variable (v : Value) (p : BlockDecl)

theorem lookup_retarget {k : String} (hk : k ≠ "entity") :
    lookup (retarget v p).props k = lookup p.props k := lookup_withValue_ne hk v p.props

theorem lookup_retarget_entity {q : Property} (hq : lookup p.props "entity" = some q) :
    lookup (retarget v p).props "entity" = some { q with value := v } := by
  have hkey : q.key = "entity" := by simpa using List.find?_some hq
  change lookup (p.props.map (withValue "entity" v)) "entity" = _
  rw [lookup_withValue, hq, Option.map_some, withValue, if_pos hkey]

theorem checkProps_retarget {site : Site} (h : (checkProps site p.props pageKeys).2 = []) :
    checkProps site (retarget v p).props pageKeys = ((retarget v p).props, []) := by
  have hmap := acceptProps_withValue site (some pageKeys) "entity" v [] p.props
  refine hmap.trans (Prod.ext ?_ h)
  exact congrArg (List.map _) (checkProps_accepted h).1

theorem checkPageType_retarget (site : Site) :
    checkPageType site (retarget v p) (retarget v p).props = checkPageType site p p.props := by
  rw [checkPageType, checkPageType, lookup_retarget v p (by decide)]
  rfl

theorem checkComponent_retarget (site : Site) :
    checkComponent site (retarget v p) (retarget v p).props = checkComponent site p p.props := by
  rw [checkComponent, checkComponent, lookup_retarget v p (by decide)]
  rfl

theorem checkRoute_retarget (site : Site) :
    checkRoute site (retarget v p) (retarget v p).props = checkRoute site p p.props := by
  rw [checkRoute, checkRoute, lookup_retarget v p (by decide)]
  rfl

theorem checkTitle_retarget (site : Site) :
    checkTitle site (retarget v p) (retarget v p).props = checkTitle site p p.props := by
  rw [checkTitle, checkTitle, lookup_retarget v p (by decide)]
  rfl

/-- Lists of fields are checked against the entity of the page, if there is one. -/
theorem checkListed_retarget {site : Site} {kind : Option PageKind} {entity : Option EntityDecl}
    {key : String} {only : PageKind} {editable : Bool} (hkey : key ≠ "entity")
    (h : checkListed site p p.props kind entity key only editable = []) :
    checkListed site (retarget v p) (retarget v p).props kind none key only editable = [] := by
  unfold checkListed at h ⊢
  rw [lookup_retarget v p hkey]
  cases hq : lookup p.props key with
  | none => rfl
  | some q =>
    simp only [hq] at h ⊢
    split at h
    · cases h
    next hkind => rw [if_neg hkind]

end Retarget

/-- The report of a page whose entity `v` is not declared. -/
def unresolved (p : BlockDecl) (v : Value) : Diagnostic :=
  ⟨pageSite p, v.pos, .pageEntityUnresolved p.name (nameOf v)⟩

theorem checkPage_retarget {s : Symbols} {known : List String} {routes : List (String × String)}
    {p : BlockDecl} {q : Property} {v : Value} (h : (checkPage s known routes p).2 = [])
    (hq : lookup p.props "entity" = some q) (hv : s.entity? (nameOf v) = none) :
    checkPage s known routes (retarget v p) =
      ((checkPage s known routes p).1, [unresolved p v]) := by
  simp only [checkPage, List.append_eq_nil_iff] at h
  obtain ⟨⟨⟨⟨⟨⟨⟨⟨⟨hprops, htype⟩, -⟩, hcomponent⟩, hroute⟩, htaken⟩, htitle⟩, hpermissions⟩, hcolumns⟩,
    hfields⟩ := h
  have hkept : checkProps ⟨p.file, .page, p.name⟩ p.props pageKeys = (p.props, []) :=
    Prod.ext (checkProps_accepted hprops).1 hprops
  simp only [hkept] at htype hcomponent hroute htaken htitle hpermissions hcolumns hfields
  have hentity (site : Site) (kind : Option PageKind) :
      checkPageEntity s site (retarget v p) (retarget v p).props kind =
        (none, [⟨site, v.pos, .pageEntityUnresolved p.name (nameOf v)⟩]) := by
    simp only [checkPageEntity, lookup_retarget_entity v p hq, hv]
    rfl
  have hname : (retarget v p).name = p.name := rfl
  have hfile : (retarget v p).file = p.file := rfl
  have hpos : (retarget v p).pos = p.pos := rfl
  simp only [checkPage, hname, hfile, hpos, hkept, checkProps_retarget v p hprops,
    checkPageType_retarget, hentity, checkComponent_retarget, checkRoute_retarget,
    checkTitle_retarget, lookup_retarget v p (k := "permissions") (by decide),
    checkListed_retarget v p (by decide) hcolumns, checkListed_retarget v p (by decide) hfields,
    htype, hcomponent, hroute, htitle, hpermissions, htaken]
  rfl

/-! ## The other blocks -/

/-- The page of the given name with `v` for its entity; any other page as it is. -/
def retargetNamed (name : String) (v : Value) (p : BlockDecl) : BlockDecl :=
  if p.name = name then retarget v p else p

def retargetDecl (name : String) (v : Value) : Decl → Decl
  | .page p => .page (retargetNamed name v p)
  | d => d

def retargetSymbols (name : String) (v : Value) (s : Symbols) : Symbols :=
  ⟨s.decls.map (retargetDecl name v)⟩

/-- A source in which the page of the given name has `v` for its entity. -/
def retargetFile (name : String) (v : Value) (f : File) : File :=
  { f with decls := f.decls.map (retargetDecl name v) }

@[simp] theorem retargetNamed_name (name : String) (v : Value) (p : BlockDecl) :
    (retargetNamed name v p).name = p.name := by
  rw [retargetNamed]
  split <;> rfl

theorem slot_retargetDecl (name : String) (v : Value) (d : Decl) :
    slot (retargetDecl name v d) = slot d := by
  cases d <;> simp [retargetDecl]

section Retarget

variable (name : String) (v : Value) (s : Symbols)

theorem filterMap_retarget {α : Type} {pick : Decl → Option α}
    (hpick : ∀ p, pick (.page p) = none) (ds : List Decl) :
    (ds.map (retargetDecl name v)).filterMap pick = ds.filterMap pick := by
  rw [List.filterMap_map]
  refine List.filterMap_congr fun d _ => ?_
  cases d with
  | page p => exact (hpick _).trans (hpick _).symm
  | _ => rfl

theorem entities_retarget : (retargetSymbols name v s).entities = s.entities :=
  filterMap_retarget name v (fun _ => rfl) s.decls

theorem enums_retarget : (retargetSymbols name v s).enums = s.enums :=
  filterMap_retarget name v (fun _ => rfl) s.decls

theorem views_retarget : (retargetSymbols name v s).views = s.views :=
  filterMap_retarget name v (fun _ => rfl) s.decls

theorem workflows_retarget : (retargetSymbols name v s).workflows = s.workflows :=
  filterMap_retarget name v (fun _ => rfl) s.decls

theorem configs_retarget : (retargetSymbols name v s).configs = s.configs :=
  filterMap_retarget name v (fun _ => rfl) s.decls

theorem pages_retarget :
    (retargetSymbols name v s).pages = s.pages.map (retargetNamed name v) := by
  rw [Symbols.pages, Symbols.pages, retargetSymbols, List.filterMap_map, List.map_filterMap]
  refine List.filterMap_congr fun d _ => ?_
  cases d <;> rfl

/-- Every name still leads to the same block. -/
theorem alike_retarget : s.Alike (retargetSymbols name v s) where
  entity? := by simp only [funext_iff, Symbols.entity?, entities_retarget, implies_true]
  enum? := by simp only [funext_iff, Symbols.enum?, enums_retarget, implies_true]
  config? := by simp only [funext_iff, Symbols.config?, configs_retarget, implies_true]

theorem Declarable.retarget {ds : List Decl} (h : Declarable ds) :
    Declarable (ds.map (retargetDecl name v)) where
  admissible d hd := by
    obtain ⟨c, hc, rfl⟩ := List.mem_map.mp hd
    cases c with
    | page p => trivial
    | _ => exact h.admissible _ hc
  slots := by
    rw [List.map_map, show slot ∘ retargetDecl name v = slot from
      funext (slot_retargetDecl name v)]
    exact h.slots

/-- A page has no share in the names of generated code. -/
theorem claimDecls_retarget (package regions : Taken) (ds : List Decl) :
    claimDecls s package regions (ds.map (retargetDecl name v)) =
      claimDecls s package regions ds := by
  have hdecl (package regions : Taken) (d : Decl) :
      claimDecl s package regions (retargetDecl name v d) = claimDecl s package regions d := by
    cases d <;> rfl
  induction ds generalizing package regions with
  | nil => rfl
  | cons d ds ih => simp only [List.map_cons, claimDecls, hdecl, ih]

theorem checkPageName_retarget (p : BlockDecl) :
    checkPageName (retargetNamed name v p) = checkPageName p := by
  rw [retargetNamed]
  split
  · rw [checkPageName, checkPageName, lookup_retarget v p (by decide)]
    rfl
  · rfl

theorem checkGeneratedNames_retarget :
    checkGeneratedNames (retargetSymbols name v s) = checkGeneratedNames s := by
  have hclaims : claimDecls (retargetSymbols name v s) runtimeOwners []
      (retargetSymbols name v s).decls = claimDecls s runtimeOwners [] s.decls :=
    (claimDecls_retarget name v _ _ _ s.decls).trans
      (claimDecls_alike (alike_retarget name v s) _ _ _).symm
  simp only [checkGeneratedNames, hclaims, pages_retarget, List.flatMap_map,
    checkPageName_retarget]

end Retarget

/-- Of several pages only the one whose entity is not declared is reported. -/
theorem checkPages_retarget {s : Symbols} {known : List String}
    {routes : List (String × String)} {ps : List BlockDecl} {p : BlockDecl} {q : Property}
    {v : Value} (h : checkPages s known routes ps = []) (hnames : (ps.map (·.name)).Nodup)
    (hp : p ∈ ps) (hq : lookup p.props "entity" = some q) (hv : s.entity? (nameOf v) = none) :
    checkPages s known routes (ps.map (retargetNamed p.name v)) = [unresolved p v] := by
  induction ps generalizing routes with
  | nil => cases hp
  | cons r ps ih =>
    rw [checkPages, List.append_eq_nil_iff] at h
    obtain ⟨hr, hps⟩ := h
    rw [List.map_cons, List.nodup_cons] at hnames
    obtain ⟨hnew, hnames⟩ := hnames
    rw [List.map_cons, checkPages]
    rcases List.mem_cons.mp hp with rfl | hp
    · have hothers : ps.map (retargetNamed p.name v) = ps := by
        refine (List.map_congr_left fun o ho => ?_).trans (List.map_id ps)
        exact if_neg fun heq => hnew (List.mem_map.mpr ⟨o, ho, heq⟩)
      have hown : retargetNamed p.name v p = retarget v p := if_pos rfl
      simp only [hown, hothers, checkPage_retarget hr hq hv, hps, List.append_nil]
    · have hown : retargetNamed p.name v r = r :=
        if_neg fun heq => hnew (List.mem_map.mpr ⟨p, hp, heq.symm⟩)
      simp only [hown, hr, List.nil_append]
      exact ih hps hnames hp

/-! ## Sources -/

theorem collect_retarget {f : File} (h : (collect f).2 = []) (name : String) (v : Value) :
    collect (retargetFile name v f) = (retargetSymbols name v ⟨f.decls⟩, []) := by
  obtain ⟨hdecls, hclash⟩ := collect_eq_nil_iff.mp h
  have hnone : (collect (retargetFile name v f)).2 = [] := by
    refine collect_eq_nil_iff.mpr ⟨hdecls.retarget name v, ?_⟩
    change viewClashes (retargetSymbols name v ⟨f.decls⟩) = []
    rw [viewClashes_eq_nil_iff] at hclash ⊢
    rw [views_retarget, ← (alike_retarget name v ⟨f.decls⟩).entity?]
    exact hclash
  exact Prod.ext (collect_distinct hnone).1 hnone

theorem violations_retarget {f : File} {extra : List String} {p : BlockDecl} {q : Property}
    {v : Value} (h : violations f extra = []) (hp : .page p ∈ f.decls)
    (hq : lookup p.props "entity" = some q)
    (hv : ∀ e, .entity e ∈ f.decls → e.name ≠ nameOf v) :
    violations (retargetFile p.name v f) extra = [unresolved p v] := by
  have hcollect : (collect f).2 = [] := by
    simp only [violations, List.append_eq_nil_iff] at h
    exact h.1.1.1.1.1.1.1
  obtain ⟨c, hc⟩ := validate_ok_iff.mpr h
  obtain ⟨hs, -, hacc⟩ := validate_accepted hc
  rw [hs] at hacc
  have halike := alike_retarget p.name v ⟨f.decls⟩
  have hnone : Symbols.entity? ⟨f.decls⟩ (nameOf v) = none :=
    Symbols.find?_eq_none_iff.mpr fun d hd e he => by
      cases d <;> cases he
      exact hv e hd
  have hmem : p ∈ Symbols.pages ⟨f.decls⟩ := List.mem_filterMap.mpr ⟨_, hp, rfl⟩
  have hpages := checkPages_retarget (checkPages_perm halike (.refl _) hacc.pages)
    hacc.distinct.pages hmem hq (halike.entity? ▸ hnone)
  have hentities := List.flatMap_eq_nil_iff.mpr hacc.entities
  have henums := List.flatMap_eq_nil_iff.mpr hacc.enums
  have hviews := List.flatMap_eq_nil_iff.mpr hacc.views
  have hworkflows := List.flatMap_eq_nil_iff.mpr hacc.workflows
  simp only [violations, collect_retarget hcollect, entities_retarget, enums_retarget,
    views_retarget, workflows_retarget, pages_retarget, ← halike.checkEntity, ← halike.checkConfig,
    ← halike.checkView, ← halike.roles, checkGeneratedNames_retarget, hentities, henums,
    hacc.config, hpages, hviews, hworkflows, hacc.names]
  rfl

/-- A page of an accepted source is given an entity that is not declared. The source is then
reported for this alone, at the place of the new value and in the block of the page, whatever the
type of the page and whatever else it says of its entity. -/
theorem unresolved_entity {f : File} {extra : List String} {c : Checked}
    (h : validate f extra = .ok c) {p : BlockDecl} (hp : .page p ∈ f.decls) {q : Property}
    (hq : lookup p.props "entity" = some q) {v : Value}
    (hv : ∀ e, .entity e ∈ f.decls → e.name ≠ nameOf v) :
    validate (retargetFile p.name v f) extra = .error [unresolved p v] ∧
      (unresolved p v).violation.code = "page_entity_unresolved" ∧
      (unresolved p v).pos = v.pos ∧ (unresolved p v).site = ⟨p.file, .page, p.name⟩ := by
  have hviolations := violations_retarget (validate_ok_iff.mp ⟨c, h⟩) hp hq hv
  refine ⟨?_, rfl, rfl, rfl⟩
  simp only [validate, hviolations, Diagnostic.sorted, List.mergeSort_singleton]

/-- The page of a note, by its key, behind the form in which it is written. The positions are all
the same. -/
def notes : File := ⟨"notes", [
  .entity ⟨⟨"Note", .start, "notes"⟩, [
    ⟨"id", .start, ⟨"Int", false, .start⟩, [.primaryKey]⟩,
    ⟨"text", .start, ⟨"String", false, .start⟩, []⟩]⟩,
  .page ⟨⟨"Write", .start, "notes"⟩, [
    ⟨"type", .start, .ident ["form"] .start⟩,
    ⟨"entity", .start, .ident ["Note"] .start⟩,
    ⟨"fields", .start, .array [.ident ["text"] .start] .start⟩,
    ⟨"route", .start, .string "/write" .start⟩]⟩,
  .page ⟨⟨"Read", .start, "notes"⟩, [
    ⟨"type", .start, .ident ["details"] .start⟩,
    ⟨"entity", .start, .ident ["Note"] .start⟩]⟩]⟩

theorem notes_accepted : (validate notes []).toOption.isSome = true := by decide +kernel

theorem notes_unresolved : ∃ c, validate notes [] = .ok c ∧
    validate (retargetFile "Write" (.ident ["Memo"] ⟨4, 11, 60⟩) notes) [] =
      .error [⟨⟨"notes", .page, "Write"⟩, ⟨4, 11, 60⟩, .pageEntityUnresolved "Write" "Memo"⟩] := by
  have hok := notes_accepted
  cases hc : validate notes [] with
  | error ds => simp [hc, Except.toOption] at hok
  | ok c =>
    have hother (e : EntityDecl) (he : .entity e ∈ notes.decls) :
        e.name ≠ nameOf (.ident ["Memo"] ⟨4, 11, 60⟩) := by
      obtain rfl : e = _ := by simpa [notes] using he
      decide
    exact ⟨c, rfl, (unresolved_entity hc (.tail _ (.head _)) rfl hother).1⟩

end Scaffold.Check
