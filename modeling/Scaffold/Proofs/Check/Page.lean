import Scaffold.Proofs.Check.Entity

/-! # What holds of accepted pages, views and configurations -/
namespace Scaffold.Check

open Scaffold.Source Scaffold.Model

/-! ## Pages -/

def pageSite (p : BlockDecl) : Site := ⟨p.file, .page, p.name⟩

/-- The entity of a page of some kind: declared, with a key where a record is looked up by it, and
left out by custom pages only. -/
inductive EntityGiven (s : Symbols) (p : BlockDecl) (kind : PageKind) : Option EntityDecl → Prop
  | given {q : Property} {e : EntityDecl} (prop : lookup p.props "entity" = some q)
      (found : s.entity? (nameOf q.value) = some e)
      (key : kind = .details → hasPrimaryKey e = true) : EntityGiven s p kind (some e)
  | absent (prop : lookup p.props "entity" = none) (custom : kind = .custom) :
      EntityGiven s p kind none

/-- What holds of a page without diagnostics. -/
structure PageAccepted (s : Symbols) (known : List String) (p : BlockDecl) (kind : PageKind)
    (entity : Option EntityDecl) : Prop where
  type : ∃ t, lookup p.props "type" = some t ∧ PageKind.ofName? (nameOf t.value) = some kind
  given : EntityGiven s p kind entity
  route : (checkRoute (pageSite p) p p.props).2 = []
  permissions : ∀ q, lookup p.props "permissions" = some q →
    checkPermissions known (pageSite p) q = []
  columns : checkListed (pageSite p) p p.props (some kind) entity "columns" .table false = []
  fields : checkListed (pageSite p) p p.props (some kind) entity "fields" .form true = []

theorem checkPageType_accepted {site : Site} {p : BlockDecl} {props : List Property}
    (h : (checkPageType site p props).2 = []) :
    ∃ kind, (checkPageType site p props).1 = some kind ∧
      ∃ t, lookup props "type" = some t ∧ PageKind.ofName? (nameOf t.value) = some kind := by
  unfold checkPageType at h ⊢
  split at h
  · cases h
  next t ht =>
    split at h
    next kind hk =>
      exact ⟨kind, rfl, t, ht, hk⟩
    · cases h

theorem checkPageEntity_accepted {s : Symbols} {site : Site} {p : BlockDecl} {kind : PageKind}
    (h : (checkPageEntity s site p p.props (some kind)).2 = []) :
    EntityGiven s p kind (checkPageEntity s site p p.props (some kind)).1 := by
  unfold checkPageEntity at h ⊢
  split at h
  next q hq =>
    split at h
    · cases h
    next e he =>
      refine .given hq he fun hd => ?_
      by_contra hk
      simp [hd, hk] at h
  next hq =>
    split at h
    next hk => cases hk
    next hk =>
      cases hk
      exact .absent hq rfl
    · cases h

/-- The route that a page takes. -/
def routeOf (p : BlockDecl) : String := (checkRoute (pageSite p) p p.props).1

/-- One page without diagnostics, and the routes after it. -/
theorem checkPage_accepted {s : Symbols} {known : List String} {routes : List (String × String)}
    {p : BlockDecl} (h : (checkPage s known routes p).2 = []) :
    (∃ kind entity, PageAccepted s known p kind entity) ∧ routes.lookup (routeOf p) = none ∧
      (checkPage s known routes p).1 = routes ++ [(routeOf p, p.name)] := by
  simp only [checkPage, List.append_eq_nil_iff] at h ⊢
  obtain ⟨⟨⟨⟨⟨⟨⟨⟨⟨hprops, htype⟩, hentity⟩, -⟩, hroute⟩, htaken⟩, -⟩, hperm⟩, hcols⟩, hfields⟩ := h
  obtain ⟨hp, -, -⟩ := checkProps_accepted hprops
  rw [hp] at htype hentity hroute htaken hperm hcols hfields ⊢
  obtain ⟨kind, hkind, hgiven⟩ := checkPageType_accepted htype
  rw [hkind] at hentity hcols hfields
  refine ⟨⟨kind, _, hgiven, checkPageEntity_accepted hentity, hroute, fun q hq => ?_, hcols,
    hfields⟩, ?_⟩
  · simpa [hq, pageSite] using hperm
  · cases hr : routes.lookup (checkRoute ⟨p.file, .page, p.name⟩ p p.props).1 with
    | some other => simp [hr] at htaken
    | none => exact ⟨hr, by simp [routeOf, pageSite]⟩

/-- Pages after others whose routes are taken: each is accepted, and no route is taken twice. -/
theorem checkPages_accepted {s : Symbols} {known : List String}
    {routes : List (String × String)} {ps : List BlockDecl}
    (h : checkPages s known routes ps = []) :
    (∀ p ∈ ps, ∃ kind entity, PageAccepted s known p kind entity) ∧
      ((routes.map (·.1)).Nodup → (routes.map (·.1) ++ ps.map routeOf).Nodup) := by
  induction ps generalizing routes with
  | nil => simp
  | cons p ps ih =>
    simp only [checkPages, List.append_eq_nil_iff] at h
    obtain ⟨hp, hfree, hnext⟩ := checkPage_accepted h.1
    obtain ⟨hps, hnodup⟩ := ih h.2
    refine ⟨List.forall_mem_cons.mpr ⟨hp, hps⟩, fun hr => ?_⟩
    rw [hnext] at hnodup
    simp only [List.map_append, List.map_cons, List.map_nil, List.append_assoc,
      List.singleton_append] at hnodup ⊢
    have hne : ∀ r ∈ routes, ¬(routeOf p == r.1) = true := by
      simpa using List.lookup_eq_none_iff.mp hfree
    refine hnodup (Symbols.nodup_snoc hr fun hm => ?_)
    obtain ⟨r, hmem, he⟩ := List.mem_map.mp hm
    exact hne r hmem (by simp [he])

theorem Symbols.Accepted.page {s : Symbols} {extra : List String} (h : s.Accepted extra)
    {p : BlockDecl} (hp : p ∈ s.pages) :
    ∃ kind entity, PageAccepted s (roles s extra) p kind entity :=
  (checkPages_accepted h.pages).1 p hp

theorem Symbols.Accepted.routes {s : Symbols} {extra : List String} (h : s.Accepted extra) :
    (s.pages.map routeOf).Nodup := by
  simpa using (checkPages_accepted h.pages).2 (by simp)

/-- The names in a list of values, all of which pass a check. -/
theorem checkPermissions_accepted {known : List String} {site : Site} {q : Property}
    (h : checkPermissions known site q = []) :
    ∃ elems at_, q.value = .array elems at_ ∧ ∀ v ∈ elems, ∃ r ∈ known, nameOf? v = some r := by
  unfold checkPermissions at h
  split at h
  next elems at_ hv =>
    refine ⟨elems, at_, hv, fun v hm => ?_⟩
    have hc := List.flatMap_eq_nil_iff.mp h v hm
    split at hc
    · cases hc
    next r hr =>
      split at hc
      next hk => exact ⟨r, by simpa using hk, hr⟩
      · cases hc
  · cases h

theorem checkFieldList_accepted {site : Site} {e : EntityDecl} {q : Property} {editable : Bool}
    (h : checkFieldList site e q editable = []) :
    ∃ elems at_, q.value = .array elems at_ ∧ ∀ v ∈ elems, ∃ name f, nameOf? v = some name ∧
      findField? e name = some f ∧ (editable = true → isComputed f = false) := by
  unfold checkFieldList at h
  split at h
  next elems at_ hv =>
    refine ⟨elems, at_, hv, fun v hm => ?_⟩
    have hc := List.flatMap_eq_nil_iff.mp h v hm
    split at hc
    · cases hc
    next name hn =>
      split at hc
      · cases hc
      next f hf =>
        split at hc
        · cases hc
        next hk => exact ⟨name, f, hn, hf, fun he => by simpa [he] using hk⟩
  · cases h

theorem checkListed_accepted {site : Site} {p : BlockDecl} {kind only : PageKind}
    {entity : Option EntityDecl} {key : String} {editable : Bool} {q : Property}
    (h : checkListed site p p.props (some kind) entity key only editable = [])
    (hq : lookup p.props key = some q) :
    kind = only ∧ ∀ e, entity = some e → checkFieldList site e q editable = [] := by
  simp only [checkListed, hq] at h
  split at h
  · cases h
  next hk =>
    refine ⟨by simpa using hk, fun e he => ?_⟩
    simpa [he] using h

/-! ## Views -/

/-- What holds of a member of a view on `e` without diagnostics: it shows a field that is no list,
or a formula over the fields of `e`. -/
inductive ViewFieldAccepted (s : Symbols) (e : EntityDecl) : Value → Prop
  | ref {name : String} {f : FieldDecl} (p : Pos) (found : findField? e name = some f)
      (plain : ∀ t, s.fieldType? f.type = some t → t.list = false) :
      ViewFieldAccepted s e (.ident [name] p)
  | formula {source : String} {formula : Formula} (p : Pos)
      (parsed : parseFormula (Text.runes source) = .ok formula)
      (accepted : FormulaAccepted s e formula) : ViewFieldAccepted s e (.string source p)

theorem checkViewField_accepted {s : Symbols} {site : Site} {e : EntityDecl} {p : Property}
    (h : checkViewField s site e p = []) : ViewFieldAccepted s e p.value := by
  unfold checkViewField at h
  split at h
  next path at_ hv =>
    split at h
    next name =>
      split at h
      · cases h
      next f hf =>
        split at h
        · cases h
        next hl =>
          rw [hv]
          exact .ref at_ hf fun t ht => by simpa [ht] using hl
    · cases h
  next source at_ hv =>
    split at h
    · cases h
    next formula hp =>
      rw [hv]
      refine .formula at_ hp ?_
      split at h
      next hm =>
        split at h
        · cases h
        next k hk => exact .intro hm hk
      next hm =>
        simp only [List.map_eq_nil_iff] at h
        exact absurd h hm
  · cases h

/-- What holds of a view without diagnostics. -/
structure ViewAccepted (s : Symbols) (v : BlockDecl) (e : EntityDecl) (members : List Property) :
    Prop where
  source : ∃ p, lookup v.props "source" = some p ∧ s.entity? (nameOf p.value) = some e
  fields : ∃ key p at_, lookup v.props "fields" = some ⟨key, p, .object members at_⟩
  nonempty : members ≠ []
  keys : (members.map (·.key)).Nodup
  member : ∀ p ∈ members, ViewFieldAccepted s e p.value

theorem checkView_accepted {s : Symbols} {v : BlockDecl} (h : checkView s v = []) :
    ∃ e members, ViewAccepted s v e members := by
  simp only [checkView, List.append_eq_nil_iff] at h
  obtain ⟨⟨hprops, hsource⟩, hfields⟩ := h
  obtain ⟨hp, -, -⟩ := checkProps_accepted hprops
  rw [hp] at hsource hfields
  split at hsource
  · cases hsource
  next q hq =>
    split at hsource
    next e he =>
      simp only [hq, he] at hfields
      unfold checkViewFields at hfields
      split at hfields
      · cases hfields
      next key p members at_ hl =>
        split at hfields
        · cases hfields
        next hne =>
          simp only [List.append_eq_nil_iff] at hfields
          obtain ⟨hm, hk⟩ := checkKeys_accepted hfields.1
          have hall := hfields.2
          rw [hm, List.flatMap_eq_nil_iff] at hall
          exact ⟨e, members, ⟨q, hq, he⟩, ⟨key, p, at_, hl⟩, by simpa using hne, hk,
            fun r hr => checkViewField_accepted (hall r hr)⟩
      · cases hfields
    · cases hsource

theorem Symbols.Accepted.view {s : Symbols} {extra : List String} (h : s.Accepted extra)
    {v : BlockDecl} (hv : v ∈ s.views) : ∃ e members, ViewAccepted s v e members :=
  checkView_accepted (h.views v hv)

end Scaffold.Check
