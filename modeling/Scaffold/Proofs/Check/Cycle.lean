import Mathlib.Data.Finset.Card
import Mathlib.Logic.Relation
import Scaffold.Check.Entity
import Scaffold.Proofs.Build.Lowered
import Scaffold.Proofs.Lists

/-! # Computed fields that depend on themselves

The formulas of an entity's computed fields refer to each other. A field is reported exactly when
it lies on a cycle of such references, so the computed fields of an accepted entity can be put in an
order in which each can be evaluated after the ones that it needs.

Whether a field depends on itself is a question about paths between names. It is answered in two
ways: by a depth-first search that shares one set of visited names among all its branches and stops
where it finds the name, and by closing a set of names under dependencies. Both find a name exactly
when a path leads to it. -/
namespace Scaffold.Check

open Relation (TransGen ReflTransGen)

variable {deps : List (String × String)}

/-- One name depends on another at once. -/
def Depends (deps : List (String × String)) (a b : String) : Prop := (a, b) ∈ deps

/-- The names that a name depends on at once. -/
def successors (deps : List (String × String)) (name : String) : List String :=
  (deps.filter (·.1 == name)).map (·.2)

theorem mem_successors {a b : String} : b ∈ successors deps a ↔ Depends deps a b := by
  simp [successors, Depends]

theorem transGen_iff {a b : String} :
    TransGen (Depends deps) a b ↔ ∃ c ∈ successors deps a, ReflTransGen (Depends deps) c b := by
  simp only [Relation.TransGen.head'_iff, mem_successors]

/-! ## Depth-first search -/

theorem countP_lt {α : Type} {p q : α → Bool} {xs : List α} (hle : ∀ x ∈ xs, p x → q x) {y : α}
    (hy : y ∈ xs) (hp : p y = false) (hq : q y = true) : xs.countP p < xs.countP q := by
  obtain ⟨before, after, rfl⟩ := List.append_of_mem hy
  have hbefore : before.countP p ≤ before.countP q :=
    List.countP_mono_left fun x hx => hle x (by simp [hx])
  have hafter : after.countP p ≤ after.countP q :=
    List.countP_mono_left fun x hx => hle x (by simp [hx])
  simp only [List.countP_append, List.countP_cons, hp, hq]
  simp only [Bool.false_eq_true, if_false, if_true]
  omega

/-- How many dependencies start from a name that was not visited. -/
def unseen (deps : List (String × String)) (seen : List String) : Nat :=
  deps.countP fun d => !seen.contains d.1

theorem unseen_le {seen seen' : List String} (h : seen ⊆ seen') :
    unseen deps seen' ≤ unseen deps seen := by
  refine List.countP_mono_left fun d _ hd => ?_
  simp only [List.contains_eq_mem, Bool.not_eq_eq_eq_not, Bool.not_true,
    decide_eq_false_iff_not] at hd ⊢
  exact fun hmem => hd (h hmem)

/-- A visit uses up the dependencies of a name, or there are none. -/
theorem unseen_lt {seen : List String} {d : String} (hd : d ∉ seen)
    (hsucc : successors deps d ≠ []) : unseen deps (d :: seen) < unseen deps seen := by
  obtain ⟨b, hb⟩ := List.exists_mem_of_ne_nil _ hsucc
  refine countP_lt (y := (d, b)) (fun x _ hx => ?_) (mem_successors.mp hb) (by simp) (by simp [hd])
  simp only [List.contains_cons, Bool.not_or, Bool.and_eq_true] at hx
  exact hx.2

/-- Search from the names of a list in order. A name that was visited is passed over; the names
visited in the end come back too. -/
def visit (deps : List (String × String)) (target : String) (todo seen : List String) :
    Bool × { visited : List String // seen ⊆ visited } :=
  match todo with
  | [] => (false, ⟨seen, List.Subset.refl seen⟩)
  | d :: ds =>
    if d = target then (true, ⟨seen, List.Subset.refl seen⟩)
    else if _hd : d ∈ seen then visit deps target ds seen
    else
      let (found, ⟨visited, hvisited⟩) := visit deps target (successors deps d) (d :: seen)
      have hseen : seen ⊆ visited := fun _ hx => hvisited (.tail _ hx)
      if found then (true, ⟨visited, hseen⟩)
      else
        let (found, ⟨visited', hvisited'⟩) := visit deps target ds visited
        (found, ⟨visited', List.Subset.trans hseen hvisited'⟩)
termination_by (unseen deps seen, todo.length)
decreasing_by
  · exact .right _ (Nat.lt_succ_self _)
  · by_cases hsucc : successors deps d = []
    · have hle : unseen deps (d :: seen) ≤ unseen deps seen :=
        unseen_le (List.subset_cons_self d seen)
      rcases Nat.lt_or_eq_of_le hle with hlt | heq
      · exact .left _ _ hlt
      · rw [heq, hsucc]
        exact .right _ (Nat.zero_lt_succ _)
    · exact .left _ _ (unseen_lt _hd hsucc)
  · rcases Nat.lt_or_eq_of_le (@unseen_le deps _ _ hseen) with hlt | heq
    · exact .left _ _ hlt
    · rw [heq]
      exact .right _ (Nat.lt_succ_self _)

/-- Whether the search from one name finds another. -/
def reaches (deps : List (String × String)) (start target : String) : Bool :=
  (visit deps target (successors deps start) []).1

theorem visit_sound {target : String} {todo seen : List String}
    (h : (visit deps target todo seen).1 = true) :
    ∃ d ∈ todo, ReflTransGen (Depends deps) d target := by
  fun_induction visit deps target todo seen with
  | case1 seen => cases h
  | case2 seen ds => exact ⟨target, .head _, .refl⟩
  | case3 seen d ds hne hd ih =>
    obtain ⟨c, hc, hpath⟩ := ih h
    exact ⟨c, .tail _ hc, hpath⟩
  | case4 seen d ds hne hd visited hvisited hseen heq ih =>
    obtain ⟨c, hc, hpath⟩ := ih (by rw [heq])
    exact ⟨d, .head _, .head (mem_successors.mp hc) hpath⟩
  | case5 seen d ds hne hd found visited hvisited heq hseen hfound found' visited' hvisited' heq'
      ih ih' =>
    obtain ⟨c, hc, hpath⟩ := ih' (by rw [heq']; exact h)
    exact ⟨c, .tail _ hc, hpath⟩

/-- What a search in vain has seen: the names it had to look at, and for each name that it visited
all names that this one depends on. The target is none of them. -/
structure Exhausted (deps : List (String × String)) (target : String)
    (todo seen visited : List String) : Prop where
  todo : ∀ d ∈ todo, d ∈ visited ∧ d ≠ target
  closed : ∀ a ∈ visited, a ∉ seen → ∀ b ∈ successors deps a, b ∈ visited ∧ b ≠ target

/-- A name that was visited on another branch needs no second look: what it depends on has been
visited there, or is still to be. -/
theorem visit_exhausted {target : String} {todo seen : List String}
    (h : (visit deps target todo seen).1 = false) :
    Exhausted deps target todo seen (visit deps target todo seen).2.1 := by
  fun_induction visit deps target todo seen with
  | case1 seen => exact ⟨by simp, fun a ha hnew => absurd ha hnew⟩
  | case2 seen ds => cases h
  | case3 seen d ds hne hd ih =>
    obtain ⟨htodo, hclosed⟩ := ih h
    exact ⟨List.forall_mem_cons.mpr ⟨⟨(visit deps target ds seen).2.2 hd, hne⟩, htodo⟩, hclosed⟩
  | case4 seen d ds hne hd visited hvisited hseen heq ih => cases h
  | case5 seen d ds hne hd found visited hvisited heq hseen hfound found' visited' hvisited' heq'
      ih ih' =>
    have hbranch := ih (by rw [heq]; simpa using hfound)
    have hrest := ih' (by rw [heq']; exact h)
    rw [heq] at hbranch
    rw [heq'] at hrest
    refine ⟨List.forall_mem_cons.mpr ⟨⟨hvisited' (hvisited (.head _)), hne⟩, hrest.todo⟩, ?_⟩
    intro a ha hnew b hb
    by_cases hmem : a ∈ visited
    · obtain ⟨hin, hother⟩ : b ∈ visited ∧ b ≠ target := by
        by_cases had : a = d
        · exact hbranch.todo b (had ▸ hb)
        · exact hbranch.closed a hmem (by simp [had, hnew]) b hb
      exact ⟨hvisited' hin, hother⟩
    · exact hrest.closed a ha hmem b hb

/-- The search from a name finds another exactly when a path of at least one step leads there. -/
theorem reaches_iff (deps : List (String × String)) (start target : String) :
    reaches deps start target = true ↔ TransGen (Depends deps) start target := by
  rw [transGen_iff]
  constructor
  · exact visit_sound
  · rintro ⟨c, hc, hpath⟩
    by_contra hfails
    obtain ⟨htodo, hclosed⟩ := visit_exhausted (Bool.eq_false_iff.mpr hfails)
    -- Along a path from a name that was to be looked at, every name was visited.
    have hall : ∀ b, ReflTransGen (Depends deps) c b →
        b ∈ (visit deps target (successors deps start) []).2.1 ∧ b ≠ target := by
      intro b hb
      induction hb with
      | refl => exact htodo c hc
      | tail _ hstep ih => exact hclosed _ ih.1 (by simp) _ (mem_successors.mpr hstep)
    exact (hall target hpath).2 rfl

/-! ## Closing a set of names -/

theorem mem_distinct {xs : List String} {x : String} : x ∈ distinct xs ↔ x ∈ xs := by
  have hdistinct : distinct xs = xs.eraseDups := foldl_contains xs
  rw [hdistinct, List.mem_eraseDups]

theorem mem_grow {set : List String} {x : String} :
    x ∈ grow deps set ↔ x ∈ set ∨ ∃ a ∈ set, Depends deps a x := by
  simp only [grow, mem_distinct, List.mem_append, List.mem_map, List.mem_filter,
    List.contains_eq_mem, decide_eq_true_eq, Depends]
  constructor
  · rintro (h | ⟨⟨a, b⟩, ⟨hd, ha⟩, rfl⟩)
    · exact .inl h
    · exact .inr ⟨a, ha, hd⟩
  · rintro (h | ⟨a, ha, hd⟩)
    · exact .inl h
    · exact .inr ⟨(a, x), ⟨hd, ha⟩, rfl⟩

/-- Whether nothing is missing from a set of names. -/
def Full (deps : List (String × String)) (set : List String) : Prop :=
  ∀ a b, Depends deps a b → a ∈ set → b ∈ set

theorem Full.grow {set : List String} (h : Full deps set) : Full deps (grow deps set) := by
  have hsame {x : String} (hx : x ∈ Check.grow deps set) : x ∈ set := by
    rcases mem_grow.mp hx with hx | ⟨a, ha, hd⟩
    · exact hx
    · exact h a x hd ha
  exact fun a b hd ha => mem_grow.mpr (.inl (h a b hd (hsame ha)))

/-- Each round finds a new name among those that are depended on, until nothing is missing. -/
theorem full_or_le (set : List String) (n : Nat) :
    Full deps (Nat.repeat (grow deps) n set) ∨
      n ≤ ((deps.map (·.2)).toFinset.filter (· ∈ Nat.repeat (grow deps) n set)).card := by
  induction n with
  | zero => exact .inr (Nat.zero_le _)
  | succ n ih =>
    rw [Nat.repeat]
    by_cases hfull : Full deps (Nat.repeat (grow deps) n set)
    · exact .inl hfull.grow
    · refine .inr (Nat.succ_le_of_lt (Nat.lt_of_le_of_lt (ih.resolve_left hfull) ?_))
      simp only [Full, not_forall] at hfull
      obtain ⟨a, b, hd, ha, hb⟩ := hfull
      refine Finset.card_lt_card (Finset.ssubset_iff_of_subset ?_ |>.mpr ⟨b, ?_, ?_⟩)
      · intro x hx
        obtain ⟨hx, hmem⟩ := Finset.mem_filter.mp hx
        exact Finset.mem_filter.mpr ⟨hx, mem_grow.mpr (.inl hmem)⟩
      · refine Finset.mem_filter.mpr ⟨?_, mem_grow.mpr (.inr ⟨a, ha, hd⟩)⟩
        exact List.mem_toFinset.mpr (List.mem_map.mpr ⟨(a, b), hd, rfl⟩)
      · exact fun hmem => hb (Finset.mem_filter.mp hmem).2

theorem full_closure (set : List String) : Full deps (closure deps set) := by
  rcases @full_or_le deps set deps.length with hfull | hle
  · exact hfull
  · -- As many names as there are dependencies: all of them.
    intro a b hd _
    have hcard : (deps.map (·.2)).toFinset.card ≤ deps.length :=
      (List.toFinset_card_le _).trans (by simp)
    have hall := Finset.filter_card_eq (Nat.le_antisymm (Finset.card_filter_le _ _)
      (hcard.trans hle))
    exact hall b (List.mem_toFinset.mpr (List.mem_map.mpr ⟨(a, b), hd, rfl⟩))

theorem mem_closure {set : List String} {x : String} :
    x ∈ closure deps set ↔ ∃ a ∈ set, ReflTransGen (Depends deps) a x := by
  constructor
  · rw [closure]
    generalize deps.length = n
    intro h
    induction n generalizing x with
    | zero => exact ⟨x, h, .refl⟩
    | succ n ih =>
      rcases mem_grow.mp h with h | ⟨a, ha, hd⟩
      · exact ih h
      · obtain ⟨c, hc, hpath⟩ := ih ha
        exact ⟨c, hc, hpath.tail hd⟩
  · rintro ⟨a, ha, hpath⟩
    induction hpath with
    | refl =>
      rw [closure]
      generalize deps.length = n
      induction n with
      | zero => exact ha
      | succ n ih => exact mem_grow.mpr (.inl ih)
    | tail _ hd ih => exact full_closure set _ _ hd ih

/-- The checker closes a set where a search would do, and finds the same. -/
theorem dependsOnItself_eq (deps : List (String × String)) (name : String) :
    dependsOnItself deps name = reaches deps name name := by
  rw [Bool.eq_iff_iff, reaches_iff, transGen_iff, dependsOnItself, List.contains_iff_mem,
    mem_closure]
  rfl

end Scaffold.Check

/-! ## References between computed fields -/

namespace Scaffold.Check

open Scaffold.Source Scaffold.Model Scaffold.Build
open Relation (TransGen)

variable {s : Symbols} {site : Site} {e : EntityDecl} {f g : FieldDecl}

/-- A computed field has a formula that can be read. -/
def FormulaOf (f : FieldDecl) (formula : Formula) : Prop :=
  ∃ source p, formulaSource? f = some (source, p) ∧
    parseFormula (Text.runes source) = .ok formula

/-- The formula of one computed field mentions another. -/
structure RefersTo (e : EntityDecl) (f g : FieldDecl) : Prop where
  source : f ∈ e.fields
  mentions : ∃ formula, FormulaOf f formula ∧ g.name ∈ formula.mentions.map (·.1)
  found : findField? e g.name = some g
  computed : isComputed g = true

theorem isComputed_of_formulaOf {formula : Formula} (h : FormulaOf f formula) :
    isComputed f = true := by
  obtain ⟨source, p, hsource, -⟩ := h
  rw [isComputed, hsource, Option.isSome_some]

/-! ## The computed fields that are looked at -/

theorem mem_computedFields {fs : List FieldDecl} {c : Computed} :
    c ∈ (computedFields s site e fs).1 ↔ c.field ∈ fs ∧ ∃ source,
      formulaSource? c.field = some (source, c.pos) ∧
        parseFormula (Text.runes source) = .ok c.formula := by
  induction fs with
  | nil => simp [computedFields]
  | cons f fs ih =>
    rw [List.mem_cons, or_and_right, ← ih]
    simp only [computedFields]
    have hne {x : Option (String × Pos)} (h : formulaSource? f = x) (hc : c.field = f)
        {source : String} (hs : formulaSource? c.field = some (source, c.pos)) :
        x = some (source, c.pos) := by rw [← h, ← hc, hs]
    split
    next hnone =>
      refine ⟨.inr, fun h => h.resolve_left ?_⟩
      rintro ⟨hc, source, hs, -⟩
      cases hne hnone hc hs
    next source p hsource =>
      split
      next err herr =>
        refine ⟨.inr, fun h => h.resolve_left ?_⟩
        rintro ⟨hc, source', hs, hp⟩
        cases hne hsource hc hs
        rw [herr] at hp
        cases hp
      next formula hformula =>
        rw [List.mem_cons]
        refine or_congr_left ⟨?_, ?_⟩
        · rintro rfl
          exact ⟨rfl, source, hsource, hformula⟩
        · rintro ⟨hc, source', hs, hp⟩
          cases hne hsource hc hs
          rw [hformula] at hp
          obtain ⟨field, pos, formula'⟩ := c
          obtain rfl : field = f := hc
          obtain rfl : formula = formula' := Except.ok.inj hp
          rfl

/-- The formulas themselves are not reported as cycles. -/
theorem not_virtualCycle {fs : List FieldDecl} {d : Diagnostic}
    (h : d ∈ (computedFields s site e fs).2) (name : String) :
    d.violation ≠ .virtualCycle name := by
  intro hcycle
  have hcomputed {c : Computed} (h : d ∈ checkComputed s site e c) : False := by
    unfold checkComputed at h
    split at h
    · split at h
      · rw [List.mem_singleton.mp h] at hcycle
        cases hcycle
      · split at h
        · split at h
          · cases h
          · rw [List.mem_singleton.mp h] at hcycle
            cases hcycle
        · cases h
    · obtain ⟨r, -, rfl⟩ := List.mem_map.mp h
      cases hcycle
  induction fs with
  | nil => cases h
  | cons f fs ih =>
    simp only [computedFields] at h
    split at h
    · exact ih h
    · split at h
      · rcases List.mem_cons.mp h with rfl | h
        · cases hcycle
        · exact ih h
      · rcases List.mem_append.mp h with h | h
        · exact hcomputed h
        · exact ih h

/-- The dependencies among the computed fields of an entity. -/
def entityDeps (s : Symbols) (site : Site) (e : EntityDecl) : List (String × String) :=
  (computedFields s site e e.fields).1.flatMap (computedRefs e)

theorem depends_iff {a b : String} :
    Depends (entityDeps s site e) a b ↔ ∃ f g, f.name = a ∧ g.name = b ∧ RefersTo e f g := by
  have hnames (formula : Formula) (name : String) :
      (∃ r ∈ formula.refs, r.1 = name) ↔ name ∈ formula.mentions.map (·.1) := by
    rw [← List.mem_eraseDups, ← Grammar.names_refs, List.mem_map]
  simp only [Depends, entityDeps, List.mem_flatMap, mem_computedFields, computedRefs,
    List.mem_filterMap]
  constructor
  · rintro ⟨c, ⟨hc, source, hsource, hparsed⟩, ⟨name, p⟩, hr, hdep⟩
    split at hdep
    next g hg =>
      split at hdep
      next hcomputed =>
        obtain ⟨-, hname⟩ := findField?_eq_some hg
        cases hdep
        refine ⟨c.field, g, rfl, rfl, hc, ⟨c.formula, ⟨source, c.pos, hsource, hparsed⟩, ?_⟩,
          by rw [hname, hg], hcomputed⟩
        exact (hnames c.formula g.name).mp ⟨(name, p), hr, hname.symm⟩
      next => cases hdep
    next => cases hdep
  · rintro ⟨f, g, rfl, rfl, hf, ⟨formula, ⟨source, p, hsource, hparsed⟩, hmem⟩, hfound, hcomputed⟩
    obtain ⟨r, hr, hname⟩ := (hnames formula g.name).mpr hmem
    refine ⟨⟨f, p, formula⟩, ⟨hf, source, hsource, hparsed⟩, r, hr, ?_⟩
    simp only [hname, hfound, hcomputed, if_true]

/-- A name stands for one computed field, so a path of names is a path of fields. -/
theorem transGen_refersTo
    (hnames : ((e.fields.filter isComputed).map (·.name)).Nodup) (hf : f ∈ e.fields)
    (hcomputed : isComputed f = true) {b : String}
    (h : TransGen (Depends (entityDeps s site e)) f.name b) :
    ∃ g ∈ e.fields, g.name = b ∧ isComputed g = true ∧ TransGen (RefersTo e) f g := by
  have hsame {g g' : FieldDecl} (hg : g ∈ e.fields) (hgc : isComputed g = true)
      (hr : ∃ h, RefersTo e g' h) (hname : g'.name = g.name) : g' = g := by
    obtain ⟨h, hr⟩ := hr
    obtain ⟨formula, hformula, -⟩ := hr.mentions
    exact List.inj_on_of_nodup_map hnames
      (List.mem_filter.mpr ⟨hr.source, isComputed_of_formulaOf hformula⟩)
      (List.mem_filter.mpr ⟨hg, hgc⟩) hname
  induction h with
  | single hdep =>
    obtain ⟨f', g, hname, rfl, hr⟩ := depends_iff.mp hdep
    obtain rfl := hsame hf hcomputed ⟨g, hr⟩ hname
    exact ⟨g, (findField?_eq_some hr.found).1, rfl, hr.computed, .single hr⟩
  | tail _ hdep ih =>
    obtain ⟨g, hg, rfl, hgc, hpath⟩ := ih
    obtain ⟨g', k, hname, rfl, hr⟩ := depends_iff.mp hdep
    obtain rfl := hsame hg hgc ⟨k, hr⟩ hname
    exact ⟨k, (findField?_eq_some hr.found).1, rfl, hr.computed, hpath.tail hr⟩

theorem cycle_iff (hnames : ((e.fields.filter isComputed).map (·.name)).Nodup)
    (hf : f ∈ e.fields) (hcomputed : isComputed f = true) :
    dependsOnItself (entityDeps s site e) f.name = true ↔ TransGen (RefersTo e) f f := by
  rw [dependsOnItself_eq, reaches_iff]
  constructor
  · intro h
    obtain ⟨g, hg, hname, hgc, hpath⟩ := transGen_refersTo hnames hf hcomputed h
    obtain rfl : g = f := List.inj_on_of_nodup_map hnames (List.mem_filter.mpr ⟨hg, hgc⟩)
      (List.mem_filter.mpr ⟨hf, hcomputed⟩) hname
    exact hpath
  · exact TransGen.lift (·.name) (fun f g hr => depends_iff.mpr ⟨f, g, rfl, rfl, hr⟩) f f

/-- A computed field is reported exactly when it lies on a cycle. -/
theorem reported_iff (hnames : ((e.fields.filter isComputed).map (·.name)).Nodup)
    (hf : f ∈ e.fields) (hcomputed : isComputed f = true) :
    .virtualCycle f.name ∈ (checkComputedFields s site e).map (·.violation) ↔
      TransGen (RefersTo e) f f := by
  rw [← @cycle_iff s site _ _ hnames hf hcomputed]
  simp only [checkComputedFields, List.map_append, List.mem_append, List.mem_map,
    List.mem_filter]
  constructor
  · rintro (⟨d, hd, hviolation⟩ | ⟨_, ⟨c, ⟨-, hc⟩, rfl⟩, hviolation⟩)
    · exact absurd hviolation (not_virtualCycle hd f.name)
    · have hname : c.field.name = f.name := Violation.virtualCycle.inj hviolation
      rwa [hname] at hc
  · intro hcycle
    obtain ⟨g, hpath⟩ : ∃ g, RefersTo e f g := by
      obtain ⟨g, hr, -⟩ := Relation.TransGen.head'_iff.mp
        ((cycle_iff hnames hf hcomputed).mp hcycle)
      exact ⟨g, hr⟩
    obtain ⟨formula, ⟨source, p, hsource, hparsed⟩, -⟩ := hpath.mentions
    exact .inr ⟨_, ⟨⟨f, p, formula⟩, ⟨mem_computedFields.mpr ⟨hf, source, hsource, hparsed⟩,
      hcycle⟩, rfl⟩, rfl⟩

/-! ## An order of evaluation -/

/-- How many names a name reaches. -/
def depth (deps : List (String × String)) (names : List String) (name : String) : Nat :=
  names.countP (reaches deps name)

/-- A name that is depended on, and does not reach itself, reaches fewer names. -/
theorem depth_lt {deps : List (String × String)} {names : List String} {a b : String}
    (h : Depends deps a b) (hb : b ∈ names) (hcycle : reaches deps b b = false) :
    depth deps names b < depth deps names a := by
  refine countP_lt (fun c _ hc => ?_) hb hcycle ((reaches_iff deps a b).mpr (.single h))
  exact (reaches_iff deps a c).mpr (.head h ((reaches_iff deps b c).mp hc))

/-- The computed fields of an entity, each behind those that it depends on. -/
structure Evaluable (e : Entity) (order : List Field) : Prop where
  all : order.Perm (e.fields.filter (·.virtual.isSome))
  behind : InOrder (fun before f => ∀ v, f.virtual = some v → ∀ g ∈ e.fields,
    g.virtual.isSome = true → g.name ∈ v.dependsOn → g ∈ before) order

/-- Fields in order of how many others they reach. -/
theorem exists_order {fields : List Field} {rank : Field → Nat} {needs : Field → Field → Prop}
    (h : ∀ f ∈ fields, ∀ g ∈ fields, needs f g → rank g < rank f) :
    ∃ order : List Field, order.Perm fields ∧
      InOrder (fun before f => ∀ g ∈ fields, needs f g → g ∈ before) order := by
  refine ⟨fields.mergeSort fun f g => rank f ≤ rank g, List.mergeSort_perm _ _, ?_⟩
  have hperm := List.mergeSort_perm fields fun f g => decide (rank f ≤ rank g)
  have hsorted : (fields.mergeSort fun f g => rank f ≤ rank g).Pairwise
      fun f g => decide (rank f ≤ rank g) = true := by
    refine List.pairwise_mergeSort (fun f g k hfg hgk => ?_) (fun f g => ?_) fields
    · simp only [decide_eq_true_eq] at hfg hgk ⊢
      exact Nat.le_trans hfg hgk
    · simpa using Nat.le_total (rank f) (rank g)
  intro before f after heq g hg hneeds
  rw [heq] at hperm hsorted
  have hlt := h f (hperm.subset (by simp)) g hg hneeds
  rcases List.mem_append.mp (hperm.mem_iff.mpr hg) with hg | hg
  · exact hg
  · have hle : rank f ≤ rank g := by
      rcases List.mem_cons.mp hg with rfl | hg
      · exact Nat.le_refl _
      · simpa using (List.pairwise_cons.mp (List.pairwise_append.mp hsorted).2.1).1 g hg
    omega

/-- A computed field of the model comes from a declaration with a formula, whose names it depends
on. -/
theorem computed_built {d : Field} (hd : d ∈ (buildEntity s e).fields)
    (hvirtual : d.virtual.isSome = true) :
    ∃ f ∈ e.fields, f.name = d.name ∧ isComputed f = true ∧ ∃ formula, FormulaOf f formula ∧
      ∀ v, d.virtual = some v → v.dependsOn = formula.refs.map (·.1) := by
  obtain ⟨f, hf, rfl⟩ := List.mem_map.mp hd
  obtain ⟨v, hv⟩ := Option.isSome_iff_exists.mp hvirtual
  obtain ⟨⟨source, p⟩, hsource, hbuilt⟩ := Option.bind_eq_some_iff.mp hv
  obtain ⟨formula, hparsed, hbuilt⟩ := Option.bind_eq_some_iff.mp hbuilt
  have hformula : FormulaOf f formula := by
    refine ⟨source, p, hsource, ?_⟩
    cases hp : parseFormula (Text.runes source) with
    | error err => simp [hp, Except.toOption] at hparsed
    | ok formula' => simpa [hp, Except.toOption] using hparsed
  refine ⟨f, hf, rfl, isComputed_of_formulaOf hformula, formula, hformula, fun v' hv' => ?_⟩
  obtain rfl : v = v' := Option.some.inj (hv.symm.trans hv')
  rw [← Option.some.inj hbuilt]

theorem exists_evaluable {extra : List String} (hs : s.Accepted extra) (he : e ∈ s.entities) :
    ∃ order, Evaluable (buildEntity s e) order := by
  have hchecks := hs.entities e he
  simp only [checkEntity, checkComputedFields, List.append_eq_nil_iff, List.map_eq_nil_iff,
    List.filter_eq_nil_iff] at hchecks
  obtain ⟨-, -, hcycles⟩ := hchecks
  have hnames := (hs.entity he).names
  set deps := entityDeps s ⟨e.file, .entity, e.name⟩ e with hdeps
  set computed := (buildEntity s e).fields.filter (·.virtual.isSome)
  have hrank : ∀ f ∈ computed, ∀ g ∈ computed,
      (∃ v, f.virtual = some v ∧ g.name ∈ v.dependsOn) →
        depth deps (computed.map (·.name)) g.name < depth deps (computed.map (·.name)) f.name := by
    rintro f hf g hg ⟨v, hv, hdep⟩
    obtain ⟨hf, hfv⟩ := List.mem_filter.mp hf
    obtain ⟨hg', hgv⟩ := List.mem_filter.mp hg
    obtain ⟨fd, hfd, hfname, hfc, formula, hformula, hrefs⟩ := computed_built hf hfv
    obtain ⟨gd, hgd, hgname, hgc, formula', hformula', -⟩ := computed_built hg' hgv
    have hrefers : RefersTo e fd gd := by
      refine ⟨hfd, ⟨formula, hformula, ?_⟩, find?_name hnames hgd, hgc⟩
      rw [hgname, ← List.mem_eraseDups, ← Grammar.names_refs, ← hrefs v hv]
      exact hdep
    refine depth_lt (depends_iff.mpr ⟨fd, gd, hfname, hgname, hrefers⟩) (List.mem_map_of_mem hg) ?_
    obtain ⟨source, p, hsource, hparsed⟩ := hformula'
    have hcycle := hcycles ⟨gd, p, formula'⟩
      (mem_computedFields.mpr ⟨hgd, source, hsource, hparsed⟩)
    rw [← dependsOnItself_eq, ← hgname, hdeps, entityDeps]
    simpa using hcycle
  obtain ⟨order, hperm, hbehind⟩ := exists_order hrank
  refine ⟨order, hperm, fun before f after heq v hv g hg hvirtual hdep => ?_⟩
  exact hbehind before f after heq g (List.mem_filter.mpr ⟨hg, hvirtual⟩) ⟨v, hv, hdep⟩

end Scaffold.Check

namespace Scaffold

open Scaffold.Source Scaffold.Check Scaffold.Model Scaffold.Build

/-- The search among dependencies ends, and finds a name exactly when a path of at least one step
leads to it; the check asks the same of every computed field. Where no two computed fields of an
entity have one name, those on a cycle are reported and no others, and the computed fields of a
compiled entity can be put in an order in which each comes after those that it depends on. -/
theorem virtual_cycles :
    (∀ deps start target,
      reaches deps start target = true ↔ Relation.TransGen (Depends deps) start target) ∧
    (∀ deps name, dependsOnItself deps name = reaches deps name name) ∧
    (∀ (s : Symbols) (site : Site) (e : EntityDecl),
      ((e.fields.filter isComputed).map (·.name)).Nodup →
        ∀ f ∈ e.fields, isComputed f = true →
          (.virtualCycle f.name ∈ (checkComputedFields s site e).map (·.violation) ↔
            Relation.TransGen (RefersTo e) f f)) ∧
    ∀ path source opts app, compile path source opts = .ok app →
      ∀ e ∈ app.entities, ∃ order, Evaluable e order := by
  refine ⟨reaches_iff, dependsOnItself_eq, fun s site e hnames f hf hcomputed =>
    reported_iff hnames hf hcomputed, fun path source opts app h => ?_⟩
  obtain ⟨file, -, -, hs, rfl⟩ := compile_ok h
  exact List.forall_mem_map.mpr fun e he => exists_evaluable hs he

/-- An invoice whose total is declared before the tax in it. -/
def invoices : List Text.Rune := [
  "entity Invoice \x7b ",
  "id: Int primaryKey ",
  "net: Int ",
  "total: Int ",
  "@virtual(from: \"net + tax\") ",
  "tax: Int ",
  "@virtual(from: \"net * 2\") \x7d "].flatMap Text.runes

/-- A field that counts on itself. -/
def looped : FieldDecl :=
  ⟨"x", .start, ⟨"Int", false, .start⟩,
    [.attr ⟨"virtual", .start, [⟨"from", .start, .string "x+1" .start⟩]⟩]⟩

theorem looped_formula : FormulaOf looped
    (.binary .add (.field "x" .start) (.number "1" ⟨1, 3, 2⟩) ⟨1, 2, 1⟩) :=
  ⟨"x+1", .start, by decide, by decide +kernel⟩

theorem invoices_order :
    (∃ app, compile "" invoices ⟨[], ""⟩ = .ok app ∧
      app.entities.map (fun e => (e.fields.filter (·.virtual.isSome)).map (·.name)) =
        [["total", "tax"]] ∧
      ∀ e ∈ app.entities, ∃ order, Evaluable e order) ∧
    .virtualCycle "x" ∈ (checkComputedFields ⟨[]⟩ ⟨"loop", .entity, "Loop"⟩
      ⟨⟨"Loop", .start, "loop"⟩, [looped]⟩).map (·.violation) := by
  obtain ⟨-, -, hreported, horder⟩ := virtual_cycles
  constructor
  · obtain ⟨app, happ, hnames⟩ := exists_ok_of_any (x := compile "" invoices ⟨[], ""⟩)
      (p := fun app => decide (app.entities.map
        (fun e => (e.fields.filter (·.virtual.isSome)).map (·.name)) = [["total", "tax"]]))
      (by simp only [invoices, List.flatMap_cons]; repeat rw [Text.runes_ofList]
          decide +kernel)
    exact ⟨app, happ, of_decide_eq_true hnames, horder _ _ _ app happ⟩
  · refine (hreported ⟨[]⟩ ⟨"loop", .entity, "Loop"⟩ ⟨⟨"Loop", .start, "loop"⟩, [looped]⟩
      (by decide) looped (.head _) (by decide)).mpr ?_
    exact .single ⟨.head _, ⟨_, looped_formula, by decide⟩, rfl, by decide⟩

end Scaffold
