import Scaffold.Generator.Run
import Scaffold.Proofs.Generator.Registry
import Scaffold.Proofs.Output.Writer

/-! # What a run makes of each generator

A run gives every selected generator its turn. A generator is skipped when something that it depends
on failed, and else it sees what those rendered. -/
namespace Scaffold.Generator

open Scaffold.Output (locationOf writeTree Tree)

/-! ## One turn -/

/-- Something that a generator depends on is found to have failed, unless nothing has. -/
theorem find?_failed (p : Progress) (g : Generator) :
    (∃ d ∈ g.dependsOn, d ∈ p.failed ∧ g.dependsOn.find? p.failed.contains = some d) ∨
    ((∀ d ∈ g.dependsOn, d ∉ p.failed) ∧ g.dependsOn.find? p.failed.contains = none) := by
  cases hfind : g.dependsOn.find? p.failed.contains with
  | some d =>
    have hd := List.mem_of_find?_eq_some hfind
    have hfailed := List.contains_iff_mem.mp (List.find?_some hfind)
    exact .inl ⟨d, hd, hfailed, rfl⟩
  | none =>
    refine .inr ⟨fun d hd hmem => ?_, rfl⟩
    exact List.find?_eq_none.mp hfind d hd (List.contains_iff_mem.mpr hmem)

/-- What one step can do. -/
theorem step_cases (s : Setting) (p : Progress) (g : Generator) :
    (∃ d ∈ g.dependsOn, d ∈ p.failed ∧ s.step p g = failWith p g (.skipped d)) ∨
    ((∀ d ∈ g.dependsOn, d ∉ p.failed) ∧
      ∃ c, s.render g (s.request p g) = .error c ∧ s.step p g = failWith p g c) ∨
    ((∀ d ∈ g.dependsOn, d ∉ p.failed) ∧
      ∃ tree, s.render g (s.request p g) = .ok tree ∧ ∃ out,
        out = writeTree p.disk (s.request p g).outputDir tree ∧
        s.step p g = (⟨g.name, out.files, out.error.map .unwritable⟩,
          ⟨(g.name, tree) :: p.rendered,
            if out.error.isSome then g.name :: p.failed else p.failed, out.disk⟩)) := by
  unfold Setting.step
  rcases find?_failed p g with ⟨d, hd, hfailed, hfind⟩ | ⟨hnone, hfind⟩ <;> rw [hfind]
  · exact .inl ⟨d, hd, hfailed, rfl⟩
  · cases hrender : s.render g (s.request p g) with
    | error c => exact .inr (.inl ⟨hnone, c, rfl, by simp [hrender]⟩)
    | ok tree =>
      refine .inr (.inr ⟨hnone, tree, rfl, _, rfl, ?_⟩)
      cases herror : (writeTree p.disk (s.request p g).outputDir tree).error <;>
        simp [hrender, herror]

theorem render_skipped {s : Setting} {g : Generator} {r : Request} {c : Cause} {d : String}
    (h : s.render g r = .error c) : c ≠ .skipped d := by
  unfold Setting.render at h
  rintro rfl
  split at h
  · cases h
  · split at h <;> cases h

theorem step_generator (s : Setting) (p : Progress) (g : Generator) :
    (s.step p g).1.generator = g.name := by
  rcases step_cases s p g with ⟨d, -, -, h⟩ | ⟨-, c, -, h⟩ | ⟨-, tree, -, out, -, h⟩ <;>
    rw [h] <;> rfl

/-- A generator is skipped when a dependency failed. -/
theorem step_skipped (s : Setting) (p : Progress) (g : Generator) :
    (s.step p g).1.skipped = true ↔ ∃ d ∈ g.dependsOn, d ∈ p.failed := by
  rcases step_cases s p g with ⟨d, hd, hf, h⟩ | ⟨hnone, c, hc, h⟩ | ⟨hnone, tree, -, out, -, h⟩
  · rw [h]
    exact ⟨fun _ => ⟨d, hd, hf⟩, fun _ => rfl⟩
  · rw [h]
    constructor
    · intro hskip
      simp only [failWith, Result.skipped] at hskip
      split at hskip
      next heq => exact absurd (Option.some.inj heq) (render_skipped hc)
      next => cases hskip
    · rintro ⟨d, hd, hf⟩
      exact absurd hf (hnone d hd)
  · rw [h]
    constructor
    · intro hskip
      simp only [Result.skipped] at hskip
      split at hskip
      next heq =>
        obtain ⟨e, -, he⟩ := Option.map_eq_some_iff.mp heq
        cases he
      next => cases hskip
    · rintro ⟨d, hd, hf⟩
      exact absurd hf (hnone d hd)

/-- The result of a generator that is not skipped comes of what it renders. -/
theorem step_ran {s : Setting} {p : Progress} {g : Generator}
    (hskip : (s.step p g).1.skipped = false) :
    (s.step p g).1 = match s.render g (s.request p g) with
      | .error c => ⟨g.name, [], some c⟩
      | .ok tree =>
        let out := writeTree p.disk (s.request p g).outputDir tree
        ⟨g.name, out.files, out.error.map .unwritable⟩ := by
  rcases step_cases s p g with ⟨d, -, -, h⟩ | ⟨-, c, hc, h⟩ | ⟨-, tree, ht, out, rfl, h⟩
  · rw [h] at hskip
    cases hskip
  · rw [h, hc]
    rfl
  · rw [h, ht]

/-- A failure, and nothing else, is remembered. -/
theorem mem_failed_step (s : Setting) (p : Progress) (g : Generator) (n : String) :
    n ∈ (s.step p g).2.failed ↔ n ∈ p.failed ∨ (n = g.name ∧ (s.step p g).1.ok = false) := by
  rcases step_cases s p g with ⟨d, -, -, h⟩ | ⟨-, c, -, h⟩ | ⟨-, tree, -, out, -, h⟩
  · simp [h, failWith, Result.ok, or_comm]
  · simp [h, failWith, Result.ok, or_comm]
  · cases he : out.error <;> simp [h, he, Result.ok, or_comm]

theorem lookup_rendered_step (s : Setting) (p : Progress) (g : Generator) {n : String}
    (hn : n ≠ g.name) : (s.step p g).2.rendered.lookup n = p.rendered.lookup n := by
  have hne : (n == g.name) = false := by simpa using hn
  rcases step_cases s p g with ⟨d, -, -, h⟩ | ⟨-, c, -, h⟩ | ⟨-, tree, -, out, -, h⟩ <;>
    simp [h, failWith, List.lookup_cons, hne]

theorem lookup_rendered_self {s : Setting} {p : Progress} {g : Generator}
    (hok : (s.step p g).1.ok = true) :
    ∃ tree, s.render g (s.request p g) = .ok tree ∧
      (s.step p g).2.rendered.lookup g.name = some tree := by
  rcases step_cases s p g with ⟨d, -, -, h⟩ | ⟨-, c, -, h⟩ | ⟨-, tree, ht, out, -, h⟩
  · simp [h, failWith, Result.ok] at hok
  · simp [h, failWith, Result.ok] at hok
  · exact ⟨tree, ht, by simp [h]⟩

/-! ## All turns -/

/-- A generator at its turn. -/
structure Turn where
  before : Progress
  generator : Generator

namespace Setting

/-- The turns of a run. -/
def turns (s : Setting) : Progress → List Generator → List Turn
  | _, [] => []
  | p, g :: gs => ⟨p, g⟩ :: s.turns (s.step p g).2 gs

/-- What a run knows after its turns. -/
def after (s : Setting) (p : Progress) (gs : List Generator) : Progress :=
  gs.foldl (fun p g => (s.step p g).2) p

theorem after_cons (s : Setting) (p : Progress) (g : Generator) (gs : List Generator) :
    s.after p (g :: gs) = s.after (s.step p g).2 gs := rfl

def result (s : Setting) (t : Turn) : Result := (s.step t.before t.generator).1

/-- What a generator is given at its turn. -/
def requestAt (s : Setting) (t : Turn) : Request := s.request t.before t.generator

theorem runEach_eq (s : Setting) (p : Progress) (gs : List Generator) :
    s.runEach p gs = ((s.turns p gs).map s.result, (s.after p gs).disk) := by
  induction gs generalizing p with
  | nil => rfl
  | cons g gs ih =>
    rw [runEach]
    simp only [ih]
    rfl

theorem map_generator_turns (s : Setting) (p : Progress) (gs : List Generator) :
    (s.turns p gs).map (·.generator) = gs := by
  induction gs generalizing p with
  | nil => rfl
  | cons g gs ih => rw [turns, List.map_cons, ih]

theorem turns_append (s : Setting) (p : Progress) (gs hs : List Generator) :
    s.turns p (gs ++ hs) = s.turns p gs ++ s.turns (s.after p gs) hs := by
  induction gs generalizing p with
  | nil => rfl
  | cons g gs ih =>
    rw [List.cons_append, turns, turns, ih]
    rfl

theorem mem_turns {s : Setting} {p : Progress} {gs : List Generator} {t : Turn}
    (h : t ∈ s.turns p gs) :
    ∃ before after, gs = before ++ t.generator :: after ∧ t.before = s.after p before := by
  induction gs generalizing p with
  | nil => cases h
  | cons g gs ih =>
    rcases List.mem_cons.mp h with rfl | h
    · exact ⟨[], gs, rfl, rfl⟩
    · obtain ⟨before, after, hgs, hbefore⟩ := ih h
      refine ⟨g :: before, after, ?_, hbefore⟩
      rw [List.cons_append, ← hgs]

/-- What failed in the turns of a run. -/
theorem mem_failed_after (s : Setting) (p : Progress) (gs : List Generator) (n : String) :
    n ∈ (s.after p gs).failed ↔ n ∈ p.failed ∨
      ∃ t ∈ s.turns p gs, t.generator.name = n ∧ (s.result t).ok = false := by
  induction gs generalizing p with
  | nil => simp [after, turns]
  | cons g gs ih =>
    have hstep := mem_failed_step s p g n
    rw [after_cons, ih, hstep, turns, List.exists_mem_cons_iff, or_assoc]
    simp only [result, eq_comm]

theorem lookup_rendered_after {s : Setting} {p : Progress} {gs : List Generator} {n : String}
    (hn : n ∉ gs.map (·.name)) : (s.after p gs).rendered.lookup n = p.rendered.lookup n := by
  induction gs generalizing p with
  | nil => rfl
  | cons g gs ih =>
    rw [List.map_cons, List.mem_cons, not_or] at hn
    rw [after_cons, ih hn.2, lookup_rendered_step s p g hn.1]

/-- What a generator rendered is kept to the end. -/
theorem rendered_of_ok {s : Setting} {p : Progress} {gs : List Generator}
    (hn : (gs.map (·.name)).Nodup) {t : Turn} (ht : t ∈ s.turns p gs)
    (hok : (s.result t).ok = true) :
    ∃ tree, s.render t.generator (s.requestAt t) = .ok tree ∧
      (s.after p gs).rendered.lookup t.generator.name = some tree := by
  induction gs generalizing p with
  | nil => cases ht
  | cons g gs ih =>
    obtain ⟨hnew, hn⟩ := List.nodup_cons.mp hn
    rcases List.mem_cons.mp ht with rfl | ht
    · obtain ⟨tree, htree, hlookup⟩ := lookup_rendered_self hok
      refine ⟨tree, htree, ?_⟩
      rw [after_cons, lookup_rendered_after hnew]
      exact hlookup
    · exact ih hn ht

/-- The turns of a run account for its report: every generator has one result, is skipped exactly
when something that it depends on failed, and else ran, given the trees of all it depends on, which
are on the disk. -/
structure Accounts (s : Setting) (gens : List Generator) (turns : List Turn) (report : Report) :
    Prop where
  generators : turns.map (·.generator) = gens
  results : report = turns.map s.result
  names : report.map (·.generator) = gens.map (·.name)
  skipped : ∀ t ∈ turns, (s.result t).skipped = true ↔
    ∃ d ∈ t.generator.dependsOn, ∃ r ∈ report, r.generator = d ∧ r.ok = false
  ran : ∀ t ∈ turns, (s.result t).skipped = false →
    s.result t = match s.render t.generator (s.requestAt t) with
      | .error c => ⟨t.generator.name, [], some c⟩
      | .ok tree =>
        let out := writeTree t.before.disk (s.requestAt t).outputDir tree
        ⟨t.generator.name, out.files, out.error.map .unwritable⟩
  upstream : ∀ t ∈ turns, (s.result t).skipped = false →
    (s.requestAt t).dependencies.map (·.1) = t.generator.dependsOn ∧
    ∀ q ∈ (s.requestAt t).dependencies, ∃ u ∈ turns, u.generator.name = q.1 ∧
      (s.result u).ok = true ∧ s.render u.generator (s.requestAt u) = .ok q.2

/-- What a generator depends on had its turn before. -/
theorem turn_of_dependsOn {s : Setting} {p : Progress} {before after : List Generator}
    {g : Generator} (ho : Ordered (before ++ g :: after)) {d : String} (hd : d ∈ g.dependsOn) :
    ∃ u ∈ s.turns p before, u.generator.name = d := by
  obtain ⟨f, hf, hname⟩ := List.mem_map.mp (ho before g after rfl d hd)
  rw [← s.map_generator_turns p before] at hf
  obtain ⟨u, hu, rfl⟩ := List.mem_map.mp hf
  exact ⟨u, hu, hname⟩

/-- A generator finds the failures of what it depends on, and no others: what it depends on stands
before it, and no name occurs twice. -/
theorem mem_failed_before {s : Setting} {disk : Disk} {gens : List Generator} (ho : Ordered gens)
    (hn : (gens.map (·.name)).Nodup) {t : Turn} (ht : t ∈ s.turns ⟨[], [], disk⟩ gens)
    {d : String} (hd : d ∈ t.generator.dependsOn) :
    d ∈ t.before.failed ↔ ∃ u ∈ s.turns ⟨[], [], disk⟩ gens,
      u.generator.name = d ∧ (s.result u).ok = false := by
  obtain ⟨before, after, rfl, hbefore⟩ := mem_turns ht
  rw [hbefore, mem_failed_after, turns_append]
  constructor
  · intro hfailed
    obtain ⟨u, hu, hname, hok⟩ := hfailed.resolve_left (by simp)
    exact ⟨u, List.mem_append_left _ hu, hname, hok⟩
  · rintro ⟨u, hu, rfl, hok⟩
    refine .inr ⟨u, ?_, rfl, hok⟩
    refine (List.mem_append.mp hu).resolve_right fun hu => ?_
    have hlate : u.generator ∈ t.generator :: after := by
      rw [← s.map_generator_turns _ (t.generator :: after)]
      exact List.mem_map_of_mem hu
    have hearly := ho before t.generator after rfl _ hd
    rw [List.map_append, List.nodup_append'] at hn
    exact hn.2.2 hearly (List.mem_map_of_mem hlate)

/-- A generator that ran had the tree of each one that it depends on, as that one rendered it. -/
theorem rendered_before {s : Setting} {disk : Disk} {gens : List Generator} (ho : Ordered gens)
    (hn : (gens.map (·.name)).Nodup) {t : Turn} (ht : t ∈ s.turns ⟨[], [], disk⟩ gens)
    (hskip : (s.result t).skipped = false) {d : String} (hd : d ∈ t.generator.dependsOn) :
    ∃ u ∈ s.turns ⟨[], [], disk⟩ gens, u.generator.name = d ∧ (s.result u).ok = true ∧
      ∃ tree, s.render u.generator (s.requestAt u) = .ok tree ∧
        t.before.rendered.lookup d = some tree := by
  have hfine : d ∉ t.before.failed := by
    intro hfailed
    rw [result, Bool.eq_false_iff, ne_eq, step_skipped] at hskip
    exact hskip ⟨d, hd, hfailed⟩
  obtain ⟨before, after, rfl, hbefore⟩ := mem_turns ht
  rw [hbefore] at hfine ⊢
  obtain ⟨u, hu, rfl⟩ := turn_of_dependsOn (s := s) (p := ⟨[], [], disk⟩) ho hd
  have hok : (s.result u).ok = true := by
    by_contra hnot
    exact hfine ((mem_failed_after ..).mpr (.inr ⟨u, hu, rfl, by simpa using hnot⟩))
  rw [List.map_append, List.nodup_append'] at hn
  refine ⟨u, ?_, rfl, hok, rendered_of_ok hn.1 hu hok⟩
  rw [turns_append]
  exact List.mem_append_left _ hu

theorem accounts_turns (s : Setting) (disk : Disk) {gens : List Generator} (ho : Ordered gens)
    (hn : (gens.map (·.name)).Nodup) :
    s.Accounts gens (s.turns ⟨[], [], disk⟩ gens)
      ((s.turns ⟨[], [], disk⟩ gens).map s.result) := by
  have hnames (t : Turn) : (s.result t).generator = t.generator.name := step_generator ..
  constructor
  case generators => exact s.map_generator_turns _ gens
  case results => rfl
  case names =>
    rw [List.map_map, ← s.map_generator_turns ⟨[], [], disk⟩ gens, List.map_map]
    simp [Function.comp_def, hnames, s.map_generator_turns]
  case skipped =>
    intro t ht
    rw [result, step_skipped]
    constructor
    · rintro ⟨d, hd, hfailed⟩
      obtain ⟨u, hu, hname, hok⟩ := (mem_failed_before ho hn ht hd).mp hfailed
      exact ⟨d, hd, s.result u, List.mem_map_of_mem hu, (hnames u).trans hname, hok⟩
    · rintro ⟨d, hd, r, hr, hname, hok⟩
      obtain ⟨u, hu, rfl⟩ := List.mem_map.mp hr
      exact ⟨d, hd, (mem_failed_before ho hn ht hd).mpr ⟨u, hu, (hnames u).symm.trans hname, hok⟩⟩
  case ran => exact fun t _ => step_ran
  case upstream =>
    intro t ht hskip
    refine ⟨?_, fun q hq => ?_⟩
    · simp [requestAt, request, Function.comp_def]
    · obtain ⟨d, hd, rfl⟩ := List.mem_map.mp hq
      obtain ⟨u, hu, hname, hok, tree, htree, hlookup⟩ := rendered_before ho hn ht hskip hd
      refine ⟨u, hu, hname, hok, ?_⟩
      rw [htree, hlookup]
      rfl

end Setting

end Scaffold.Generator
