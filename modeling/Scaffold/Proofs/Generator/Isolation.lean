import Scaffold.Build.Application
import Scaffold.Proofs.Generator.Run
import Mathlib.Data.List.Find

/-! # A failure stays with what depends on it

Two runs that differ in the behaviour of one generator go side by side. They agree on everything
that does not depend on this generator: on its results, on its trees and on its part of the disk. -/
namespace Scaffold.Generator

open Scaffold.Disk (IsName)
open Scaffold.Output (locationOf writeTree writeFiles ChangedBelow)

/-- Two runs know the same about the names that are free. -/
structure Progress.Agree (root : String) (free : String → Prop) (p q : Progress) : Prop where
  failed : ∀ n, free n → (n ∈ p.failed ↔ n ∈ q.failed)
  rendered : ∀ n, free n → p.rendered.lookup n = q.rendered.lookup n
  disk : Output.Agree (locationOf root) free p.disk q.disk

theorem Progress.Agree.symm {root : String} {free : String → Prop} {p q : Progress}
    (h : p.Agree root free q) : q.Agree root free p :=
  ⟨fun n hn => (h.failed n hn).symm, fun n hn => (h.rendered n hn).symm, h.disk.symm⟩

theorem locationOf_outputDir {g : Generator} (hg : IsName g.name) (s : Setting) (p : Progress) :
    locationOf (s.request p g).outputDir = locationOf s.root ++ [g.name] := by
  have hjoin := Output.locationOf_join hg.ofNames s.root
  rw [Disk.segments_of_slash hg.slash] at hjoin
  exact hjoin

/-- A turn changes nothing on the disk but the part of its generator. -/
theorem step_below {s : Setting} {p : Progress} {g : Generator} (hg : IsName g.name)
    (hd : p.disk.Sound) :
    ChangedBelow (locationOf s.root ++ [g.name]) p.disk (s.step p g).2.disk := by
  rcases step_cases s p g with ⟨d, -, -, h⟩ | ⟨-, c, -, h⟩ | ⟨-, tree, -, out, rfl, h⟩
  · rw [h]
    exact ChangedBelow.refl hd _
  · rw [h]
    exact ChangedBelow.refl hd _
  · rw [h, ← locationOf_outputDir hg s p]
    exact Output.writeFiles_below _ _ hd

/-- The turn of a generator that is not free leaves the agreement. -/
theorem Progress.Agree.step_left {s : Setting} {free : String → Prop} {p q : Progress}
    {g : Generator} (h : p.Agree s.root free q) (hg : IsName g.name) (hf : ¬ free g.name) :
    (s.step p g).2.Agree s.root free q := by
  have hne : ∀ n, free n → n ≠ g.name := fun n hn heq => hf (heq ▸ hn)
  refine ⟨fun n hn => ?_, fun n hn => ?_, h.disk.change hf (step_below hg h.disk.left)⟩
  · rw [mem_failed_step, ← h.failed n hn]
    simp [hne n hn]
  · rw [lookup_rendered_step s p g (hne n hn), h.rendered n hn]

/-- The turn of a generator that is free, with all it depends on, has the same result. -/
theorem Progress.Agree.step {s : Setting} {free : String → Prop} {p q : Progress}
    {g : Generator} (h : p.Agree s.root free q) (hg : IsName g.name) (hf : free g.name)
    (hd : ∀ d ∈ g.dependsOn, free d) :
    (s.step p g).1 = (s.step q g).1 ∧ (s.step p g).2.Agree s.root free (s.step q g).2 := by
  -- both runs skip it or both ask for the same
  have hfind : g.dependsOn.find? p.failed.contains = g.dependsOn.find? q.failed.contains := by
    apply List.find?_congr
    intro d hdep
    rw [Bool.eq_iff_iff, List.contains_iff_mem, List.contains_iff_mem]
    exact h.failed d (hd d hdep)
  have hrequest : s.request p g = s.request q g := by
    have hdeps : g.dependsOn.map (fun d => (d, (p.rendered.lookup d).getD [])) =
        g.dependsOn.map fun d => (d, (q.rendered.lookup d).getD []) := by
      apply List.map_congr_left
      intro d hdep
      rw [h.rendered d (hd d hdep)]
    simp only [Setting.request, hdeps]
  have hfailed : ∀ n, free n → (n ∈ g.name :: p.failed ↔ n ∈ g.name :: q.failed) := by
    intro n hn
    rw [List.mem_cons, List.mem_cons, h.failed n hn]
  simp only [Setting.step, hfind, hrequest]
  cases g.dependsOn.find? q.failed.contains with
  | some d => exact ⟨rfl, hfailed, h.rendered, h.disk⟩
  | none =>
    cases s.render g (s.request q g) with
    | error c => exact ⟨rfl, hfailed, h.rendered, h.disk⟩
    | ok tree =>
      obtain ⟨hfiles, herror, hdisk⟩ := Output.writeFiles_agree h.disk hf
        (locationOf_outputDir hg s q) tree.sorted
      have hrendered : ∀ n, free n → ((g.name, tree) :: p.rendered).lookup n =
          ((g.name, tree) :: q.rendered).lookup n := by
        intro n hn
        rw [List.lookup_cons, List.lookup_cons, h.rendered n hn]
      simp only [writeTree, hfiles, herror]
      cases (writeFiles (s.request q g).outputDir q.disk tree.sorted).error with
      | none => exact ⟨rfl, h.failed, hrendered, hdisk⟩
      | some e => exact ⟨rfl, hfailed, hrendered, hdisk⟩

/-! ## Two runs -/

section

variable {r : Registry} {changed : String}

theorem free_of_dependsOn {g : Generator} (hg : g ∈ r.generators) (hf : ¬ r.Needs g.name changed) :
    ∀ d ∈ g.dependsOn, ¬ r.Needs d changed :=
  fun _ hd hn => hf (.head ⟨g, hg, rfl, hd⟩ hn)

theorem replaced_of_free {g : Generator} (hf : ¬ r.Needs g.name changed)
    (behaviour : Request → Outcome) : replaced changed behaviour g = g := by
  have hne : g.name ≠ changed := fun heq => hf (heq ▸ .refl)
  rw [replaced, if_neg hne]

/-- One turn in both runs. -/
theorem Progress.Agree.turn {s : Setting} {p q : Progress} {g : Generator}
    (h : p.Agree s.root (¬ r.Needs · changed) q) (hg : g ∈ r.generators) (hn : IsName g.name)
    (behaviour : Request → Outcome) :
    (s.step p g).2.Agree s.root (¬ r.Needs · changed)
      (s.step q (replaced changed behaviour g)).2 ∧
    (¬ r.Needs g.name changed →
      (s.step p g).1 = (s.step q (replaced changed behaviour g)).1) := by
  by_cases hf : r.Needs g.name changed
  · -- whatever happens, in either run, happens in a part of the disk that nobody compares
    refine ⟨?_, fun hfree => absurd hf hfree⟩
    have hleft := h.step_left hn (not_not.mpr hf)
    exact (hleft.symm.step_left (by simpa using hn) (by simpa using hf)).symm
  · rw [replaced_of_free hf]
    obtain ⟨hresult, hagree⟩ := h.step hn hf (free_of_dependsOn hg hf)
    exact ⟨hagree, fun _ => hresult⟩

/-- The runs agree to their end. -/
theorem Progress.Agree.run {s : Setting} {p q : Progress} {gs : List Generator}
    (h : p.Agree s.root (¬ r.Needs · changed) q) (hgs : ∀ g ∈ gs, g ∈ r.generators)
    (hn : ∀ g ∈ gs, IsName g.name) (behaviour : Request → Outcome) :
    (s.after p gs).Agree s.root (¬ r.Needs · changed)
      (s.after q (gs.map (replaced changed behaviour))) ∧
    ∀ n, ¬ r.Needs n changed →
      ((s.turns p gs).map s.result).find? (·.generator == n) =
        ((s.turns q (gs.map (replaced changed behaviour))).map s.result).find?
          (·.generator == n) := by
  induction gs generalizing p q with
  | nil => exact ⟨h, fun _ _ => rfl⟩
  | cons g gs ih =>
    obtain ⟨hg, hgs⟩ := List.forall_mem_cons.mp hgs
    obtain ⟨hname, hn⟩ := List.forall_mem_cons.mp hn
    obtain ⟨hagree, hresult⟩ := h.turn hg hname behaviour
    obtain ⟨hafter, hreport⟩ := ih hagree hgs hn
    refine ⟨hafter, fun n hfree => ?_⟩
    have hfirst : s.result ⟨p, g⟩ = (s.step p g).1 := rfl
    have hother : s.result ⟨q, replaced changed behaviour g⟩ =
        (s.step q (replaced changed behaviour g)).1 := rfl
    simp only [List.map_cons, Setting.turns, List.find?_cons, hfirst, hother, step_generator,
      replaced_name, hreport n hfree]
    by_cases heq : g.name = n
    · rw [hresult (heq ▸ hfree)]
    · have hne : (g.name == n) = false := by simpa using heq
      rw [hne]

end

/-- A run takes place when its generators and options are accepted. -/
theorem run_of_ok {r : Registry} {app : Model.Application} {enabled : List String}
    {requested : Requested} {gens : List Generator} {options : Options}
    (hgens : r.selected enabled = .ok gens) (hoptions : resolve requested app = .ok options)
    (disk : Disk) (root : String) (cancelled : Bool) :
    r.run disk app root enabled requested cancelled =
      .ok (Setting.runEach ⟨app, root, options, cancelled⟩ ⟨[], [], disk⟩ gens) := by
  rw [Registry.run, hgens, hoptions]
  rfl

def crashing : Generator := ⟨"a", [], fun _ => .crashed "out of luck"⟩

def dependent : Generator := ⟨"b", ["a"], fun _ => .nothing⟩

def apart : Generator := ⟨"c", [], fun _ => .tree [("file", "text")]⟩

/-- A generator that crashes, one that depends on it, and one apart. -/
def three : Registry := ⟨[crashing, dependent, apart]⟩

theorem three_registered : three.Registered :=
  have hone : Registry.Registered ⟨[crashing]⟩ := .register (g := crashing) .empty rfl
  have htwo : Registry.Registered ⟨[crashing, dependent]⟩ := .register (g := dependent) hone rfl
  .register (g := apart) htwo rfl

theorem three_named : ∀ g ∈ three.generators, IsName g.name := by
  intro g hg
  simp only [three, List.mem_cons, List.not_mem_nil, or_false] at hg
  rcases hg with rfl | rfl | rfl <;> exact ⟨by decide, by decide, by decide, by decide⟩

theorem three_apart : ¬ three.Needs "c" "a" := by
  intro h
  rcases Relation.ReflTransGen.cases_head h with heq | ⟨d, ⟨g, hg, hname, hd⟩, -⟩
  · exact absurd heq (by decide)
  · simp only [three, List.mem_cons, List.not_mem_nil, or_false] at hg
    rcases hg with rfl | rfl | rfl
    · exact absurd hname (by decide)
    · exact absurd hname (by decide)
    · cases hd

end Scaffold.Generator
