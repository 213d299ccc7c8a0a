import Mathlib.Data.List.Induction
import Mathlib.Data.List.Nodup
import Mathlib.Logic.Relation
import Mathlib.Tactic.Common
import Scaffold.Generator.Registry
import Scaffold.Proofs.Lists

/-! # What a registry guarantees

Names are told apart, and dependencies stand before what depends on them. A choice of names selects
the generators that the names lead to by dependencies, in any number of steps. One sweep over the
registry finds them all, since dependencies stand before what depends on them. A name that is not
registered makes the choice fail, and no choice stands for all names. -/
namespace Scaffold.Generator

namespace Registry

/-- A registry that registrations lead to. -/
inductive Registered : Registry → Prop
  | empty : Registered Registry.empty
  | register {r r' : Registry} {g : Generator} (h : Registered r) (hg : r.register g = .ok r') :
      Registered r'

/-- Whether the generator of one name depends on that of another, at once or through others. -/
def Needs (r : Registry) : String → String → Prop :=
  Relation.ReflTransGen fun a b => ∃ g ∈ r.generators, g.name = a ∧ b ∈ g.dependsOn

end Registry

/-- Every generator stands behind those that it depends on. -/
def Ordered : List Generator → Prop :=
  InOrder fun before g => ∀ d ∈ g.dependsOn, d ∈ before.map (·.name)

namespace Registry

theorem isSome_find? {r : Registry} {name : String} :
    (r.find? name).isSome = true ↔ name ∈ r.names := by
  simp [find?, names]

theorem register_ok {r r' : Registry} {g : Generator} (h : r.register g = .ok r') :
    r'.generators = r.generators ++ [g] ∧ g.name ∉ r.names ∧ ∀ d ∈ g.dependsOn, d ∈ r.names := by
  unfold register at h
  split at h
  next => cases h
  next hname =>
    split at h
    next => cases h
    next hdeps =>
      cases h
      refine ⟨rfl, fun hmem => hname (isSome_find?.mpr hmem), fun d hd => ?_⟩
      have hsome := List.find?_eq_none.mp hdeps d hd
      apply isSome_find?.mp
      simpa [Option.isSome_iff_ne_none] using hsome

theorem Registered.nodup {r : Registry} (h : r.Registered) : r.names.Nodup := by
  induction h with
  | empty => exact List.nodup_nil
  | @register r r' g h hg ih =>
    obtain ⟨heq, hname, -⟩ := register_ok hg
    rw [names, heq, List.map_append, List.nodup_append']
    refine ⟨ih, by simp, fun n hn hlast => ?_⟩
    have heq : n = g.name := List.mem_singleton.mp hlast
    exact hname (heq ▸ hn)

theorem Registered.ordered {r : Registry} (h : r.Registered) : Ordered r.generators := by
  induction h with
  | empty => exact .nil _
  | register h hg ih =>
    obtain ⟨heq, -, hdeps⟩ := register_ok hg
    rw [heq]
    exact ih.concat hdeps

/-! ## Selection -/

theorem close_cons (wanted : List String) (g : Generator) (gs : List Generator) :
    close wanted (g :: gs) =
      close (if wanted.contains g.name then wanted ++ g.dependsOn else wanted) gs := rfl

theorem subset_close (wanted : List String) (gs : List Generator) : wanted ⊆ close wanted gs := by
  induction gs generalizing wanted with
  | nil => exact List.Subset.refl wanted
  | cons g gs ih =>
    rw [close_cons]
    refine List.Subset.trans ?_ (ih _)
    split
    · exact List.subset_append_left _ _
    · exact List.Subset.refl wanted

theorem mem_close {wanted : List String} {gs : List Generator} {n : String}
    (h : n ∈ close wanted gs) : n ∈ wanted ∨ ∃ g ∈ gs, n ∈ g.dependsOn := by
  induction gs generalizing wanted with
  | nil => exact .inl h
  | cons g gs ih =>
    rw [close_cons] at h
    rcases ih h with hn | ⟨f, hf, hn⟩
    · split at hn
      · rcases List.mem_append.mp hn with hn | hn
        · exact .inl hn
        · exact .inr ⟨g, .head _, hn⟩
      · exact .inl hn
    · exact .inr ⟨f, .tail _ hf, hn⟩

/-- One sweep from the last generator on takes in all dependencies. -/
theorem close_dependsOn {gs : List Generator} (ho : Ordered gs) (hn : (gs.map (·.name)).Nodup)
    (wanted : List String) {g : Generator} (hg : g ∈ gs)
    (hw : g.name ∈ close wanted gs.reverse) : g.dependsOn ⊆ close wanted gs.reverse := by
  induction gs using List.reverseRecOn generalizing wanted with
  | nil => cases hg
  | append_singleton gs last ih =>
    rw [List.reverse_append, List.reverse_singleton, List.singleton_append, close_cons] at hw ⊢
    rw [List.map_append, List.nodup_append'] at hn
    obtain ⟨hnodup, -, hdisjoint⟩ := hn
    rcases List.mem_append.mp hg with hg | hg
    · exact ih ho.left hnodup _ hg hw
    · obtain rfl := List.mem_singleton.mp hg
      by_cases hc : wanted.contains g.name = true
      · rw [if_pos hc]
        exact List.Subset.trans (List.subset_append_right _ _) (subset_close _ _)
      · -- nothing before the generator depends on it, so the sweep cannot want it later
        rw [if_neg hc] at hw
        rcases mem_close hw with hmem | ⟨f, hf, hd⟩
        · exact absurd (List.contains_iff_mem.mpr hmem) hc
        · obtain ⟨before, after, rfl⟩ := List.append_of_mem (List.mem_reverse.mp hf)
          have hbefore := ho.left before f after rfl _ hd
          have hin : g.name ∈ (before ++ f :: after).map (·.name) := by
            rw [List.map_append]
            exact List.mem_append_left _ hbefore
          exact (hdisjoint hin (by simp)).elim

theorem selected_of_known {r : Registry} {enabled : List String} (h : ∀ n ∈ enabled, n ∈ r.names) :
    ∃ gens, r.selected enabled = .ok gens := by
  unfold selected
  split
  · exact ⟨_, rfl⟩
  · split
    next n hfind =>
      have hsome := isSome_find?.mpr (h n (List.mem_of_find?_eq_some hfind))
      have hnone := List.find?_some hfind
      rw [Option.isNone_iff_eq_none.mp hnone] at hsome
      cases hsome
    next => exact ⟨_, rfl⟩

/-- The selected generators are a part of the registry that holds its own dependencies. -/
theorem selected_ok {r : Registry} (hr : r.Registered) {enabled : List String}
    {gens : List Generator} (h : r.selected enabled = .ok gens) :
    gens.Sublist r.generators ∧ Ordered gens := by
  unfold selected at h
  split at h
  next =>
    cases h
    exact ⟨List.Sublist.refl _, hr.ordered⟩
  next =>
    split at h
    next => cases h
    next =>
      cases h
      refine ⟨List.filter_sublist, ?_⟩
      intro before g after heq d hd
      obtain ⟨front, back, hsplit, hfront, hback⟩ := List.filter_eq_append_iff.mp heq
      obtain ⟨skip, rest, rfl, hskip, hg, -⟩ := List.filter_eq_cons_iff.mp hback
      have hall : r.generators = (front ++ skip) ++ g :: rest := by simp [hsplit]
      obtain ⟨f, hf, hname⟩ := List.mem_map.mp (hr.ordered _ g rest hall d hd)
      have hwanted : (close enabled r.generators.reverse).contains f.name = true := by
        rw [List.contains_iff_mem] at hg ⊢
        rw [hname]
        exact close_dependsOn hr.ordered hr.nodup enabled (by simp [hall]) hg hd
      rcases List.mem_append.mp hf with hf | hf
      · refine List.mem_map.mpr ⟨f, ?_, hname⟩
        rw [← hfront]
        exact List.mem_filter.mpr ⟨hf, hwanted⟩
      · exact absurd hwanted (by simpa using hskip f hf)

/-! ## Another behaviour -/

end Registry

/-- A generator that behaves otherwise, if it has the name. -/
def replaced (name : String) (behaviour : Request → Outcome) (g : Generator) : Generator :=
  if g.name = name then { g with generate := behaviour } else g

@[simp] theorem replaced_name (name : String) (behaviour : Request → Outcome) (g : Generator) :
    (replaced name behaviour g).name = g.name := by
  unfold replaced
  split <;> rfl

@[simp] theorem replaced_dependsOn (name : String) (behaviour : Request → Outcome) (g : Generator) :
    (replaced name behaviour g).dependsOn = g.dependsOn := by
  unfold replaced
  split <;> rfl

namespace Registry

/-- The registry in which the generator of a name behaves otherwise. -/
def replace (r : Registry) (name : String) (behaviour : Request → Outcome) : Registry :=
  ⟨r.generators.map (replaced name behaviour)⟩

theorem isNone_find?_replace (r : Registry) (name : String) (behaviour : Request → Outcome)
    (n : String) : ((r.replace name behaviour).find? n).isNone = (r.find? n).isNone := by
  have hname : (fun g : Generator => g.name == n) ∘ replaced name behaviour =
      fun g => g.name == n := by
    funext g
    rw [Function.comp_apply, replaced_name]
  rw [find?, replace, List.find?_map, Option.isNone_map, hname, find?]

theorem close_replace (name : String) (behaviour : Request → Outcome) (wanted : List String)
    (gs : List Generator) : close wanted (gs.map (replaced name behaviour)) = close wanted gs := by
  simp [close, List.foldl_map]

/-- What is selected does not depend on how generators behave. -/
theorem selected_replace (r : Registry) (name : String) (behaviour : Request → Outcome)
    (enabled : List String) : (r.replace name behaviour).selected enabled =
      (r.selected enabled).map (List.map (replaced name behaviour)) := by
  unfold selected
  split
  · rfl
  · simp only [isNone_find?_replace]
    split
    · rfl
    · simp only [replace, ← List.map_reverse, close_replace, List.filter_map, Except.map]
      simp [Function.comp_def]

/-! ## What a choice selects -/

/-- The names that a list of enabled ones stands for. -/
def chosen (r : Registry) (enabled : List String) : List String :=
  if enabled.isEmpty then r.names else enabled

/-- The first name of a list that is not registered. -/
def FirstUnknown (r : Registry) (enabled : List String) (n : String) : Prop :=
  n ∉ r.names ∧ ∃ before after, enabled = before ++ n :: after ∧ ∀ m ∈ before, m ∈ r.names

/-- Each generator that the chosen names lead to, once and in the order of registration, and none
before what it depends on. -/
structure Selects (r : Registry) (chosen : List String) (gens : List Generator) : Prop where
  sublist : gens.Sublist r.generators
  once : (gens.map (·.name)).Nodup
  reached : ∀ g, g ∈ gens ↔ g ∈ r.generators ∧ ∃ n ∈ chosen, r.Needs n g.name
  ordered : Ordered gens

/-! ## The sweep -/

/-- What a step wants beside what was wanted is needed by it. -/
theorem needs_of_mem_step {r : Registry} {wanted : List String} {g : Generator}
    (hg : g ∈ r.generators) {n : String}
    (hn : n ∈ if wanted.contains g.name then wanted ++ g.dependsOn else wanted) :
    ∃ m ∈ wanted, r.Needs m n := by
  split at hn
  next hwanted =>
    rcases List.mem_append.mp hn with hn | hn
    · exact ⟨n, hn, .refl⟩
    · exact ⟨g.name, List.contains_iff_mem.mp hwanted, .single ⟨g, hg, rfl, hn⟩⟩
  next => exact ⟨n, hn, .refl⟩

/-- A sweep in any order wants nothing that is not needed: by induction on the generators. -/
theorem needs_of_mem_close {r : Registry} {gens : List Generator} (hgens : gens ⊆ r.generators)
    {wanted : List String} {n : String} (hn : n ∈ close wanted gens) :
    ∃ m ∈ wanted, r.Needs m n := by
  induction gens generalizing wanted with
  | nil => exact ⟨n, hn, .refl⟩
  | cons g gens ih =>
    obtain ⟨hg, hgens⟩ := List.cons_subset.mp hgens
    rw [close_cons] at hn
    obtain ⟨k, hk, hkn⟩ := ih hgens hn
    obtain ⟨m, hm, hmk⟩ := needs_of_mem_step hg hk
    exact ⟨m, hm, hmk.trans hkn⟩

/-- The sweep from the last generator on wants exactly what the given names need. -/
theorem mem_close_iff {r : Registry} (hr : r.Registered) {wanted : List String} {n : String} :
    n ∈ close wanted r.generators.reverse ↔ ∃ m ∈ wanted, r.Needs m n := by
  constructor
  · exact needs_of_mem_close fun g hg => List.mem_reverse.mp hg
  · rintro ⟨m, hm, hneeds⟩
    induction hneeds with
    | refl => exact subset_close _ _ hm
    | tail _ hstep ih =>
      obtain ⟨g, hg, rfl, hdepends⟩ := hstep
      exact close_dependsOn hr.ordered hr.nodup wanted hg ih hdepends

/-! ## The selection -/

theorem selected_error_iff {r : Registry} {enabled : List String} {n : String} :
    r.selected enabled = .error n ↔ r.FirstUnknown enabled n := by
  have hknown (m : String) : (r.find? m).isNone = true ↔ m ∉ r.names := by
    rw [← isSome_find?, Option.isNone_iff_eq_none, Option.not_isSome_iff_eq_none]
  have hfirst : (enabled.find? fun m => (r.find? m).isNone) = some n ↔
      r.FirstUnknown enabled n := by
    rw [List.find?_eq_some_iff_append, hknown, FirstUnknown]
    simp [isSome_find?]
  rw [← hfirst, selected]
  split
  next hempty => simp [List.isEmpty_iff.mp hempty]
  next =>
    split
    next hfind => simp [hfind]
    next hfind => simp [hfind]

/-- Known names select the generators that they lead to. -/
theorem selects_of_selected {r : Registry} (hr : r.Registered) {enabled : List String}
    {gens : List Generator} (h : r.selected enabled = .ok gens) :
    r.Selects (r.chosen enabled) gens := by
  obtain ⟨hsublist, hordered⟩ := selected_ok hr h
  refine ⟨hsublist, hr.nodup.sublist (hsublist.map _), fun g => ?_, hordered⟩
  rw [selected] at h
  rw [chosen]
  split at h
  next hempty =>
    cases h
    rw [if_pos hempty]
    exact ⟨fun hg => ⟨hg, g.name, List.mem_map_of_mem hg, .refl⟩, And.left⟩
  next hempty =>
    rw [if_neg hempty]
    split at h
    · cases h
    · cases h
      simp only [List.mem_filter, List.contains_iff_mem, mem_close_iff hr]

/-- A choice fails at its first unknown name, and at nothing else. A choice of known names selects
each generator that they lead to by any number of dependencies, once and in the order of
registration, and so each behind those that it depends on. An empty choice stands for all names. -/
theorem selected_closure {r : Registry} (hr : r.Registered) (enabled : List String) :
    (∀ n, r.selected enabled = .error n ↔ r.FirstUnknown enabled n) ∧
      ((∀ n ∈ enabled, n ∈ r.names) →
        ∃ gens, r.selected enabled = .ok gens ∧ r.Selects (r.chosen enabled) gens) := by
  refine ⟨fun n => selected_error_iff, fun hknown => ?_⟩
  obtain ⟨gens, hgens⟩ := selected_of_known hknown
  exact ⟨gens, hgens, selects_of_selected hr hgens⟩

/-- A generator of nothing. -/
def idle (name : String) (dependsOn : List String) : Generator :=
  ⟨name, dependsOn, fun _ => .nothing⟩

/-- A tool that needs a library by way of another one, and two that it does not need. -/
def toolchain : Registry :=
  ⟨[idle "base" [], idle "docs" ["base"], idle "core" ["base"], idle "tool" ["core", "base"],
    idle "site" ["docs", "tool"]]⟩

theorem toolchain_closure : toolchain.Registered ∧
    (toolchain.selected ["tool", "tool"]).toOption.map (·.map (·.name)) =
      some ["base", "core", "tool"] ∧
    toolchain.selected ["tool", "app", "lib"] = .error "app" ∧
    (∀ n, toolchain.selected ["tool", "tool"] = .error n ↔
      toolchain.FirstUnknown ["tool", "tool"] n) ∧
    ∃ gens, toolchain.selected ["tool", "tool"] = .ok gens ∧
      toolchain.Selects (toolchain.chosen ["tool", "tool"]) gens := by
  have hregistered : toolchain.Registered := by
    refine .register (r := ⟨[idle "base" [], idle "docs" ["base"], idle "core" ["base"],
      idle "tool" ["core", "base"]]⟩) (g := idle "site" ["docs", "tool"]) ?_ rfl
    refine .register (r := ⟨[idle "base" [], idle "docs" ["base"], idle "core" ["base"]]⟩)
      (g := idle "tool" ["core", "base"]) ?_ rfl
    refine .register (r := ⟨[idle "base" [], idle "docs" ["base"]]⟩)
      (g := idle "core" ["base"]) ?_ rfl
    refine .register (r := ⟨[idle "base" []]⟩) (g := idle "docs" ["base"]) ?_ rfl
    exact .register (g := idle "base" []) .empty rfl
  obtain ⟨herrors, hselects⟩ := selected_closure hregistered ["tool", "tool"]
  exact ⟨hregistered, by decide, rfl, herrors, hselects (by decide)⟩

end Registry

end Scaffold.Generator
