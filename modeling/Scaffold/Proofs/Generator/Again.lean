import Mathlib.Data.List.TakeWhile
import Scaffold.Proofs.Generator.Confined
import Scaffold.Proofs.Output.Merge

/-! # Running again

A generator that succeeded in an empty directory finds its files as they are to be when it runs
again. A file that was new on the disk holds what was rendered, and so it is not written again when
the same is rendered. The second run goes side by side with the first: what did not fail has not
failed again, so each of these generators is given what it was given before, and renders what it
rendered before. -/
namespace Scaffold.Output

open Scaffold.Disk

/-! ## A file that was new -/

/-- A file that is there already and was not written. -/
def Written.unchanged (w : Written) : Written := { w with changed := false }

section

variable {dir : String} {d e : Disk} {f : String × String} {w : Written}

/-- A new file holds what was rendered. -/
theorem Finished.rendered (h : Finished dir d e f w) (hnew : d.get? (placeOf dir f.1) = none) :
    w.content = f.2 ∧ ∃ chunks, parseChunks f.2 = .ok chunks := by
  have hmerged := h.merged
  rw [Disk.text?, hnew] at hmerged
  exact mergeRegions_none.mp hmerged

/-- Writing the same again finds it there. -/
theorem Finished.again {e' : Disk} {w' : Written} (h : Finished dir d e f w)
    (hnew : d.get? (placeOf dir f.1) = none) (h' : Finished dir e e' f w') : w' = w.unchanged := by
  obtain ⟨hcontent, chunks, hchunks⟩ := h.rendered hnew
  have hstored := h.stored
  rw [hcontent] at hstored
  have hmerged := h'.merged
  rw [text?_eq_some.mpr hstored, mergeRegions_self hchunks] at hmerged
  have hsame : f.2 = w'.content := Except.ok.inj hmerged
  have hunchanged : w'.changed = false := h'.same.mpr (hsame ▸ hstored)
  obtain ⟨path, content, changed⟩ := w'
  simp only [Written.unchanged, Written.mk.injEq]
  exact ⟨h'.path.trans h.path.symm, hsame.symm.trans hcontent.symm, hunchanged⟩

/-- A file that holds what was rendered can be written. -/
theorem Finished.writable {d' : Disk} (h : Finished dir d e f w)
    (hnew : d.get? (placeOf dir f.1) = none) (hd' : d'.Sound)
    (hsame : d'.get? (placeOf dir f.1) = e.get? (placeOf dir f.1)) :
    writeFile d' dir f.1 f.2 = .ok (⟨f.1, f.2, false⟩, d') := by
  obtain ⟨hcontent, chunks, hchunks⟩ := h.rendered hnew
  have hstored : d'.get? (placeOf dir f.1) = some (.file f.2) := by
    rw [hsame, h.stored, hcontent]
  have hnames := isSafePath_ofNames h.safe
  have hold : existing d' f.1 (join [dir, f.1]) = .ok (some f.2) := by
    rcases existing_cases (clean_join hnames dir) (kept_join_ne_nil hnames dir) hd' f.1 with
      ⟨content, hget, heq⟩ | ⟨hget, -⟩ | ⟨hget, -⟩ | ⟨hget, -⟩
    · cases hstored.symm.trans hget
      exact heq
    all_goals cases hstored.symm.trans hget
  rw [writeFile_eq h.safe, hold, ok_bind, finished, mergeRegions_self hchunks]
  simp [Except.mapError, bind, Except.bind]

/-- Writing the same files again finds all of them there. -/
theorem forall₂_again {tree : Tree} {ws ws' : List Written} {e' : Disk}
    (h : List.Forall₂ (Finished dir d e) tree ws)
    (hnew : ∀ f ∈ tree, isSafePath f.1 = true → d.get? (placeOf dir f.1) = none)
    (h' : List.Forall₂ (Finished dir e e') tree ws') : ws' = ws.map Written.unchanged := by
  induction h generalizing ws' with
  | nil =>
    cases h'
    rfl
  | cons hf _ ih =>
    obtain ⟨hfirst, hrest⟩ := List.forall_mem_cons.mp hnew
    cases h' with
    | cons hf' h' => rw [List.map_cons, ih hrest h', hf.again (hfirst hf.safe) hf']

end

end Scaffold.Output

namespace Scaffold

/-- No name stands in a directory. -/
def Disk.Vacant (d : Disk) (dir : Location) : Prop :=
  ∀ n, Disk.IsName n → ∀ l, dir ++ [n] <+: l → d.get? l = none

theorem Disk.vacant_empty (dir : Location) : Disk.empty.Vacant dir := by
  intro n hn l hl
  have hbelow : isAnchor (dir ++ [n]) = false :=
    Output.isAnchor_names (List.cons_ne_nil n []) (List.forall_mem_singleton.mpr hn) dir
  have hanchor : isAnchor l = false := by
    by_contra hnot
    rw [isAnchor_of_above (Bool.not_eq_false _ ▸ hnot) hl] at hbelow
    cases hbelow
  simp [get?, hanchor, empty]

namespace Generator

open Scaffold.Disk (IsName)
open Scaffold.Output (Tree Written locationOf placeOf isSafePath)

/-- A context that cancels nothing but what another cancels as well. -/
structure Context.Milder (c' c : Context) : Prop where
  render : ∀ n, c'.beforeRender n = true → c.beforeRender n = true
  file : ∀ n path, c'.beforeFile n path = true → c.beforeFile n path = true

theorem Context.Milder.refl (c : Context) : c.Milder c := ⟨fun _ h => h, fun _ _ h => h⟩

theorem Context.milder_never (c : Context) : (Context.always false).Milder c := ⟨nofun, nofun⟩

/-- One run after another knows of a generator what the other knew, if that did not fail. -/
structure Progress.Follows (q p : Progress) : Prop where
  failed : ∀ n, n ∉ p.failed → n ∉ q.failed
  rendered : ∀ n, n ∉ p.failed → q.rendered.lookup n = p.rendered.lookup n

/-- What was reported of a success is reported again: a success with the same files, which have the
same contents and so the same sizes and digests, and none of which is written. -/
def Result.RepeatedBy (first again : Result) : Prop :=
  first.ok = true → again.ok = true ∧ again.files = first.files.map Written.unchanged

/-! ## One turn -/

theorem stepUnder_generator (s : Setting) (c : Context) (p : Progress) (g : Generator) :
    (s.stepUnder c p g).1.generator = g.name := by
  rcases stepUnder_cases s c p g with ⟨d, -, -, h⟩ | ⟨-, cause, -, h⟩ |
    ⟨-, tree, files, cause, disk, -, -, h⟩ <;> rw [h] <;> rfl

theorem mem_failed_stepUnder (s : Setting) (c : Context) (p : Progress) (g : Generator)
    (n : String) : n ∈ (s.stepUnder c p g).2.failed ↔
      n ∈ p.failed ∨ (n = g.name ∧ (s.stepUnder c p g).1.ok = false) := by
  rcases stepUnder_cases s c p g with ⟨d, -, -, h⟩ | ⟨-, cause, -, h⟩ |
    ⟨-, tree, files, cause, disk, -, -, h⟩
  · simp [h, failWith, Result.ok, or_comm]
  · simp [h, failWith, Result.ok, or_comm]
  · cases cause <;> simp [h, Result.ok, or_comm]

theorem lookup_rendered_stepUnder (s : Setting) (c : Context) (p : Progress) (g : Generator)
    {n : String} (hn : n ≠ g.name) :
    (s.stepUnder c p g).2.rendered.lookup n = p.rendered.lookup n := by
  have hne : (n == g.name) = false := by simpa using hn
  rcases stepUnder_cases s c p g with ⟨d, -, -, h⟩ | ⟨-, cause, -, h⟩ |
    ⟨-, tree, files, cause, disk, -, -, h⟩ <;>
    simp [h, failWith, List.lookup_cons, hne]

theorem renderUnder_milder {s : Setting} {c c' : Context} (hc : c'.Milder c) {g : Generator}
    {r : Request} {tree : Tree} (h : s.renderUnder c g r = .ok tree) :
    s.renderUnder c' g r = .ok tree := by
  unfold Setting.renderUnder Setting.render at h ⊢
  split at h
  next => cases h
  next hlive =>
    have hlive' : ¬ c'.beforeRender g.name = true := fun hcancel => hlive (hc.render _ hcancel)
    rw [if_neg hlive']
    exact h

/-- A tree that was written to its end was not told to stop. -/
theorem writeUntil_unstopped {stop : String → Bool} {dir : String} {d d' : Disk} {tree : Tree}
    {files : List Written} (h : writeUntil stop dir d tree = (files, none, d')) :
    ∀ f ∈ tree, stop f.1 = false := by
  rw [writeUntil_eq] at h
  have hcause := congrArg (·.2.1) h
  simp only [Option.or_eq_none_iff, Option.map_eq_none_iff, List.head?_eq_none_iff] at hcause
  intro f hf
  rw [← List.takeWhile_append_dropWhile (p := (!stop ·.1)) (l := tree), hcause.2,
    List.append_nil] at hf
  simpa using List.mem_takeWhile_imp hf

theorem writeUntil_not_skipped {stop : String → Bool} {dir : String} {d d' : Disk} {tree : Tree}
    {files : List Written} {cause : Option Cause}
    (h : writeUntil stop dir d tree = (files, cause, d')) (dependency : String) :
    cause ≠ some (.skipped dependency) := by
  induction tree generalizing d files with
  | nil =>
    cases h
    exact (Option.some_ne_none _).symm
  | cons f tree ih =>
    obtain ⟨path, fresh⟩ := f
    rw [writeUntil] at h
    split at h
    · cases h
      exact fun heq => by cases heq
    · split at h
      · cases h
        exact fun heq => by cases heq
      · cases h
        exact ih rfl

/-- A generator is skipped for a dependency that failed. -/
theorem stepUnder_skipped {s : Setting} {c : Context} {p : Progress} {g : Generator}
    (h : (s.stepUnder c p g).1.skipped = true) : ∃ d ∈ g.dependsOn, d ∈ p.failed := by
  have hskip {r : Result} (hr : r.skipped = true) : ∃ d, r.cause = some (.skipped d) := by
    unfold Result.skipped at hr
    split at hr
    next d hd => exact ⟨d, hd⟩
    next => cases hr
  obtain ⟨e, he⟩ := hskip h
  rcases stepUnder_cases s c p g with ⟨d, hd, hf, -⟩ | ⟨-, cause, herror, hstep⟩ |
    ⟨-, tree, files, cause, disk, -, hwrite, hstep⟩
  · exact ⟨d, hd, hf⟩
  · rw [hstep] at he
    exact absurd (Option.some.inj he) (render_skipped herror)
  · rw [hstep] at he
    exact absurd he (writeUntil_not_skipped hwrite e)

/-- What a generator that succeeds has done. -/
structure Succeeded (s : Setting) (c : Context) (p : Progress) (g : Generator) (d d' : Disk)
    (tree : Tree) : Prop where
  ready : ∀ n ∈ g.dependsOn, n ∉ p.failed
  render : s.renderUnder c g (s.request p g) = .ok tree
  unstopped : ∀ f ∈ tree.sorted, c.beforeFile g.name f.1 = false
  rendered : (s.stepUnder c p g).2.rendered.lookup g.name = some tree
  files : List.Forall₂ (Output.Finished (s.request p g).outputDir d d') tree.sorted
    (s.stepUnder c p g).1.files

theorem TurnWrites.succeeded {s : Setting} {c : Context} {p : Progress} {g : Generator}
    {d d' : Disk} (h : TurnWrites s c p g d d' (s.stepUnder c p g).1)
    (hok : (s.stepUnder c p g).1.ok = true) : ∃ tree, Succeeded s c p g d d' tree := by
  have hcause : (s.stepUnder c p g).1.cause = none := Option.isNone_iff_eq_none.mp hok
  rcases stepUnder_cases s c p g with ⟨_, -, -, hstep⟩ | ⟨-, cause, -, hstep⟩ |
    ⟨hready, tree, files, cause, disk, hrender, hwrite, hstep⟩
  · rw [hstep] at hcause
    cases hcause
  · rw [hstep] at hcause
    cases hcause
  obtain rfl : cause = none := by rw [hstep] at hcause; exact hcause
  refine ⟨tree, hready, hrender, writeUntil_unstopped hwrite, by simp [hstep], ?_⟩
  cases h with
  | nothing _ cause _ => exact absurd hcause cause
  | @tree tree' done rest _ rendered order written =>
    cases hrender.symm.trans rendered
    rcases written.stop with ⟨-, rfl⟩ | ⟨f, rest', -, ⟨-, hstop⟩ | ⟨e, hstop, -⟩⟩
    · rw [order, List.append_nil]
      exact written.files
    · cases hcause.symm.trans hstop
    · cases hcause.symm.trans hstop

/-- Writing a tree again, with nothing to stop it, comes to its end and writes nothing. -/
theorem WrittenUpTo.again {dir : String} {stop : String → Bool} {disk after after' : Disk}
    {files files' : List Written} {cause : Option Cause} {done rest : Tree}
    (h : WrittenUpTo dir stop after after' files' cause done rest)
    (hfirst : List.Forall₂ (Output.Finished dir disk after) (done ++ rest) files)
    (hvacant : ∀ path, isSafePath path = true → disk.get? (placeOf dir path) = none)
    (hstop : ∀ f ∈ done ++ rest, stop f.1 = false) (hd : after'.Sound) :
    cause = none ∧ files' = files.map Written.unchanged := by
  rcases h.stop with ⟨hcause, rfl⟩ | ⟨f, rest', rfl, hend⟩
  · rw [List.append_nil] at hfirst
    exact ⟨hcause, Output.forall₂_again hfirst (fun f _ => hvacant f.1) h.files⟩
  · exfalso
    have hmem : f ∈ done ++ f :: rest' := List.mem_append_right done (.head _)
    rcases hend with ⟨hstopped, -⟩ | ⟨e, -, herror⟩
    · rw [hstop f hmem] at hstopped
      cases hstopped
    · -- the file is still as the first run left it, so it can be written
      obtain ⟨w, -, hw⟩ := exists_of_mem_left hfirst hmem
      have hsame := h.untouched f (.head _) hw.safe
      cases herror.symm.trans (hw.writable (hvacant f.1 hw.safe) hd hsame)

namespace Progress.Follows

variable {s : Setting} {c c' : Context} {p q : Progress} {g : Generator} {disk after after' : Disk}

theorem request (h : q.Follows p) (hready : ∀ d ∈ g.dependsOn, d ∉ p.failed) :
    s.request q g = s.request p g := by
  have hdeps : g.dependsOn.map (fun d => (d, (q.rendered.lookup d).getD [])) =
      g.dependsOn.map fun d => (d, (p.rendered.lookup d).getD []) := by
    refine List.map_congr_left fun d hd => ?_
    rw [h.rendered d (hready d hd)]
  simp only [Setting.request, hdeps]

/-- A generator that succeeded renders the same again. -/
theorem render (h : q.Follows p) (hc : c'.Milder c) {tree : Tree}
    (hfirst : Succeeded s c p g disk after tree) :
    s.renderUnder c' g (s.request q g) = .ok tree :=
  h.request hfirst.ready ▸ renderUnder_milder hc hfirst.render

/-- A generator that succeeded has its turn again: of the files that it finds none is written. -/
theorem turn (h : q.Follows p) (hc : c'.Milder c) (hg : IsName g.name)
    (hvacant : disk.Vacant (locationOf s.root)) (hd : after'.Sound) {tree : Tree}
    (hfirst : Succeeded s c p g disk after tree)
    (hagain : TurnWrites s c' q g after after' (s.stepUnder c' q g).1) :
    (s.stepUnder c' q g).1.ok = true ∧
      (s.stepUnder c' q g).1.files = (s.stepUnder c p g).1.files.map Written.unchanged := by
  have hrender : s.renderUnder c' g (s.request q g) = .ok tree := h.render hc hfirst
  cases hagain with
  | nothing _ _ unrendered =>
    rcases unrendered with hskipped | hnone
    · obtain ⟨d, hd, hf⟩ := stepUnder_skipped hskipped
      exact absurd hf (h.failed d (hfirst.ready d hd))
    · exact absurd hrender (hnone tree)
  | @tree tree' done rest _ rendered order written =>
    cases hrender.symm.trans rendered
    rw [h.request hfirst.ready] at written
    have hnew : ∀ path, isSafePath path = true →
        disk.get? (placeOf (s.request p g).outputDir path) = none := by
      intro path hsafe
      refine hvacant g.name hg _ ?_
      rw [Output.placeOf_eq hsafe, locationOf_outputDir hg]
      exact List.prefix_append _ _
    have hstop : ∀ f ∈ done ++ rest, c'.beforeFile g.name f.1 = false := by
      intro f hf
      have hlive := hfirst.unstopped f (order ▸ hf)
      exact Bool.eq_false_iff.mpr fun hcancel => by simp [hc.file _ _ hcancel] at hlive
    obtain ⟨hcause, hfiles⟩ := written.again (order ▸ hfirst.files) hnew hstop hd
    exact ⟨Option.isNone_iff_eq_none.mpr hcause, hfiles⟩

/-- One turn in both runs. -/
theorem step (h : q.Follows p) (hc : c'.Milder c) (hg : IsName g.name)
    (hvacant : disk.Vacant (locationOf s.root)) (hd : after'.Sound)
    (hfirst : TurnWrites s c p g disk after (s.stepUnder c p g).1)
    (hagain : TurnWrites s c' q g after after' (s.stepUnder c' q g).1) :
    (s.stepUnder c' q g).2.Follows (s.stepUnder c p g).2 ∧
      (s.stepUnder c p g).1.RepeatedBy (s.stepUnder c' q g).1 := by
  have hturn (hok : (s.stepUnder c p g).1.ok = true) : ∃ tree,
      Succeeded s c p g disk after tree ∧ Succeeded s c' q g after after' tree := by
    obtain ⟨tree, htree⟩ := hfirst.succeeded hok
    obtain ⟨tree', htree'⟩ := hagain.succeeded (h.turn hc hg hvacant hd htree hagain).1
    cases (h.render hc htree).symm.trans htree'.render
    exact ⟨tree, htree, htree'⟩
  have hresult : (s.stepUnder c p g).1.RepeatedBy (s.stepUnder c' q g).1 := by
    intro hok
    obtain ⟨tree, htree, -⟩ := hturn hok
    exact h.turn hc hg hvacant hd htree hagain
  refine ⟨⟨fun n hn => ?_, fun n hn => ?_⟩, hresult⟩
  · rw [mem_failed_stepUnder, not_or] at hn ⊢
    refine ⟨h.failed n hn.1, fun ⟨hname, hfailed⟩ => ?_⟩
    have hok : (s.stepUnder c p g).1.ok = true := by simpa [hname] using hn.2
    rw [(hresult hok).1] at hfailed
    cases hfailed
  · rw [mem_failed_stepUnder, not_or] at hn
    by_cases hname : n = g.name
    · have hok : (s.stepUnder c p g).1.ok = true := by simpa [hname] using hn.2
      obtain ⟨tree, htree, htree'⟩ := hturn hok
      rw [hname, htree.rendered, htree'.rendered]
    · rw [lookup_rendered_stepUnder s c' q g hname, lookup_rendered_stepUnder s c p g hname]
      exact h.rendered n hn.1

/-- Both runs to their end, turn by turn. -/
theorem turns {gs : List Generator} (h : q.Follows p) (hc : c'.Milder c)
    (hg : ∀ g ∈ gs, IsName g.name) (hvacant : disk.Vacant (locationOf s.root)) (hd : after'.Sound)
    (hfirst : ∀ t ∈ s.turnsUnder c p gs,
      TurnWrites s c t.before t.generator disk after (s.resultUnder c t))
    (hagain : ∀ t ∈ s.turnsUnder c' q gs,
      TurnWrites s c' t.before t.generator after after' (s.resultUnder c' t)) :
    List.Forall₂ (fun u t => u.generator = t.generator ∧
        (s.resultUnder c t).RepeatedBy (s.resultUnder c' u))
      (s.turnsUnder c' q gs) (s.turnsUnder c p gs) := by
  induction gs generalizing p q with
  | nil => exact .nil
  | cons g gs ih =>
    obtain ⟨hname, hg⟩ := List.forall_mem_cons.mp hg
    obtain ⟨hnow, hlater⟩ := List.forall_mem_cons.mp hfirst
    obtain ⟨hnow', hlater'⟩ := List.forall_mem_cons.mp hagain
    obtain ⟨hfollows, hresult⟩ := h.step hc hname hvacant hd hnow hnow'
    exact .cons ⟨rfl, hresult⟩ (ih hfollows hg hlater hlater')

end Progress.Follows

/-! ## Runs -/

/-- Where no file of a generator changes, nothing changes at all. -/
theorem Setting.Confines.undisturbed {s : Setting} {c : Context} {gens : List Generator}
    {disk after : Disk} {turns : List Turn} {report : Report}
    (h : s.Confines c gens disk after turns report) (hn : (gens.map (·.name)).Nodup) {t : Turn}
    (ht : t ∈ turns) (hsame : ∀ w ∈ (s.resultUnder c t).files, w.changed = false) {l : Location}
    (hl : locationOf s.root ++ [t.generator.name] <+: l) : after.get? l = disk.get? l := by
  by_contra hchange
  obtain ⟨k, ⟨u, hu, hwrites⟩, hplace⟩ := h.changes l hchange
  have hup : l <+: k := by
    rcases hplace with rfl | ⟨hup, -, -⟩
    · exact List.prefix_refl _
    · exact hup
  have hnames : t.generator.name = u.generator.name := by
    have hboth := List.prefix_of_prefix_length_le (hl.trans hup) (h.below u hu k hwrites) (by simp)
    simpa using hboth.eq_of_length (by simp)
  have hnodup : (turns.map (·.generator.name)).Nodup := by
    rw [← h.generators, List.map_map] at hn
    exact hn
  obtain rfl := List.inj_on_of_nodup_map hnodup ht hu hnames
  obtain ⟨-, -, -, w, hw, hchanged, -⟩ := hwrites
  rw [hsame w hw] at hchanged
  cases hchanged

/-- What was reported of a generator is reported again, and if it succeeded then all that is in its
directory stays as it was. -/
structure Repeats (root : String) (before after : Disk) (again first : Result) : Prop where
  generator : again.generator = first.generator
  result : first.RepeatedBy again
  disk : first.ok = true →
    ∀ l, locationOf (Disk.join [root, first.generator]) <+: l → after.get? l = before.get? l

/-- Two runs one after the other, result by result. -/
theorem Setting.Confines.repeats {s : Setting} {c c' : Context} {gens : List Generator}
    {disk after after' : Disk} {turns turns' : List Turn} {report report' : Report}
    (hfirst : s.Confines c gens disk after turns report)
    (hagain : s.Confines c' gens after after' turns' report')
    (hn : (gens.map (·.name)).Nodup) (hg : ∀ g ∈ gens, IsName g.name)
    (hturns : List.Forall₂ (fun u t => u.generator = t.generator ∧
      (s.resultUnder c t).RepeatedBy (s.resultUnder c' u)) turns' turns) :
    List.Forall₂ (Repeats s.root after after') report' report := by
  rw [hfirst.results, hagain.results, List.forall₂_map_left_iff, List.forall₂_map_right_iff]
  refine forall₂_imp_of_mem hturns fun u hu t ht ⟨hsame, hresult⟩ => ?_
  have hgenerator : (s.resultUnder c t).generator = t.generator.name := stepUnder_generator ..
  refine ⟨?_, hresult, fun hok l hl => ?_⟩
  · rw [hgenerator, ← hsame]
    exact stepUnder_generator ..
  · have hmem : t.generator ∈ gens := by
      rw [← hfirst.generators]
      exact List.mem_map_of_mem ht
    have hname := hg _ hmem
    rw [hgenerator, Output.locationOf_join hname.ofNames, Disk.segments_of_slash hname.slash,
      ← hsame] at hl
    refine hagain.undisturbed hn hu (fun w hw => ?_) hl
    rw [(hresult hok).2] at hw
    obtain ⟨v, -, rfl⟩ := List.mem_map.mp hw
    rfl

section

variable {r : Registry} (hr : r.names.Nodup) (hn : ∀ g ∈ r.generators, IsName g.name)
  (hk : ∀ g ∈ r.generators, Keyed g) {disk : Disk} (hd : disk.Sound) {root : String}
  (hvacant : disk.Vacant (locationOf root))
include hr hn hk hd hvacant

theorem runUnder_again {c c' : Context} (hc : c'.Milder c) {app : Model.Application}
    {enabled : List String} {requested : Requested} {report : Report} {after : Disk}
    (hrun : r.runUnder c disk app root enabled requested = .ok (report, after)) :
    ∃ again after', r.runUnder c' after app root enabled requested = .ok (again, after') ∧
      List.Forall₂ (Repeats root after after') again report := by
  obtain ⟨gens, options, hgens, hoptions, hrun⟩ := runUnder_eq_ok.mp hrun
  have hsub := selected_sublist hgens
  have hnodup : (gens.map (·.name)).Nodup := hr.sublist (hsub.map _)
  have hnamed : ∀ g ∈ gens, IsName g.name := fun g hg => hn g (hsub.subset hg)
  have hkeyed : ∀ g ∈ gens, Keyed g := fun g hg => hk g (hsub.subset hg)
  have hfirst := Setting.confines_turnsUnder ⟨app, root, options, false⟩ c hnodup hnamed hkeyed hd
  rw [Setting.runEachUnder_eq] at hrun
  obtain ⟨rfl, rfl⟩ := Prod.mk.inj hrun
  have hsound := (Setting.afterUnder_changes (s := ⟨app, root, options, false⟩) (c := c)
    (p := ⟨[], [], disk⟩) hkeyed hd).2.2
  have hagain := Setting.confines_turnsUnder ⟨app, root, options, false⟩ c' hnodup hnamed hkeyed
    hsound
  have hsound' := (Setting.afterUnder_changes (s := ⟨app, root, options, false⟩) (c := c')
    (p := ⟨[], [], _⟩) hkeyed hsound).2.2
  refine ⟨_, _, runUnder_eq_ok.mpr ⟨gens, options, hgens, hoptions, Setting.runEachUnder_eq ..⟩,
    hfirst.repeats hagain hnodup hnamed ?_⟩
  exact Progress.Follows.turns ⟨fun _ h => h, fun _ _ => rfl⟩ hc hnamed hvacant hsound'
    hfirst.writes hagain.writes

/-- After a run into an empty directory the same run takes place once more, and repeats all that
succeeded. Runs may be cancelled at any time, if only the second goes on wherever the first did. -/
theorem rerun_unchanged (app : Model.Application) (enabled : List String) (requested : Requested) :
    (∀ cancelled report after,
      r.run disk app root enabled requested cancelled = .ok (report, after) →
        ∃ again after', r.run after app root enabled requested cancelled = .ok (again, after') ∧
          List.Forall₂ (Repeats root after after') again report) ∧
    ∀ c c' : Context, c'.Milder c → ∀ report after,
      r.runUnder c disk app root enabled requested = .ok (report, after) →
        ∃ again after', r.runUnder c' after app root enabled requested = .ok (again, after') ∧
          List.Forall₂ (Repeats root after after') again report := by
  refine ⟨fun cancelled report after hrun => ?_, fun c c' hc report after hrun =>
    runUnder_again hr hn hk hd hvacant hc hrun⟩
  rw [run_eq_runUnder] at hrun
  rw [run_eq_runUnder]
  exact runUnder_again hr hn hk hd hvacant (Context.Milder.refl _) hrun

end

/-! ## A run that was cancelled and is made up for -/

/-- A generator of one file, which has a region and lines of all kinds. -/
def notes : Generator :=
  ⟨"notes", [], fun _ => .tree [("plan", "first\r\n" ++ Output.region "#" "todo" "more" ++ "last")]⟩

def late : Generator := ⟨"late", [], fun _ => .tree [("index", "")]⟩

theorem rerun_unchanged_notes : ∃ report after,
    Registry.runUnder ⟨[notes, late]⟩ ⟨(· == "late"), fun _ _ => false⟩ .empty
      (Build.build ⟨[]⟩ "") "out" [] ⟨none, none, none⟩ = .ok (report, after) ∧
    report.map (·.ok) = [true, false] ∧
    ∃ again after', Registry.runUnder ⟨[notes, late]⟩ (.always false) after
        (Build.build ⟨[]⟩ "") "out" [] ⟨none, none, none⟩ = .ok (again, after') ∧
      List.Forall₂ (Repeats "out" after after') again report := by
  have hnamed : ∀ g ∈ [notes, late], IsName g.name := by
    intro g hg
    rcases List.mem_pair.mp hg with rfl | rfl <;> exact ⟨by decide, by decide, by decide, by decide⟩
  have hkeyed : ∀ g ∈ [notes, late], Keyed g := by
    intro g hg request files h
    rcases List.mem_pair.mp hg with rfl | rfl <;>
    · cases h
      exact List.nodup_singleton _
  obtain ⟨report, after, hrun, hok⟩ : ∃ report after,
      Registry.runUnder ⟨[notes, late]⟩ ⟨(· == "late"), fun _ _ => false⟩ .empty
        (Build.build ⟨[]⟩ "") "out" [] ⟨none, none, none⟩ = .ok (report, after) ∧
      report.map (·.ok) = [true, false] := ⟨_, _, rfl, by decide +kernel⟩
  obtain ⟨-, hagain⟩ := rerun_unchanged (r := ⟨[notes, late]⟩) (by decide) hnamed hkeyed
    Disk.sound_empty (Disk.vacant_empty (locationOf "out")) (Build.build ⟨[]⟩ "") []
    ⟨none, none, none⟩
  exact ⟨report, after, hrun, hok, hagain _ _ (Context.milder_never _) report after hrun⟩

end Generator

end Scaffold
