import Scaffold.Proofs.Generator.Isolation
import Scaffold.Proofs.Output.Frame

/-! # What a run writes, and when it stops

A run can be cancelled at any time, and it looks whether it was before a generator renders and
before a file is written. Whenever that happens, and whatever else goes wrong, a run writes files of
the trees that were rendered, each in the directory of its generator, and nothing else. A tree that
cannot be written to its end is written up to the file that stopped it. -/
namespace Scaffold.Generator

open Scaffold.Disk (IsName Retains ChangesOnly)
open Scaffold.Output (Tree Written locationOf placeOf isSafePath writeFile writeFiles Finished
  FinishedUpTo ChangedPlace)

/-! ## Runs that can be cancelled at any time -/

/-- What a run finds each time when it looks whether it is cancelled: before a generator renders,
and before a generator's file is written. -/
structure Context where
  beforeRender : String → Bool
  beforeFile : String → String → Bool

/-- A run is cancelled before it begins, or never. -/
def Context.always (cancelled : Bool) : Context := ⟨fun _ => cancelled, fun _ _ => cancelled⟩

/-- Write files in order until told to stop: those that were finished, what ended the work, and the
disk. -/
def writeUntil (stop : String → Bool) (dir : String) :
    Disk → Tree → List Written × Option Cause × Disk
  | disk, [] => ([], none, disk)
  | disk, (path, fresh) :: rest =>
    if stop path then ([], some .cancelled, disk)
    else match writeFile disk dir path fresh with
      | .error e => ([], some (.unwritable e), disk)
      | .ok (w, disk) =>
        let (files, cause, disk) := writeUntil stop dir disk rest
        (w :: files, cause, disk)

def Setting.renderUnder (s : Setting) (c : Context) (g : Generator) (r : Request) :
    Except Cause Tree :=
  { s with cancelled := c.beforeRender g.name }.render g r

def Setting.stepUnder (s : Setting) (c : Context) (p : Progress) (g : Generator) :
    Result × Progress :=
  match g.dependsOn.find? p.failed.contains with
  | some d => failWith p g (.skipped d)
  | none =>
    let request := s.request p g
    match s.renderUnder c g request with
    | .error cause => failWith p g cause
    | .ok tree =>
      let (files, cause, disk) :=
        writeUntil (c.beforeFile g.name) request.outputDir p.disk tree.sorted
      let failed := if cause.isSome then g.name :: p.failed else p.failed
      (⟨g.name, files, cause⟩, ⟨(g.name, tree) :: p.rendered, failed, disk⟩)

def Setting.runEachUnder (s : Setting) (c : Context) :
    Progress → List Generator → Report × Disk
  | p, [] => ([], p.disk)
  | p, g :: gs =>
    let (result, p) := s.stepUnder c p g
    let (rest, disk) := s.runEachUnder c p gs
    (result :: rest, disk)

/-- A run that looks at a context. -/
def Registry.runUnder (r : Registry) (c : Context) (disk : Disk) (app : Model.Application)
    (root : String) (enabled : List String) (requested : Requested) :
    Except StartError (Report × Disk) := do
  let generators ← (r.selected enabled).mapError fun n => .unknownGenerator n r.names
  let options ← (resolve requested app).mapError .options
  .ok (Setting.runEachUnder ⟨app, root, options, false⟩ c ⟨[], [], disk⟩ generators)

/-! ## Runs that are cancelled before they begin, or never -/

theorem writeUntil_never (dir : String) (d : Disk) (tree : Tree) :
    writeUntil (fun _ => false) dir d tree = ((writeFiles dir d tree).files,
      (writeFiles dir d tree).error.map .unwritable, (writeFiles dir d tree).disk) := by
  induction tree generalizing d with
  | nil => rfl
  | cons f tree ih =>
    obtain ⟨path, fresh⟩ := f
    cases hw : writeFile d dir path fresh with
    | error e => simp [writeUntil, writeFiles, hw]
    | ok r => simp [writeUntil, writeFiles, hw, ih]

theorem stepUnder_always (s : Setting) (cancelled : Bool) (p : Progress) (g : Generator) :
    s.stepUnder (.always cancelled) p g = { s with cancelled := cancelled }.step p g := by
  have hrequest : { s with cancelled := cancelled }.request p g = s.request p g := rfl
  have hrender : s.renderUnder (.always cancelled) g (s.request p g) =
      { s with cancelled := cancelled }.render g (s.request p g) := rfl
  simp only [Setting.stepUnder, Setting.step, hrequest, hrender]
  cases g.dependsOn.find? p.failed.contains with
  | some d => rfl
  | none =>
    cases cancelled with
    | true => rfl
    | false =>
      cases Setting.render { s with cancelled := false } g (s.request p g) with
      | error cause => rfl
      | ok tree =>
        simp only [Context.always, writeUntil_never, Output.writeTree]
        cases (writeFiles (s.request p g).outputDir p.disk tree.sorted).error <;> rfl

theorem run_eq_runUnder (r : Registry) (disk : Disk) (app : Model.Application) (root : String)
    (enabled : List String) (requested : Requested) (cancelled : Bool) :
    r.run disk app root enabled requested cancelled =
      r.runUnder (.always cancelled) disk app root enabled requested := by
  have heach (options : Options) (p : Progress) (gs : List Generator) :
      Setting.runEachUnder ⟨app, root, options, false⟩ (.always cancelled) p gs =
        Setting.runEach ⟨app, root, options, cancelled⟩ p gs := by
    induction gs generalizing p with
    | nil => rfl
    | cons g gs ih => simp only [Setting.runEachUnder, Setting.runEach, stepUnder_always, ih]
  simp only [Registry.run, Registry.runUnder, heach]

/-! ## One tree -/

/-- The files of a tree before the one that ended the work are finished, and from there on all is
as it was. -/
structure WrittenUpTo (dir : String) (stop : String → Bool) (d d' : Disk) (files : List Written)
    (cause : Option Cause) (done rest : Tree) : Prop where
  files : List.Forall₂ (Finished dir d d') done files
  untouched : ∀ f ∈ rest, isSafePath f.1 = true →
    d'.get? (placeOf dir f.1) = d.get? (placeOf dir f.1)
  stop : (cause = none ∧ rest = []) ∨ ∃ f rest', rest = f :: rest' ∧
    ((stop f.1 = true ∧ cause = some .cancelled) ∨
      ∃ e, cause = some (.unwritable e) ∧ writeFile d' dir f.1 f.2 = .error e)

/-- Being told to stop is writing the files before. -/
theorem writeUntil_eq (stop : String → Bool) (dir : String) (d : Disk) (tree : Tree) :
    writeUntil stop dir d tree =
      let out := writeFiles dir d (tree.takeWhile (!stop ·.1))
      (out.files, (out.error.map .unwritable).or
        ((tree.dropWhile (!stop ·.1)).head?.map fun _ => .cancelled), out.disk) := by
  induction tree generalizing d with
  | nil => rfl
  | cons f tree ih =>
    obtain ⟨path, fresh⟩ := f
    cases hstop : stop path with
    | true => simp [writeUntil, writeFiles, hstop]
    | false =>
      cases hw : writeFile d dir path fresh with
      | error e => simp [writeUntil, writeFiles, hstop, hw]
      | ok r => simp [writeUntil, writeFiles, hstop, hw, ih]

theorem writeUntil_written {stop : String → Bool} {dir : String} {d d' : Disk} {tree : Tree}
    {files : List Written} {cause : Option Cause} (hd : d.Sound)
    (hs : tree.Pairwise fun f g => f.1 ≤ g.1) (hn : (tree.map (·.1)).Nodup)
    (h : writeUntil stop dir d tree = (files, cause, d')) :
    (∃ done rest, tree = done ++ rest ∧ WrittenUpTo dir stop d d' files cause done rest) ∧
      ChangesOnly (ChangedPlace dir files) d d' ∧ Retains d d' ∧ d'.Sound := by
  rw [writeUntil_eq] at h
  set pre := tree.takeWhile (!stop ·.1)
  set post := tree.dropWhile (!stop ·.1) with hpost
  have htree : tree = pre ++ post := List.takeWhile_append_dropWhile.symm
  have hnpre : (pre.map (·.1)).Nodup := by
    rw [htree, List.map_append, List.nodup_append] at hn
    exact hn.1
  obtain ⟨done, rest, hup⟩ := Output.writeFiles_finished dir hd hnpre
  have hsplit : tree = done ++ (rest ++ post) := by rw [htree, hup.order, List.append_assoc]
  cases h
  refine ⟨⟨done, rest ++ post, hsplit, hup.files, fun f hf hsafe => ?_, ?_⟩, hup.frame,
    hup.retains, hup.sound⟩
  · rw [hsplit] at hs hn
    exact hup.untouched hsafe (Output.behind_of_append hs hn hf)
  · rcases hup.stop with ⟨herror, rfl⟩ | ⟨f, rest', e, rfl, herror, hwrite⟩
    · rw [herror, List.nil_append]
      cases hp : post with
      | nil => exact .inl ⟨rfl, rfl⟩
      | cons f rest' =>
        have hstop : stop f.1 = true := by
          have hhead := List.head?_dropWhile_not (!stop ·.1) tree
          rw [← hpost, hp] at hhead
          simpa using hhead
        exact .inr ⟨f, rest', rfl, .inl ⟨hstop, rfl⟩⟩
    · rw [herror]
      exact .inr ⟨f, rest' ++ post, rfl, .inr ⟨e, rfl, hwrite⟩⟩

/-- What is said of two disks holds of any others that agree with them below the directory. -/
theorem WrittenUpTo.agree {dir n : String} {base : Location} {own : String → Prop}
    {stop : String → Bool} {d d' e e' : Disk} {files : List Written} {cause : Option Cause}
    {done rest : Tree} (h : WrittenUpTo dir stop d d' files cause done rest)
    (hd : Output.Agree base own d e) (hd' : Output.Agree base own d' e')
    (hdir : locationOf dir = base ++ [n]) (hn : own n) :
    WrittenUpTo dir stop e e' files cause done rest := by
  have hbelow {path : String} (hsafe : isSafePath path = true) :
      base ++ [n] <+: placeOf dir path := by
    rw [Output.placeOf_eq hsafe, hdir]
    exact List.prefix_append _ _
  have hbefore {path : String} (hsafe : isSafePath path = true) :=
    hd.inside n hn _ (hbelow hsafe)
  have hafter {path : String} (hsafe : isSafePath path = true) :=
    hd'.inside n hn _ (hbelow hsafe)
  constructor
  case files =>
    refine h.files.imp fun f w hw => ⟨hw.path, hw.safe, ?_, ?_, ?_⟩
    · rw [Disk.text?, ← hbefore hw.safe]
      exact hw.merged
    · exact hafter hw.safe ▸ hw.stored
    · exact hbefore hw.safe ▸ hw.same
  case untouched =>
    intro f hf hsafe
    rw [← hafter hsafe, ← hbefore hsafe]
    exact h.untouched f hf hsafe
  case stop =>
    refine h.stop.imp_right ?_
    rintro ⟨f, rest', hrest, hstop | ⟨err, hcause, hwrite⟩⟩
    · exact ⟨f, rest', hrest, .inl hstop⟩
    · refine ⟨f, rest', hrest, .inr ⟨err, hcause, ?_⟩⟩
      rcases Output.writeFile_agree hd' hn hdir f.1 f.2 with ⟨err', hl, hr⟩ | ⟨w, _, _, hl, -, -⟩
      · cases hwrite.symm.trans hl
        exact hr
      · cases hwrite.symm.trans hl

/-! ## One turn -/

/-- A tree has one file for each of its paths. -/
def Keyed (g : Generator) : Prop :=
  ∀ request files, g.generate request = .tree files → (files.map (·.1)).Nodup

theorem renderUnder_keyed {s : Setting} {c : Context} {g : Generator} {r : Request} {tree : Tree}
    (hg : Keyed g) (h : s.renderUnder c g r = .ok tree) : (tree.map (·.1)).Nodup := by
  unfold Setting.renderUnder Setting.render at h
  split at h
  · cases h
  · split at h
    next files hfiles =>
      cases h
      exact hg r _ hfiles
    next =>
      cases h
      exact List.nodup_nil
    next => cases h
    next => cases h

/-- What one turn can do: be skipped, fail to render, or write the tree that was rendered. -/
theorem stepUnder_cases (s : Setting) (c : Context) (p : Progress) (g : Generator) :
    (∃ d ∈ g.dependsOn, d ∈ p.failed ∧ s.stepUnder c p g = failWith p g (.skipped d)) ∨
    ((∀ d ∈ g.dependsOn, d ∉ p.failed) ∧ ∃ cause,
      s.renderUnder c g (s.request p g) = .error cause ∧ s.stepUnder c p g = failWith p g cause) ∨
    ((∀ d ∈ g.dependsOn, d ∉ p.failed) ∧ ∃ tree files cause disk,
      s.renderUnder c g (s.request p g) = .ok tree ∧
      writeUntil (c.beforeFile g.name) (s.request p g).outputDir p.disk tree.sorted =
        (files, cause, disk) ∧
      s.stepUnder c p g = (⟨g.name, files, cause⟩, ⟨(g.name, tree) :: p.rendered,
        if cause.isSome then g.name :: p.failed else p.failed, disk⟩)) := by
  unfold Setting.stepUnder
  rcases find?_failed p g with ⟨d, hd, hfailed, hfind⟩ | ⟨hnone, hfind⟩ <;> rw [hfind]
  · exact .inl ⟨d, hd, hfailed, rfl⟩
  · cases hrender : s.renderUnder c g (s.request p g) with
    | error cause => exact .inr (.inl ⟨hnone, cause, rfl, by simp [hrender]⟩)
    | ok tree => exact .inr (.inr ⟨hnone, tree, _, _, _, rfl, rfl, by simp [hrender]⟩)

/-- What is left of a turn: nothing was written, or a tree was, as far as it goes. -/
inductive TurnWrites (s : Setting) (c : Context) (p : Progress) (g : Generator) (d d' : Disk)
    (r : Result) : Prop
  | nothing (files : r.files = []) (cause : r.cause ≠ none)
    (unrendered : r.skipped = true ∨ ∀ tree, s.renderUnder c g (s.request p g) ≠ .ok tree)
  | tree {files done rest : Tree} (ran : r.skipped = false)
    (rendered : s.renderUnder c g (s.request p g) = .ok files)
    (order : files.sorted = done ++ rest)
    (written : WrittenUpTo (s.request p g).outputDir (c.beforeFile g.name) d d' r.files r.cause
      done rest)

theorem stepUnder_writes {s : Setting} {c : Context} {p : Progress} {g : Generator}
    (hg : Keyed g) (hd : p.disk.Sound) :
    TurnWrites s c p g p.disk (s.stepUnder c p g).2.disk (s.stepUnder c p g).1 ∧
      ChangesOnly (ChangedPlace (s.request p g).outputDir (s.stepUnder c p g).1.files) p.disk
        (s.stepUnder c p g).2.disk ∧
      Retains p.disk (s.stepUnder c p g).2.disk ∧ (s.stepUnder c p g).2.disk.Sound := by
  rcases stepUnder_cases s c p g with ⟨d, -, -, hstep⟩ | ⟨-, cause, herror, hstep⟩ |
    ⟨-, tree, files, cause, disk, hrender, hwrite, hstep⟩
  · rw [hstep]
    exact ⟨.nothing rfl nofun (.inl rfl), ChangesOnly.refl _ _, Retains.refl _, hd⟩
  · rw [hstep]
    refine ⟨.nothing rfl nofun (.inr fun tree htree => ?_), ChangesOnly.refl _ _, Retains.refl _,
      hd⟩
    cases herror.symm.trans htree
  · have hnodup := Output.nodup_sorted (renderUnder_keyed hg hrender)
    obtain ⟨⟨done, rest, horder, hwritten⟩, hchanges, hretains, hsound⟩ :=
      writeUntil_written hd (Output.sorted_pairwise tree) hnodup hwrite
    rw [hstep]
    refine ⟨.tree ?_ hrender horder hwritten, hchanges, hretains, hsound⟩
    rcases hwritten.stop with ⟨rfl, -⟩ | ⟨f, rest', -, ⟨-, rfl⟩ | ⟨e, rfl, -⟩⟩ <;> rfl

/-! ## All turns -/

namespace Setting

def turnsUnder (s : Setting) (c : Context) : Progress → List Generator → List Turn
  | _, [] => []
  | p, g :: gs => ⟨p, g⟩ :: s.turnsUnder c (s.stepUnder c p g).2 gs

def afterUnder (s : Setting) (c : Context) (p : Progress) (gs : List Generator) : Progress :=
  gs.foldl (fun p g => (s.stepUnder c p g).2) p

def resultUnder (s : Setting) (c : Context) (t : Turn) : Result :=
  (s.stepUnder c t.before t.generator).1

theorem runEachUnder_eq (s : Setting) (c : Context) (p : Progress) (gs : List Generator) :
    s.runEachUnder c p gs =
      ((s.turnsUnder c p gs).map (s.resultUnder c), (s.afterUnder c p gs).disk) := by
  induction gs generalizing p with
  | nil => rfl
  | cons g gs ih =>
    rw [runEachUnder]
    simp only [ih]
    rfl

theorem map_generator_turnsUnder (s : Setting) (c : Context) (p : Progress)
    (gs : List Generator) : (s.turnsUnder c p gs).map (·.generator) = gs := by
  induction gs generalizing p with
  | nil => rfl
  | cons g gs ih => rw [turnsUnder, List.map_cons, ih]

/-- Where a generator writes in its turn: the places of the files that it changed, which are files
of its tree with safe paths. -/
def WritesTo (s : Setting) (c : Context) (t : Turn) (l : Location) : Prop :=
  (s.resultUnder c t).skipped = false ∧
    ∃ files, s.renderUnder c t.generator (s.requestAt t) = .ok files ∧
      ∃ w ∈ (s.resultUnder c t).files, w.changed = true ∧ w.path ∈ files.map (·.1) ∧
        isSafePath w.path = true ∧ l = placeOf (s.requestAt t).outputDir w.path

/-- What a generator changes in its turn are files of its tree. -/
theorem writesTo_of_changed {s : Setting} {c : Context} {t : Turn} {d d' : Disk}
    (h : TurnWrites s c t.before t.generator d d' (s.resultUnder c t)) {l : Location}
    (hl : ChangedPlace (s.requestAt t).outputDir (s.resultUnder c t).files l) :
    s.WritesTo c t l := by
  obtain ⟨w, hw, hchanged, hplace⟩ := hl
  cases h with
  | nothing files cause unrendered =>
    rw [files] at hw
    cases hw
  | @tree files done rest ran rendered order written =>
    obtain ⟨f, hf, hfw⟩ := exists_of_mem_right written.files hw
    refine ⟨ran, files, rendered, w, hw, hchanged, ?_, hfw.path ▸ hfw.safe, hplace⟩
    have hmem : f ∈ files.sorted := by
      rw [order]
      exact List.mem_append_left _ hf
    rw [hfw.path]
    exact List.mem_map_of_mem (List.mem_mergeSort.mp hmem)

/-- Turns change nothing but what generators write in them. -/
theorem afterUnder_changes {s : Setting} {c : Context} {p : Progress} {gs : List Generator}
    (hk : ∀ g ∈ gs, Keyed g) (hd : p.disk.Sound) :
    ChangesOnly (fun l => ∃ t ∈ s.turnsUnder c p gs, s.WritesTo c t l) p.disk
        (s.afterUnder c p gs).disk ∧
      Retains p.disk (s.afterUnder c p gs).disk ∧ (s.afterUnder c p gs).disk.Sound := by
  induction gs generalizing p with
  | nil => exact ⟨ChangesOnly.refl _ _, Retains.refl _, hd⟩
  | cons g gs ih =>
    obtain ⟨hg, hgs⟩ := List.forall_mem_cons.mp hk
    obtain ⟨hwrites, hchanges, hretains, hsound⟩ := stepUnder_writes (s := s) (c := c) hg hd
    obtain ⟨hlater, hretains', hsound'⟩ := ih hgs hsound
    refine ⟨(hchanges.mono ?_).trans (hlater.mono ?_) hretains hretains',
      hretains.trans hretains', hsound'⟩
    · intro l hl
      exact ⟨⟨p, g⟩, .head _, writesTo_of_changed (t := ⟨p, g⟩) hwrites hl⟩
    · rintro l ⟨t, ht, hl⟩
      exact ⟨t, .tail _ ht, hl⟩

theorem stepUnder_below {s : Setting} {c : Context} {p : Progress} {g : Generator}
    (hg : IsName g.name) (hd : p.disk.Sound) :
    Output.ChangedBelow (locationOf s.root ++ [g.name]) p.disk (s.stepUnder c p g).2.disk := by
  rcases stepUnder_cases s c p g with ⟨d, -, -, hstep⟩ | ⟨-, cause, -, hstep⟩ |
    ⟨-, tree, files, cause, disk, -, hwrite, hstep⟩
  · rw [hstep]
    exact Output.ChangedBelow.refl hd _
  · rw [hstep]
    exact Output.ChangedBelow.refl hd _
  · rw [hstep]
    rw [writeUntil_eq] at hwrite
    cases hwrite
    rw [← locationOf_outputDir hg s p]
    exact Output.writeFiles_below _ _ hd

/-- What stands below one name is left alone by the turns of others. -/
theorem afterUnder_agree {s : Setting} {c : Context} {p : Progress} {gs : List Generator}
    {n : String} (hn : n ∉ gs.map (·.name)) (hg : ∀ g ∈ gs, IsName g.name) {d : Disk}
    (h : Output.Agree (locationOf s.root) (· = n) p.disk d) :
    Output.Agree (locationOf s.root) (· = n) (s.afterUnder c p gs).disk d := by
  induction gs generalizing p with
  | nil => exact h
  | cons g gs ih =>
    obtain ⟨hname, hg⟩ := List.forall_mem_cons.mp hg
    rw [List.map_cons, List.mem_cons, not_or] at hn
    exact ih hn.2 hg (h.change (Ne.symm hn.1) (stepUnder_below hname h.left))

/-- What a turn says of its own disks holds of disks that agree with them. -/
theorem turnWrites_agree {s : Setting} {c : Context} {p : Progress} {g : Generator}
    {d d' e e' : Disk} {r : Result} (h : TurnWrites s c p g d d' r) (hg : IsName g.name)
    (hd : Output.Agree (locationOf s.root) (· = g.name) d e)
    (hd' : Output.Agree (locationOf s.root) (· = g.name) d' e') : TurnWrites s c p g e e' r := by
  cases h with
  | nothing files cause unrendered => exact .nothing files cause unrendered
  | tree ran rendered order written =>
    exact .tree ran rendered order (written.agree hd hd' (locationOf_outputDir hg s p) rfl)

/-- What a turn writes stands on the disk at the end of the run, and what it found there was on the
disk at the beginning: no other generator comes near it. -/
theorem turnsUnder_writes {s : Setting} {c : Context} {p : Progress} {gs : List Generator}
    (hn : (gs.map (·.name)).Nodup) (hg : ∀ g ∈ gs, IsName g.name) (hk : ∀ g ∈ gs, Keyed g)
    (hd : p.disk.Sound) : ∀ t ∈ s.turnsUnder c p gs,
      TurnWrites s c t.before t.generator p.disk (s.afterUnder c p gs).disk
        (s.resultUnder c t) := by
  induction gs generalizing p with
  | nil => exact List.forall_mem_nil _
  | cons g gs ih =>
    obtain ⟨hnew, hn⟩ := List.nodup_cons.mp hn
    obtain ⟨hname, hg⟩ := List.forall_mem_cons.mp hg
    obtain ⟨hkeyed, hk⟩ := List.forall_mem_cons.mp hk
    obtain ⟨hwrites, -, -, hsound⟩ := stepUnder_writes (s := s) (c := c) hkeyed hd
    refine List.forall_mem_cons.mpr ⟨?_, fun t ht => ?_⟩
    · have hafter : Output.Agree (locationOf s.root) (· = g.name) (s.stepUnder c p g).2.disk
          (s.afterUnder c (s.stepUnder c p g).2 gs).disk :=
        (afterUnder_agree hnew hg (Output.Agree.refl hsound _ _)).symm
      exact turnWrites_agree hwrites hname (Output.Agree.refl hd _ _) hafter
    · have hmem : t.generator ∈ gs := by
        rw [← s.map_generator_turnsUnder c (s.stepUnder c p g).2 gs]
        exact List.mem_map_of_mem ht
      have hne : g.name ≠ t.generator.name := fun heq =>
        hnew (List.mem_map.mpr ⟨t.generator, hmem, heq.symm⟩)
      have hbefore : Output.Agree (locationOf s.root) (· = t.generator.name)
          (s.stepUnder c p g).2.disk p.disk :=
        (Output.Agree.refl hd _ _).change hne (stepUnder_below hname hd)
      have hlater := ih hn hg hk hsound t ht
      exact turnWrites_agree hlater (hg _ hmem) hbefore
        (Output.Agree.refl (afterUnder_changes hk hsound).2.2 _ _)

/-- A run writes files of the trees that were rendered and nothing else: it changes no other place,
takes nothing away, and of each generator it writes the tree up to the file that stopped it. -/
structure Confines (s : Setting) (c : Context) (gens : List Generator) (disk after : Disk)
    (turns : List Turn) (report : Report) : Prop where
  generators : turns.map (·.generator) = gens
  results : report = turns.map (s.resultUnder c)
  changes : ChangesOnly (fun l => ∃ t ∈ turns, s.WritesTo c t l) disk after
  retains : Retains disk after
  below : ∀ t ∈ turns, ∀ l, s.WritesTo c t l → locationOf s.root ++ [t.generator.name] <+: l
  writes : ∀ t ∈ turns, TurnWrites s c t.before t.generator disk after (s.resultUnder c t)

theorem confines_turnsUnder (s : Setting) (c : Context) {disk : Disk} {gens : List Generator}
    (hn : (gens.map (·.name)).Nodup) (hg : ∀ g ∈ gens, IsName g.name) (hk : ∀ g ∈ gens, Keyed g)
    (hd : disk.Sound) :
    s.Confines c gens disk (s.afterUnder c ⟨[], [], disk⟩ gens).disk
      (s.turnsUnder c ⟨[], [], disk⟩ gens)
      ((s.turnsUnder c ⟨[], [], disk⟩ gens).map (s.resultUnder c)) := by
  have hchanges := afterUnder_changes (s := s) (c := c) (p := ⟨[], [], disk⟩) hk hd
  constructor
  case generators => exact s.map_generator_turnsUnder c _ gens
  case results => rfl
  case changes => exact hchanges.1
  case retains => exact hchanges.2.1
  case below =>
    rintro t ht l ⟨-, files, -, w, -, -, -, hsafe, rfl⟩
    have hmem : t.generator ∈ gens := by
      rw [← s.map_generator_turnsUnder c ⟨[], [], disk⟩ gens]
      exact List.mem_map_of_mem ht
    rw [Output.placeOf_eq hsafe, Setting.requestAt, locationOf_outputDir (hg _ hmem)]
    exact List.prefix_append _ _
  case writes => exact turnsUnder_writes hn hg hk hd

end Setting

/-! ## Runs -/

theorem selected_sublist {r : Registry} {enabled : List String} {gens : List Generator}
    (h : r.selected enabled = .ok gens) : gens.Sublist r.generators := by
  unfold Registry.selected at h
  split at h
  next =>
    cases h
    exact List.Sublist.refl _
  next =>
    split at h
    next => cases h
    next =>
      cases h
      exact List.filter_sublist

/-- A run takes place exactly when its generators and options are accepted. -/
theorem runUnder_eq_ok {r : Registry} {c : Context} {disk : Disk} {app : Model.Application}
    {root : String} {enabled : List String} {requested : Requested} {out : Report × Disk} :
    r.runUnder c disk app root enabled requested = .ok out ↔
      ∃ gens options, r.selected enabled = .ok gens ∧ resolve requested app = .ok options ∧
        Setting.runEachUnder ⟨app, root, options, false⟩ c ⟨[], [], disk⟩ gens = out := by
  simp only [Registry.runUnder, bind_eq_ok, mapError_eq_ok, Except.ok.injEq]
  constructor
  · rintro ⟨gens, hgens, options, hoptions, hout⟩
    exact ⟨gens, options, hgens, hoptions, hout⟩
  · rintro ⟨gens, options, hgens, hoptions, hout⟩
    exact ⟨gens, hgens, options, hoptions, hout⟩

/-- The disk as a run leaves it. A run that does not take place has none to show: the disk stays. -/
def leaves (disk : Disk) : Except StartError (Report × Disk) → Disk
  | .error _ => disk
  | .ok (_, after) => after

/-- Whenever a run is cancelled, and whatever generators render and whatever is on the disk: a run
that does not take place has looked at no disk and leaves it as it is, and any other is confined to
the files of rendered trees. A run that is cancelled before it begins, or never, is one of them. -/
theorem run_confined {r : Registry} (hr : r.names.Nodup)
    (hn : ∀ g ∈ r.generators, IsName g.name) (hk : ∀ g ∈ r.generators, Keyed g)
    {disk : Disk} (hd : disk.Sound) (c : Context) (app : Model.Application) (root : String)
    (enabled : List String) (requested : Requested) :
    (∀ cancelled, r.run disk app root enabled requested cancelled =
      r.runUnder (.always cancelled) disk app root enabled requested) ∧
    (∀ e, r.runUnder c disk app root enabled requested = .error e →
      leaves disk (r.runUnder c disk app root enabled requested) = disk ∧
      ∀ c' disk', r.runUnder c' disk' app root enabled requested = .error e) ∧
    ∀ report after, r.runUnder c disk app root enabled requested = .ok (report, after) →
      ∃ gens options, r.selected enabled = .ok gens ∧ resolve requested app = .ok options ∧
        Setting.Confines ⟨app, root, options, false⟩ c gens disk after
          (Setting.turnsUnder ⟨app, root, options, false⟩ c ⟨[], [], disk⟩ gens) report := by
  refine ⟨run_eq_runUnder r disk app root enabled requested, fun e he => ⟨?_, fun c' disk' => ?_⟩,
    fun report after hrun => ?_⟩
  · rw [he]
    rfl
  · rcases bind_eq_error.mp he with hgens | ⟨gens, hgens, he⟩
    · rw [Registry.runUnder, hgens]
      rfl
    · rcases bind_eq_error.mp he with hoptions | ⟨options, hoptions, he⟩
      · rw [Registry.runUnder, hgens, hoptions]
        rfl
      · cases he
  · obtain ⟨gens, options, hgens, hoptions, hrun⟩ := runUnder_eq_ok.mp hrun
    have hsub := selected_sublist hgens
    rw [Setting.runEachUnder_eq] at hrun
    cases hrun
    refine ⟨gens, options, hgens, hoptions, ?_⟩
    exact Setting.confines_turnsUnder _ c (hr.sublist (hsub.map _))
      (fun g hg => hn g (hsub.subset hg)) (fun g hg => hk g (hsub.subset hg)) hd

/-! ## A path that leads away -/

/-- A generator with a file of its own and one that is none of its business. -/
def straying : Generator :=
  ⟨"site", [], fun _ => .tree [("index", "hello"), ("up/../../other", "bye")]⟩

theorem straying_keyed : Keyed straying := by
  intro request files h
  cases h
  decide

theorem run_confined_straying : ∃ report after,
    Registry.runUnder ⟨[straying]⟩ (.always false) .empty (Build.build ⟨[]⟩ "") "out" []
      ⟨none, none, none⟩ = .ok (report, after) ∧
    ∃ gens options, Registry.selected ⟨[straying]⟩ [] = .ok gens ∧
      resolve ⟨none, none, none⟩ (Build.build ⟨[]⟩ "") = .ok options ∧
      Setting.Confines ⟨Build.build ⟨[]⟩ "", "out", options, false⟩ (.always false) gens .empty
        after (Setting.turnsUnder ⟨Build.build ⟨[]⟩ "", "out", options, false⟩ (.always false)
          ⟨[], [], .empty⟩ gens) report := by
  have hname : IsName straying.name := ⟨by decide, by decide, by decide, by decide⟩
  obtain ⟨-, -, hok⟩ := run_confined (r := ⟨[straying]⟩) (List.nodup_singleton _)
    (List.forall_mem_singleton.mpr hname) (List.forall_mem_singleton.mpr straying_keyed)
    Disk.sound_empty (.always false) (Build.build ⟨[]⟩ "") "out" [] ⟨none, none, none⟩
  exact ⟨_, _, rfl, hok _ _ rfl⟩

end Scaffold.Generator
