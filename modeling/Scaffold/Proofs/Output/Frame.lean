import Scaffold.Proofs.Lists
import Scaffold.Proofs.Output.Writer

/-! # Which files a tree is written to

Each finished file stands at a place of its own, and nothing else on the disk changes but that the
directories above the files are made. The first file that cannot be written leaves all that come
after it as they were. -/
namespace Scaffold.Disk

/-- Everything is still there: files as files, directories as directories. -/
structure Retains (d d' : Disk) : Prop where
  directory : ∀ l, d.get? l = some .directory → d'.get? l = some .directory
  file : ∀ l content, d.get? l = some (.file content) → ∃ new, d'.get? l = some (.file new)

theorem Retains.refl (d : Disk) : Retains d d :=
  ⟨fun _ h => h, fun _ content h => ⟨content, h⟩⟩

theorem Retains.trans {d e f : Disk} (h : Retains d e) (h' : Retains e f) : Retains d f := by
  refine ⟨fun l hl => h'.directory l (h.directory l hl), fun l content hl => ?_⟩
  obtain ⟨new, hnew⟩ := h.file l content hl
  exact h'.file l new hnew

/-- Where nothing is, nothing was. -/
theorem Retains.missing {d d' : Disk} (h : Retains d d') {l : Location} (hl : d'.get? l = none) :
    d.get? l = none := by
  cases hd : d.get? l with
  | none => rfl
  | some e =>
    cases e with
    | directory => rw [h.directory l hd] at hl; cases hl
    | file content =>
      obtain ⟨new, hnew⟩ := h.file l content hd
      rw [hnew] at hl
      cases hl

/-- Nothing changes but what is at some places, and directories are made above these. -/
def ChangesOnly (places : Location → Prop) (d d' : Disk) : Prop :=
  ∀ l, d'.get? l ≠ d.get? l → ∃ k, places k ∧
    (l = k ∨ (l <+: k ∧ d.get? l = none ∧ d'.get? l = some .directory))

theorem ChangesOnly.refl (places : Location → Prop) (d : Disk) : ChangesOnly places d d :=
  fun _ h => absurd rfl h

theorem ChangesOnly.mono {P Q : Location → Prop} {d d' : Disk} (h : ChangesOnly P d d')
    (hPQ : ∀ l, P l → Q l) : ChangesOnly Q d d' := by
  intro l hl
  obtain ⟨k, hk, hplace⟩ := h l hl
  exact ⟨k, hPQ k hk, hplace⟩

theorem ChangesOnly.trans {P : Location → Prop} {d e f : Disk} (h : ChangesOnly P d e)
    (h' : ChangesOnly P e f) (hde : Retains d e) (hef : Retains e f) : ChangesOnly P d f := by
  intro l hl
  by_cases hlater : f.get? l = e.get? l
  · obtain ⟨k, hk, hplace⟩ := h l (hlater ▸ hl)
    refine ⟨k, hk, hplace.imp_right ?_⟩
    rintro ⟨hup, hnone, hdir⟩
    exact ⟨hup, hnone, hef.directory l hdir⟩
  · obtain ⟨k, hk, hplace⟩ := h' l hlater
    refine ⟨k, hk, hplace.imp_right ?_⟩
    rintro ⟨hup, hnone, hdir⟩
    exact ⟨hup, hde.missing hnone, hdir⟩

/-- The text of a file, if there is one at the location. -/
def text? (d : Disk) (l : Location) : Option String :=
  match d.get? l with
  | some (.file content) => some content
  | _ => none

end Scaffold.Disk

namespace Scaffold.Output

open Scaffold.Disk

/-! ## Places -/

/-- Where a file of a tree stands. -/
def placeOf (dir path : String) : Location := locationOf (Disk.join [dir, path])

theorem placeOf_eq {path : String} (hp : isSafePath path = true) (dir : String) :
    placeOf dir path = locationOf dir ++ segments path :=
  locationOf_join (isSafePath_ofNames hp) dir

/-- A safe path is spelled by its segments. -/
theorem intercalate_segments {p : String} (hp : isSafePath p = true) :
    "/".intercalate (segments p) = p := by
  have hnames := isSafePath_ofNames hp
  simp only [isSafePath, Bool.and_eq_true, decide_eq_true_eq] at hp
  obtain ⟨⟨⟨⟨-, hclean⟩, -⟩, -⟩, -⟩ := hp
  have hkept : kept p = segments p := by
    rw [kept, hnames.relative]
    exact cleanSegments_of_normal (Normal.names (.nil _) hnames)
  have hne : kept p ≠ [] := hkept ▸ segments_ne_nil p
  have htext := clean_of_relative hnames.relative hne
  rw [hclean, hkept] at htext
  exact htext.symm

theorem placeOf_injective {dir p q : String} (hp : isSafePath p = true) (hq : isSafePath q = true)
    (h : placeOf dir p = placeOf dir q) : p = q := by
  rw [placeOf_eq hp, placeOf_eq hq, List.append_cancel_left_eq] at h
  rw [← intercalate_segments hp, h, intercalate_segments hq]

/-- A path sorts behind the directories that it stands in. -/
theorem le_of_placeOf_above {dir p q : String} (hp : isSafePath p = true)
    (hq : isSafePath q = true) (h : placeOf dir p <+: placeOf dir q) : p ≤ q := by
  rw [placeOf_eq hp, placeOf_eq hq, List.prefix_append_right_inj] at h
  obtain ⟨rest, hrest⟩ := h
  have htext : p.toList <+: q.toList := by
    cases rest with
    | nil =>
      have hsame : p = q := by
        rw [← intercalate_segments hp, ← intercalate_segments hq, ← hrest, List.append_nil]
      exact hsame ▸ List.prefix_refl _
    | cons s rest =>
      have hq' := intercalate_segments hq
      rw [← hrest, String.intercalate_append_of_ne_nil (segments_ne_nil p) (by simp),
        intercalate_segments hp, String.append_assoc] at hq'
      rw [← hq', String.toList_append]
      exact List.prefix_append _ _
  exact htext.le

theorem isAnchor_placeOf {path : String} (hp : isSafePath path = true) (dir : String) :
    isAnchor (placeOf dir path) = false := by
  rw [placeOf_eq hp]
  exact isAnchor_names (segments_ne_nil path) (isSafePath_ofNames hp) _

/-! ## Safe paths -/

/-- The names that a path is put together from, with slashes between them and no backslash. -/
structure Spells (names : List String) (p : String) : Prop where
  ne_nil : names ≠ []
  isName : ∀ s ∈ names, IsName s
  text : p = "/".intercalate names
  backslash : '\\' ∉ p.toList

section Spells

variable {names : List String} {p : String} (h : Spells names p)
include h

theorem Spells.segments_eq : segments p = names := by
  rw [h.text]
  exact segments_intercalate h.ne_nil fun s hs => (h.isName s hs).slash

theorem Spells.ofNames : OfNames p := by
  rw [OfNames, h.segments_eq]
  exact h.isName

theorem Spells.clean_eq : clean p = p := by
  have hkept : kept p = names := by
    rw [kept, h.ofNames.relative, h.segments_eq]
    exact cleanSegments_of_normal (Normal.names (.nil _) h.isName)
  rw [clean_of_relative h.ofNames.relative (hkept ▸ h.ne_nil), hkept, h.text]

theorem Spells.safe : isSafePath p = true := by
  have hnames := h.ofNames
  have hstart : p.startsWith "../" = false := by
    rw [Bool.eq_false_iff, Ne, String.startsWith_string_iff]
    rintro ⟨rest, hrest⟩
    have hp : p = ".." ++ "/" ++ String.ofList rest := by
      rw [← String.toList_inj, ← hrest]
      simp
    refine isName_not_up (hnames ".." ?_)
    rw [hp, segments_append, segments_of_slash (by decide)]
    exact .head _
  have hdot : p ≠ "." := by
    rintro rfl
    exact (hnames "." (by decide)).ne_dot rfl
  have hup : p ≠ ".." := by
    rintro rfl
    exact (hnames ".." (by decide)).ne_up rfl
  simp [isSafePath, hnames.ne_empty, hnames.relative, h.backslash, h.clean_eq, hstart, hdot, hup]

end Spells

theorem spells_of_safe {p : String} (h : isSafePath p = true) : Spells (segments p) p := by
  refine ⟨segments_ne_nil p, isSafePath_ofNames h, (intercalate_segments h).symm, ?_⟩
  simp only [isSafePath, Bool.and_eq_true, Bool.not_eq_true', List.contains_eq_mem,
    decide_eq_false_iff_not] at h
  exact h.1.1.1.1.2

/-- The text of a path below a clean directory. The working directory is not written. -/
theorem join_below_text {dir p : String} {names : List String} (hdir : clean dir = dir)
    (h : Spells names p) : join [dir, p] =
      if dir = "." then p else if dir = "/" then "/" ++ p else dir ++ "/" ++ p := by
  have hkept : kept (join [dir, p]) = kept dir ++ names := by
    rw [kept_join h.ofNames, h.segments_eq]
  have habs := isAbsolute_join h.ofNames dir
  have hne : kept (join [dir, p]) ≠ [] := kept_join_ne_nil h.ofNames dir
  rw [← clean_join h.ofNames dir]
  cases hroot : isAbsolute dir with
  | true =>
    have hdot : dir ≠ "." := by
      rintro rfl
      exact absurd hroot (by decide +kernel)
    have htext := clean_of_absolute hroot
    rw [hdir] at htext
    rw [clean_of_absolute (habs.trans hroot), hkept, if_neg hdot]
    by_cases hnil : kept dir = []
    · rw [hnil, String.intercalate_nil, String.append_empty] at htext
      rw [hnil, List.nil_append, if_pos htext, h.text]
    · have hlong : dir ≠ "/" := by
        rintro rfl
        exact hnil (by decide +kernel)
      rw [String.intercalate_append_of_ne_nil hnil h.ne_nil, if_neg hlong, ← h.text,
        ← String.append_assoc, ← String.append_assoc, ← htext]
  | false =>
    have hslash : dir ≠ "/" := by
      rintro rfl
      exact absurd hroot (by decide +kernel)
    rw [clean_of_relative (habs.trans hroot) hne, hkept, if_neg hslash]
    by_cases hnil : kept dir = []
    · have htext := clean_of_here hroot hnil
      rw [hdir] at htext
      rw [hnil, List.nil_append, if_pos htext, h.text]
    · have htext := clean_of_relative hroot hnil
      rw [hdir] at htext
      have hdot : dir ≠ "." := by
        rintro rfl
        exact hnil (by decide +kernel)
      rw [String.intercalate_append_of_ne_nil hnil h.ne_nil, if_neg hdot, ← h.text, ← htext]

/-- A path is safe exactly when it is one name or more with slashes between them, none of them
`.` or `..`, and without a backslash. Joined to a clean directory it is the directory with exactly
these names behind it, and so it stands below. -/
theorem safe_iff_names (p : String) :
    (isSafePath p = true ↔ ∃ names, Spells names p) ∧
    ∀ dir names, clean dir = dir → Spells names p →
      locationOf (join [dir, p]) = locationOf dir ++ names ∧
      join [dir, p] = if dir = "." then p else if dir = "/" then "/" ++ p else dir ++ "/" ++ p := by
  refine ⟨⟨fun h => ⟨_, spells_of_safe h⟩, fun ⟨_, h⟩ => h.safe⟩, fun dir names hdir h => ?_⟩
  refine ⟨?_, join_below_text hdir h⟩
  rw [locationOf_join h.ofNames, h.segments_eq]

/-- A file two directories deep, below a directory that is reached through the one above. -/
theorem safe_schema : clean "../out" = "../out" ∧ Spells ["api", "v1", "schema.json"]
      "api/v1/schema.json" ∧
    locationOf (join ["../out", "api/v1/schema.json"]) =
      ["..", "out", "api", "v1", "schema.json"] ∧
    join ["../out", "api/v1/schema.json"] = "../out/api/v1/schema.json" := by
  have hdir : clean "../out" = "../out" := by decide +kernel
  have hspells : Spells ["api", "v1", "schema.json"] "api/v1/schema.json" := by
    refine ⟨by simp, fun s hs => ?_, by decide, by decide⟩
    simp only [List.mem_cons, List.not_mem_nil, or_false] at hs
    rcases hs with rfl | rfl | rfl <;> exact ⟨by decide, by decide, by decide, by decide⟩
  obtain ⟨hplace, htext⟩ := (safe_iff_names _).2 _ _ hdir hspells
  refine ⟨hdir, hspells, ?_, by simpa using htext⟩
  rw [hplace]
  decide +kernel

/-! ## One file -/

/-- A file of a tree when it is finished: the text that the disk has of it now is the fresh text
with what the disk had of it, and it is marked as changed unless the disk had this text already. -/
structure Finished (dir : String) (d d' : Disk) (f : String × String) (w : Written) : Prop where
  path : w.path = f.1
  safe : isSafePath f.1 = true
  merged : mergeRegions f.2 (d.text? (placeOf dir f.1)) = .ok w.content
  stored : d'.get? (placeOf dir f.1) = some (.file w.content)
  same : w.changed = false ↔ d.get? (placeOf dir f.1) = some (.file w.content)

/-- The places of the files that changed. -/
def ChangedPlace (dir : String) (ws : List Written) (l : Location) : Prop :=
  ∃ w ∈ ws, w.changed = true ∧ l = placeOf dir w.path

theorem existing_eq_text? {d : Disk} (hd : d.Sound) {dir path : String}
    (hp : isSafePath path = true) {old : Option String}
    (h : existing d path (Disk.join [dir, path]) = .ok old) : d.text? (placeOf dir path) = old := by
  have hnames := isSafePath_ofNames hp
  have hcases := existing_cases (clean_join hnames dir) (kept_join_ne_nil hnames dir) hd path
  rw [h] at hcases
  rcases hcases with ⟨content, hget, heq⟩ | ⟨-, heq⟩ | ⟨-, -, heq⟩ | ⟨hget, -, heq⟩
  · cases heq
    simp [Disk.text?, placeOf, hget]
  · cases heq
  · cases heq
  · cases heq
    simp [Disk.text?, placeOf, hget]

theorem text?_eq_some {d : Disk} {l : Location} {content : String} :
    d.text? l = some content ↔ d.get? l = some (.file content) := by
  unfold Disk.text?
  split
  next c h => simp [h]
  next h =>
    refine ⟨nofun, fun hfile => ?_⟩
    exact absurd hfile (h content)

theorem retains_write {d : Disk} {l : Location} (hl : isAnchor l = false)
    (hfree : d.get? l ≠ some .directory) (content : String) : Retains d (d.write l content) := by
  constructor
  · intro k hk
    have hne : k ≠ l := fun heq => hfree (heq ▸ hk)
    rw [get?_write hl, if_neg hne, hk]
    simp
  · intro k c hk
    rw [get?_write hl, hk]
    split
    · exact ⟨content, rfl⟩
    · exact ⟨c, by simp⟩

/-- What writing one file does. -/
theorem writeFile_ok {d d' : Disk} {dir path fresh : String} {w : Written} (hd : d.Sound)
    (h : writeFile d dir path fresh = .ok (w, d')) :
    Finished dir d d' (path, fresh) w ∧ ChangesOnly (ChangedPlace dir [w]) d d' ∧ Retains d d' ∧
      d'.Sound := by
  have hsound := (writeFile_below hd h).sound
  by_cases hp : isSafePath path = true
  case neg => simp [writeFile, hp] at h
  have hnames := isSafePath_ofNames hp
  have hanchor := isAnchor_placeOf hp dir
  rw [writeFile_eq hp] at h
  obtain ⟨old, hold, h⟩ := bind_eq_ok.mp h
  obtain ⟨w', hw, h⟩ := bind_eq_ok.mp h
  obtain ⟨content, hcontent, hw⟩ := bind_eq_ok.mp hw
  cases hw
  cases h
  have htext := existing_eq_text? hd hp hold
  obtain ⟨-, hfree⟩ := existing_writable (clean_join hnames dir) (kept_join_ne_nil hnames dir)
    hd hold
  have hmerged : mergeRegions fresh (d.text? (placeOf dir path)) = .ok content := by
    rw [htext]
    cases hm : mergeRegions fresh old with
    | error e => simp [hm, Except.mapError] at hcontent
    | ok c => simpa [hm, Except.mapError] using hcontent
  have hsame : old = some content ↔ d.get? (placeOf dir path) = some (.file content) := by
    rw [← htext, text?_eq_some]
  by_cases heq : old = some content
  · simp only [heq, ne_eq, not_true_eq_false, decide_false, Bool.false_eq_true, if_false]
    have hstored := hsame.mp heq
    exact ⟨⟨rfl, hp, hmerged, hstored, by simpa using hstored⟩, ChangesOnly.refl _ _,
      Retains.refl _, hd⟩
  · simp only [ne_eq, heq, not_false_eq_true, decide_true, if_true] at hsound ⊢
    refine ⟨⟨rfl, hp, hmerged, ?_, ?_⟩, ?_, retains_write hanchor hfree content, hsound⟩
    · exact (get?_write hanchor d content _).trans (if_pos rfl)
    · simpa using fun h => heq (hsame.mpr h)
    · intro l hl
      refine ⟨placeOf dir path, ⟨_, .head _, rfl, rfl⟩, ?_⟩
      change (d.write (placeOf dir path) content).get? l ≠ d.get? l at hl
      change _ ∨ (_ ∧ _ ∧ (d.write (placeOf dir path) content).get? l = some .directory)
      rw [get?_write hanchor] at hl ⊢
      by_cases hk : l = placeOf dir path
      · exact .inl hk
      · rw [if_neg hk] at hl ⊢
        by_cases hcond : l <+: placeOf dir path ∧ d.get? l = none
        · exact .inr ⟨hcond.1, hcond.2, if_pos hcond⟩
        · rw [if_neg hcond] at hl
          exact absurd rfl hl

/-! ## All files -/

/-- What writing a tree does: files are finished in order, each in its place and nothing else, up to
the first that cannot be written. -/
structure FinishedUpTo (dir : String) (d : Disk) (tree : Tree) (out : WriteOutcome)
    (done rest : Tree) : Prop where
  order : tree = done ++ rest
  files : List.Forall₂ (Finished dir d out.disk) done out.files
  frame : ChangesOnly (ChangedPlace dir out.files) d out.disk
  retains : Retains d out.disk
  sound : out.disk.Sound
  stop : (out.error = none ∧ rest = []) ∨ ∃ f rest' e, rest = f :: rest' ∧ out.error = some e ∧
    writeFile out.disk dir f.1 f.2 = .error e

/-- What one file leaves of another: a finished file stood at its place already, if at all. -/
theorem Finished.before {dir : String} {d e f : Disk} {w v : Written} {g : String × String}
    (hv : Finished dir e f g v) (hframe : ChangesOnly (ChangedPlace dir [w]) d e)
    (hw : isSafePath w.path = true)
    (hne : g.1 ≠ w.path) (hretains : Retains e f) : Finished dir d f g v := by
  have hget : e.get? (placeOf dir g.1) = d.get? (placeOf dir g.1) := by
    by_contra hchange
    obtain ⟨k, ⟨w', hmem, -, rfl⟩, hplace⟩ := hframe _ hchange
    obtain rfl := List.mem_singleton.mp hmem
    rcases hplace with heq | ⟨-, -, hdir⟩
    · exact hne (placeOf_injective hv.safe hw heq)
    · -- a directory in its place would be there to the end
      have hstored := hv.stored
      rw [hretains.directory _ hdir] at hstored
      cases hstored
  have htext : e.text? (placeOf dir g.1) = d.text? (placeOf dir g.1) := by
    rw [Disk.text?, Disk.text?, hget]
  exact ⟨hv.path, hv.safe, htext ▸ hv.merged, hv.stored, hget ▸ hv.same⟩

/-- What later files leave of the first. -/
theorem Finished.after {dir : String} {d e f : Disk} {w : Written} {vs : List Written}
    {g : String × String} (hw : Finished dir d e g w)
    (hframe : ChangesOnly (ChangedPlace dir vs) e f)
    (hvs : ∀ v ∈ vs, isSafePath v.path = true ∧ v.path ≠ g.1) : Finished dir d f g w := by
  have hget : f.get? (placeOf dir g.1) = e.get? (placeOf dir g.1) := by
    by_contra hchange
    obtain ⟨k, ⟨v, hv, -, rfl⟩, hplace⟩ := hframe _ hchange
    obtain ⟨hsafe, hne⟩ := hvs v hv
    rcases hplace with heq | ⟨-, hnone, -⟩
    · exact hne (placeOf_injective hw.safe hsafe heq).symm
    · rw [hw.stored] at hnone
      cases hnone
  exact ⟨hw.path, hw.safe, hw.merged, hget ▸ hw.stored, hw.same⟩

/-- One file more at the front. -/
theorem FinishedUpTo.cons {dir : String} {d e : Disk} {f : String × String} {w : Written}
    {tree done rest : Tree} {out : WriteOutcome} (h : FinishedUpTo dir e tree out done rest)
    (hfirst : Finished dir d e f w) (hframe : ChangesOnly (ChangedPlace dir [w]) d e)
    (hretains : Retains d e)
    (hnew : f.1 ∉ tree.map (·.1)) :
    FinishedUpTo dir d (f :: tree) { out with files := w :: out.files } (f :: done) rest := by
  have hne : ∀ g ∈ done, g.1 ≠ f.1 := by
    intro g hg heq
    refine hnew (heq ▸ List.mem_map_of_mem ?_)
    rw [h.order]
    exact List.mem_append_left _ hg
  have hw : isSafePath w.path = true := hfirst.path ▸ hfirst.safe
  constructor
  case order => rw [h.order, List.cons_append]
  case files =>
    refine .cons (hfirst.after h.frame fun v hv => ?_) ?_
    · obtain ⟨g, hg, hgv⟩ := exists_of_mem_right h.files hv
      rw [hgv.path]
      exact ⟨hgv.safe, hne g hg⟩
    · have hboth := (List.forall₂_and_left done out.files).mpr ⟨hne, h.files⟩
      exact hboth.imp fun g v hv => hv.2.before hframe hw (hfirst.path ▸ hv.1) h.retains
  case frame =>
    refine (hframe.mono ?_).trans (h.frame.mono ?_) hretains h.retains
    · rintro l ⟨v, hv, hplace⟩
      exact ⟨v, List.mem_singleton.mp hv ▸ .head _, hplace⟩
    · rintro l ⟨v, hv, hplace⟩
      exact ⟨v, .tail _ hv, hplace⟩
  case retains => exact hretains.trans h.retains
  case sound => exact h.sound
  case stop => exact h.stop

theorem writeFiles_finished (dir : String) {d : Disk} {tree : Tree} (hd : d.Sound)
    (hn : (tree.map (·.1)).Nodup) :
    ∃ done rest, FinishedUpTo dir d tree (writeFiles dir d tree) done rest := by
  induction tree generalizing d with
  | nil => exact ⟨[], [], rfl, .nil, ChangesOnly.refl _ _, Retains.refl _, hd, .inl ⟨rfl, rfl⟩⟩
  | cons f tree ih =>
    obtain ⟨path, fresh⟩ := f
    obtain ⟨hnew, hn⟩ := List.nodup_cons.mp hn
    cases hw : writeFile d dir path fresh with
    | error e =>
      simp only [writeFiles, hw]
      exact ⟨[], _, rfl, .nil, ChangesOnly.refl _ _, Retains.refl _, hd,
        .inr ⟨_, _, e, rfl, rfl, hw⟩⟩
    | ok r =>
      obtain ⟨w, e⟩ := r
      obtain ⟨hfirst, hframe, hretains, hsound⟩ := writeFile_ok hd hw
      obtain ⟨done, rest, hrest⟩ := ih hsound hn
      simp only [writeFiles, hw]
      exact ⟨(path, fresh) :: done, rest, hrest.cons hfirst hframe hretains hnew⟩

/-! ## Files in order -/

theorem sorted_pairwise (tree : Tree) : tree.sorted.Pairwise fun f g => f.1 ≤ g.1 := by
  have hpairwise : tree.sorted.Pairwise fun f g => decide (f.1 ≤ g.1) = true := by
    apply List.pairwise_mergeSort
    · intro a b c hab hbc
      rw [decide_eq_true_eq] at hab hbc ⊢
      exact String.le_trans hab hbc
    · intro a b
      simpa using String.le_total a.1 b.1
  exact hpairwise.imp of_decide_eq_true

theorem nodup_sorted {tree : Tree} (h : (tree.map (·.1)).Nodup) :
    (tree.sorted.map (·.1)).Nodup :=
  ((List.mergeSort_perm tree _).map _).nodup_iff.mpr h

/-- In a sorted tree every file comes behind those that stand before it. -/
theorem behind_of_append {done rest : Tree} (hs : (done ++ rest).Pairwise fun f g => f.1 ≤ g.1)
    (hn : ((done ++ rest).map (·.1)).Nodup) {g : String × String} (hg : g ∈ rest) :
    ∀ f ∈ done, f.1 ≤ g.1 ∧ f.1 ≠ g.1 := by
  intro f hf
  rw [List.map_append, List.nodup_append] at hn
  exact ⟨(List.pairwise_append.mp hs).2.2 f hf g hg,
    hn.2.2 _ (List.mem_map_of_mem hf) _ (List.mem_map_of_mem hg)⟩

/-- What comes behind all finished files stays as it was: no directory that was made above them
stands in its place. -/
theorem FinishedUpTo.untouched {dir path : String} {d : Disk} {tree done rest : Tree}
    {out : WriteOutcome} (h : FinishedUpTo dir d tree out done rest)
    (hsafe : isSafePath path = true) (hbehind : ∀ f ∈ done, f.1 ≤ path ∧ f.1 ≠ path) :
    out.disk.get? (placeOf dir path) = d.get? (placeOf dir path) := by
  by_contra hchange
  obtain ⟨k, ⟨w, hw, -, rfl⟩, hplace⟩ := h.frame _ hchange
  obtain ⟨f, hf, hfw⟩ := exists_of_mem_right h.files hw
  rw [hfw.path] at hplace
  obtain ⟨hle, hne⟩ := hbehind f hf
  have hup : placeOf dir path <+: placeOf dir f.1 := by
    rcases hplace with heq | ⟨hup, -, -⟩
    · exact heq ▸ List.prefix_refl _
    · exact hup
  exact hne (String.le_antisymm hle (le_of_placeOf_above hsafe hfw.safe hup))

end Scaffold.Output
