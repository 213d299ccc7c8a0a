import Scaffold.Output.Writer
import Scaffold.Proofs.Disk.Basic
import Scaffold.Proofs.Outcome

/-! # What writing a tree changes

A tree is written below its directory, and what is written depends on nothing but what is below the
directory and on the files that stand in its way. -/
namespace Scaffold.Output

open Scaffold.Disk

/-! ## Locations -/

theorem isSafePath_ofNames {p : String} (h : isSafePath p = true) : OfNames p := by
  simp only [isSafePath, Bool.and_eq_true, decide_eq_true_eq, Bool.not_eq_true'] at h
  obtain ⟨⟨⟨⟨⟨⟨hne, habs⟩, -⟩, hclean⟩, hdot⟩, hup⟩, hstart⟩ := h
  have hkept : kept p ≠ [] := fun hnil => hdot (hclean.symm.trans (clean_of_here habs hnil))
  have hsegments := segments_clean hkept
  rw [hclean, habs] at hsegments
  have htext := clean_of_relative habs hkept
  rw [hclean] at htext
  have hnormal := kept_normal p
  intro s hs
  rw [hsegments] at hs
  obtain ⟨before, after, heq⟩ := List.append_of_mem hs
  rcases hnormal before s after heq with hname | ⟨rfl, -, hall⟩
  · exact hname
  · -- the path would start with `..`
    have hfirst : ∃ rest, kept p = ".." :: rest := by
      cases before with
      | nil => exact ⟨after, heq⟩
      | cons b before => exact ⟨before ++ ".." :: after, hall b (by simp) ▸ heq⟩
    obtain ⟨rest, hrest⟩ := hfirst
    rw [hrest] at htext
    cases rest with
    | nil => exact absurd htext hup
    | cons r rest =>
      rw [String.intercalate_cons_cons] at htext
      have hyes : p.startsWith "../" = true := by
        rw [String.startsWith_string_iff, htext]
        exact ⟨("/".intercalate (r :: rest)).toList, by simp⟩
      rw [hstart] at hyes
      cases hyes

theorem locationOf_eq (p : String) : locationOf p = origin p ++ kept p := rfl

theorem locationOf_join {q : String} (h : OfNames q) (root : String) :
    locationOf (join [root, q]) = locationOf root ++ segments q := by
  rw [locationOf_eq, locationOf_eq, origin_eq_start, isAbsolute_join h, kept_join h,
    List.append_assoc, origin_eq_start]

theorem clean_join {q : String} (h : OfNames q) (root : String) :
    clean (join [root, q]) = join [root, q] := by
  rw [join_pair h.ne_empty, clean_clean]

theorem segments_ne_nil (p : String) : segments p ≠ [] := by
  simp [segments, Text.split, Text.splitChars_ne_nil]

theorem kept_join_ne_nil {q : String} (h : OfNames q) (root : String) :
    kept (join [root, q]) ≠ [] := by
  rw [kept_join h]
  simp [segments_ne_nil]

/-! ## One file -/

section

variable {d : Disk} {p : String} (hc : clean p = p) (hk : kept p ≠ [])
include hc hk

/-- What is read at a path, by what is at its location. -/
theorem existing_cases (hd : d.Sound) (path : String) :
    (∃ content, d.get? (locationOf p) = some (.file content) ∧
      existing d path p = .ok (some content)) ∨
    (d.get? (locationOf p) = some .directory ∧
      existing d path p = .error (.unreadable path ⟨"read", p, .isDirectory⟩)) ∨
    (d.get? (locationOf p) = none ∧ d.Blocked (locationOf p) ∧
      existing d path p = .error (.unreadable path ⟨"open", p, .notDirectory⟩)) ∨
    (d.get? (locationOf p) = none ∧ ¬ d.Blocked (locationOf p) ∧ existing d path p = .ok none) := by
  cases he : d.get? (locationOf p) with
  | some e =>
    have hfind := find_found hc hk hd he
    cases e with
    | file content => exact .inl ⟨content, rfl, by simp [existing, Disk.read, hfind]⟩
    | directory => exact .inr (.inl ⟨rfl, by simp [existing, Disk.read, hfind]⟩)
  | none =>
    by_cases hb : d.Blocked (locationOf p)
    · have hfind := find_blocked hc hk hd hb
      exact .inr (.inr (.inl ⟨rfl, hb, by simp [existing, Disk.read, hfind]⟩))
    · have hfind := find_missing hc hk he hb
      exact .inr (.inr (.inr ⟨rfl, hb, by simp [existing, Disk.read, hfind]⟩))

theorem existing_congr {d' : Disk} (hd : d.Sound) (hd' : d'.Sound) (path : String)
    (hget : d.get? (locationOf p) = d'.get? (locationOf p))
    (hb : d.Blocked (locationOf p) ↔ d'.Blocked (locationOf p)) :
    existing d path p = existing d' path p := by
  have hfind := find_congr hc hk hd hd' hget hb
  rw [existing, existing, Disk.read, Disk.read, hfind]

/-- Where something can be read or is missing, a file can be written. -/
theorem existing_writable (hd : d.Sound) {path : String} {old : Option String}
    (h : existing d path p = .ok old) :
    ¬ d.Blocked (locationOf p) ∧ d.get? (locationOf p) ≠ some .directory := by
  rcases existing_cases hc hk hd path with ⟨c, hget, -⟩ | ⟨-, heq⟩ | ⟨-, -, heq⟩ | ⟨hget, hb, -⟩
  · refine ⟨?_, by simp [hget]⟩
    rintro ⟨k, content, hpre, hne, hfile⟩
    rw [hd _ _ hget k hpre hne] at hfile
    cases hfile
  · rw [h] at heq
    cases heq
  · rw [h] at heq
    cases heq
  · exact ⟨hb, by simp [hget]⟩

end

/-- What a file is to hold, from what it holds. -/
def finished (path fresh : String) (old : Option String) : Except WriteError Written := do
  let content ← (mergeRegions fresh old).mapError (.unmergeable path)
  .ok ⟨path, content, old ≠ some content⟩

theorem writeFile_eq {path : String} (hp : isSafePath path = true) (d : Disk) (dir fresh : String) :
    writeFile d dir path fresh =
      (existing d path (join [dir, path]) >>= fun old => finished path fresh old >>= fun w =>
        .ok (w, if w.changed then d.write (locationOf (join [dir, path])) w.content else d)) := by
  simp only [writeFile, hp, finished]
  cases existing d path (join [dir, path]) with
  | error e => rfl
  | ok old =>
    simp only [ok_bind]
    cases (mergeRegions fresh old).mapError (WriteError.unmergeable path) with
    | error e => rfl
    | ok content => by_cases heq : old = some content <;> simp [ok_bind, heq]

/-! ## The frame of a write -/

/-- A disk differs from another below a location only, and in directories above it. -/
structure ChangedBelow (dir : Location) (d d' : Disk) : Prop where
  sound : d'.Sound
  outside : ∀ k, ¬ dir <+: k → ¬ k <+: dir → d'.get? k = d.get? k
  above : ∀ k, k <+: dir → k ≠ dir →
    ∀ content, d'.get? k = some (.file content) ↔ d.get? k = some (.file content)

theorem ChangedBelow.refl {d : Disk} (hd : d.Sound) (dir : Location) : ChangedBelow dir d d :=
  ⟨hd, fun _ _ _ => rfl, fun _ _ _ _ => Iff.rfl⟩

theorem ChangedBelow.trans {dir : Location} {d e f : Disk} (h : ChangedBelow dir d e)
    (h' : ChangedBelow dir e f) : ChangedBelow dir d f :=
  ⟨h'.sound, fun k hk hk' => (h'.outside k hk hk').trans (h.outside k hk hk'),
    fun k hk hne content => (h'.above k hk hne content).trans (h.above k hk hne content)⟩

/-- A write where nothing stands in the way keeps everything in directories. -/
theorem sound_write {d : Disk} {l : Location} (hd : d.Sound) (hl : isAnchor l = false)
    (hb : ¬ d.Blocked l) (hdir : d.get? l ≠ some .directory) (content : String) :
    (d.write l content).Sound := by
  intro k e hk m hm hne
  rw [get?_write hl] at hk ⊢
  -- above the new file there are directories, old or new, since no file is in the way
  have hup : ∀ m, m <+: l → m ≠ l → (if m <+: l ∧ d.get? m = none then some Disk.Entry.directory
      else d.get? m) = some .directory := by
    intro m hm hne
    cases hget : d.get? m with
    | none => simp [hm]
    | some e =>
      cases e with
      | file content => exact absurd ⟨m, content, hm, hne, hget⟩ hb
      | directory => simp
  split at hk
  next heq =>
    subst heq
    rw [if_neg hne]
    exact hup m hm hne
  next hkl =>
    split at hk
    next hcond =>
      have hml : m ≠ l := by
        rintro rfl
        exact hkl (hcond.1.eq_of_length_le hm.length_le)
      rw [if_neg hml]
      exact hup m (hm.trans hcond.1) hml
    next =>
      have hget := hd k e hk m hm hne
      have hml : m ≠ l := fun heq => hdir (heq ▸ hget)
      rw [if_neg hml]
      simp [hget]

theorem changedBelow_write {d : Disk} {dir l : Location} (hd : d.Sound) (hl : isAnchor l = false)
    (hdir : dir <+: l) (hb : ¬ d.Blocked l) (hfree : d.get? l ≠ some .directory)
    (content : String) : ChangedBelow dir d (d.write l content) := by
  refine ⟨sound_write hd hl hb hfree content, fun k hk hk' => ?_, fun k hk hne c => ?_⟩
  · have hkl : k ≠ l := by
      rintro rfl
      exact hk hdir
    have hup : ¬ k <+: l := by
      intro hkl
      rcases List.prefix_or_prefix_of_prefix hkl hdir with h | h
      · exact hk' h
      · exact hk h
    rw [get?_write hl, if_neg hkl, if_neg fun h => hup h.1]
  · have hkl : k ≠ l := by
      rintro rfl
      exact hne (hk.eq_of_length_le hdir.length_le)
    rw [get?_write hl, if_neg hkl]
    split
    next h => simp [h.2]
    next => rfl

theorem isAnchor_names {ss : List String} (hne : ss ≠ []) (h : ∀ s ∈ ss, IsName s)
    (l : Location) : isAnchor (l ++ ss) = false := by
  obtain ⟨s, ss, rfl⟩ := List.exists_cons_of_ne_nil hne
  have hs := h s (.head _)
  have hup : (l ++ s :: ss).all (· == "..") = false := by simp [hs.ne_up]
  have hroot : l ++ s :: ss ≠ [""] := by
    intro heq
    have hmem : s ∈ [""] := heq ▸ List.mem_append_right l (.head _)
    exact hs.ne_empty (List.mem_singleton.mp hmem)
  simp [isAnchor, hup, hroot]

theorem writeFile_below {d d' : Disk} {dir path fresh : String} {w : Written} (hd : d.Sound)
    (h : writeFile d dir path fresh = .ok (w, d')) : ChangedBelow (locationOf dir) d d' := by
  by_cases hp : isSafePath path = true
  · have hnames := isSafePath_ofNames hp
    rw [writeFile_eq hp] at h
    obtain ⟨old, hold, h⟩ := bind_eq_ok.mp h
    obtain ⟨w', -, h⟩ := bind_eq_ok.mp h
    cases h
    split
    next =>
      obtain ⟨hb, hfree⟩ := existing_writable (clean_join hnames dir) (kept_join_ne_nil hnames dir)
        hd hold
      rw [locationOf_join hnames] at hb hfree ⊢
      exact changedBelow_write hd (isAnchor_names (segments_ne_nil path) hnames _)
        (List.prefix_append _ _) hb hfree _
    next => exact ChangedBelow.refl hd _
  · simp [writeFile, hp] at h

/-- Writing files changes nothing but what is below their directory. -/
theorem writeFiles_below {d : Disk} (dir : String) (tree : Tree) (hd : d.Sound) :
    ChangedBelow (locationOf dir) d (writeFiles dir d tree).disk := by
  induction tree generalizing d with
  | nil => exact ChangedBelow.refl hd _
  | cons file rest ih =>
    obtain ⟨path, fresh⟩ := file
    rw [writeFiles]
    split
    next => exact ChangedBelow.refl hd _
    next w d' h =>
      have hfirst := writeFile_below hd h
      exact hfirst.trans (ih hfirst.sound)

/-! ## Two disks -/

/-- Two disks have the same below each own name, and the same files above them all. -/
structure Agree (base : Location) (own : String → Prop) (d d' : Disk) : Prop where
  left : d.Sound
  right : d'.Sound
  inside : ∀ n, own n → ∀ k, base ++ [n] <+: k → d.get? k = d'.get? k
  above : ∀ k, k <+: base →
    ∀ content, d.get? k = some (.file content) ↔ d'.get? k = some (.file content)

theorem Agree.refl {d : Disk} (hd : d.Sound) (base : Location) (own : String → Prop) :
    Agree base own d d :=
  ⟨hd, hd, fun _ _ _ _ => rfl, fun _ _ _ => Iff.rfl⟩

theorem Agree.symm {base : Location} {own : String → Prop} {d d' : Disk}
    (h : Agree base own d d') : Agree base own d' d :=
  ⟨h.right, h.left, fun n hn k hk => (h.inside n hn k hk).symm,
    fun k hk content => (h.above k hk content).symm⟩

/-- A change below a name that is not an own one leaves two disks in agreement. -/
theorem Agree.change {base : Location} {own : String → Prop} {d d' e : Disk} {m : String}
    (h : Agree base own d d') (hm : ¬ own m) (hc : ChangedBelow (base ++ [m]) d e) :
    Agree base own e d' := by
  refine ⟨hc.sound, h.right, fun n hn k hk => ?_, fun k hk content => ?_⟩
  · have hne : n ≠ m := fun heq => hm (heq ▸ hn)
    have happart : ∀ {a b : String}, a ≠ b → ¬ base ++ [a] <+: base ++ [b] := by
      intro a b hab hpre
      rw [List.prefix_append_right_inj] at hpre
      simp at hpre
      exact hab hpre
    -- what is below one name is neither below nor above another
    rw [hc.outside k ?_ ?_, h.inside n hn k hk]
    · intro hmk
      rcases List.prefix_or_prefix_of_prefix hk hmk with hnm | hmn
      · exact happart hne hnm
      · exact happart (Ne.symm hne) hmn
    · intro hkm
      exact happart hne (hk.trans hkm)
  · rw [hc.above k (hk.trans (List.prefix_append _ _)) ?_ content, h.above k hk content]
    rintro rfl
    have hlen := hk.length_le
    rw [List.length_append, List.length_singleton] at hlen
    omega

theorem Agree.blocked {base : Location} {own : String → Prop} {d d' : Disk} {n : String}
    {l : Location} (h : Agree base own d d') (hn : own n) (hl : base ++ [n] <+: l)
    (hb : d.Blocked l) : d'.Blocked l := by
  obtain ⟨k, content, hk, hne, hfile⟩ := hb
  refine ⟨k, content, hk, hne, ?_⟩
  rcases List.prefix_or_prefix_of_prefix hk hl with hkn | hnk
  · rcases List.prefix_concat_iff.mp hkn with rfl | hkb
    · rw [← h.inside n hn _ (List.prefix_refl _)]
      exact hfile
    · exact (h.above k hkb content).mp hfile
  · rw [← h.inside n hn k hnk]
    exact hfile

/-- The same write on two disks that agree. -/
theorem Agree.write {base : Location} {own : String → Prop} {d d' : Disk} {n : String}
    {l : Location} (h : Agree base own d d') (hn : own n) (hl : base ++ [n] <+: l)
    (ha : isAnchor l = false) (hb : ¬ d.Blocked l) (hfree : d.get? l ≠ some .directory)
    (content : String) : Agree base own (d.write l content) (d'.write l content) := by
  have hb' : ¬ d'.Blocked l := fun hblock => hb (h.symm.blocked hn hl hblock)
  have hget := h.inside n hn l hl
  refine ⟨sound_write h.left ha hb hfree content,
    sound_write h.right ha hb' (hget ▸ hfree) content, fun m hm k hk => ?_, fun k hk c => ?_⟩
  · rw [get?_write ha, get?_write ha, h.inside m hm k hk]
  · have hkl : k ≠ l := by
      rintro rfl
      have hlen := (hl.trans hk).length_le
      rw [List.length_append, List.length_singleton] at hlen
      omega
    have hfile : ∀ e : Disk, (if k <+: l ∧ e.get? k = none then some Disk.Entry.directory
        else e.get? k) = some (.file c) ↔ e.get? k = some (.file c) := by
      intro e
      split
      next hcond => simp [hcond.2]
      next => rfl
    rw [get?_write ha, get?_write ha, if_neg hkl, if_neg hkl, hfile, hfile, h.above k hk c]

theorem writeFile_agree {base : Location} {own : String → Prop} {d d' : Disk} {n dir : String}
    (h : Agree base own d d') (hn : own n) (hdir : locationOf dir = base ++ [n])
    (path fresh : String) :
    (∃ e, writeFile d dir path fresh = .error e ∧ writeFile d' dir path fresh = .error e) ∨
    ∃ w e e', writeFile d dir path fresh = .ok (w, e) ∧ writeFile d' dir path fresh = .ok (w, e') ∧
      Agree base own e e' := by
  by_cases hp : isSafePath path = true
  · have hnames := isSafePath_ofNames hp
    have hc := clean_join hnames dir
    have hk := kept_join_ne_nil hnames dir
    have hl : base ++ [n] <+: locationOf (join [dir, path]) := by
      rw [locationOf_join hnames, hdir]
      exact List.prefix_append _ _
    have ha : isAnchor (locationOf (join [dir, path])) = false := by
      rw [locationOf_join hnames]
      exact isAnchor_names (segments_ne_nil path) hnames _
    have hsame : existing d path (join [dir, path]) = existing d' path (join [dir, path]) :=
      existing_congr hc hk h.left h.right path (h.inside n hn _ hl)
        ⟨h.blocked hn hl, h.symm.blocked hn hl⟩
    rw [writeFile_eq hp, writeFile_eq hp, ← hsame]
    cases hold : existing d path (join [dir, path]) with
    | error e => exact .inl ⟨e, rfl, rfl⟩
    | ok old =>
      obtain ⟨hb, hfree⟩ := existing_writable hc hk h.left hold
      rw [ok_bind, ok_bind]
      cases finished path fresh old with
      | error e => exact .inl ⟨e, rfl, rfl⟩
      | ok w =>
        refine .inr ⟨w, _, _, rfl, rfl, ?_⟩
        split
        · exact h.write hn hl ha hb hfree _
        · exact h
  · exact .inl ⟨.invalidPath path, by simp [writeFile, hp], by simp [writeFile, hp]⟩

/-- Writing the same files on two disks that agree gives the same and leaves them in agreement. -/
theorem writeFiles_agree {base : Location} {own : String → Prop} {d d' : Disk} {n dir : String}
    (h : Agree base own d d') (hn : own n) (hdir : locationOf dir = base ++ [n]) (tree : Tree) :
    (writeFiles dir d tree).files = (writeFiles dir d' tree).files ∧
    (writeFiles dir d tree).error = (writeFiles dir d' tree).error ∧
    Agree base own (writeFiles dir d tree).disk (writeFiles dir d' tree).disk := by
  induction tree generalizing d d' with
  | nil => exact ⟨rfl, rfl, h⟩
  | cons file rest ih =>
    obtain ⟨path, fresh⟩ := file
    rcases writeFile_agree h hn hdir path fresh with ⟨e, he, he'⟩ | ⟨w, e, e', he, he', hagree⟩
    · simp only [writeFiles, he, he', true_and]
      exact h
    · obtain ⟨hfiles, herror, hdisk⟩ := ih hagree
      simp only [writeFiles, he, he', hfiles, herror, true_and]
      exact hdisk

end Scaffold.Output
