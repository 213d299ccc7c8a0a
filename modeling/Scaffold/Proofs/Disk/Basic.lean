import Scaffold.Disk.Basic
import Scaffold.Proofs.Disk.Path

/-! # Facts about disks

On a disk whose entries stand in directories, what a clean path names is what is at its location. -/
namespace Scaffold.Disk

/-! ## Writing -/

theorem lookup_cons_ne {k m : Location} (h : k ≠ m) (e : Entry)
    (entries : List (Location × Entry)) :
    ((m, e) :: entries).lookup k = entries.lookup k := by
  have hkm : (k == m) = false := by simpa using h
  simp [List.lookup_cons, hkm]

theorem lookup_without {l k : Location} (h : k ≠ l) (entries : List (Location × Entry)) :
    (without l entries).lookup k = entries.lookup k := by
  induction entries with
  | nil => rfl
  | cons p entries ih =>
    obtain ⟨m, e⟩ := p
    by_cases hm : m = l
    · have hskip : without l ((m, e) :: entries) = without l entries :=
        List.filter_cons_of_neg (by simp [hm])
      rw [hskip, ih, hm, lookup_cons_ne h]
    · have hkeep : without l ((m, e) :: entries) = (m, e) :: without l entries :=
        List.filter_cons_of_pos (by simp [hm])
      rw [hkeep]
      by_cases hk : k = m
      · simp [hk]
      · rw [lookup_cons_ne hk, lookup_cons_ne hk, ih]

theorem lookup_without_self (l : Location) (entries : List (Location × Entry)) :
    (without l entries).lookup l = none := by
  rw [List.lookup_eq_none_iff]
  intro p hp
  have hne : p.1 ≠ l := by simpa using (List.mem_filter.mp hp).2
  simp [Ne.symm hne]

theorem get?_put (d : Disk) (l k : Location) (e : Entry) : (d.put l e).get? k =
    if isAnchor k then some .directory else if k = l then some e else d.get? k := by
  by_cases ha : isAnchor k = true
  · simp [get?, ha]
  · simp only [get?, ha, put, List.lookup_append]
    by_cases hk : k = l
    · subst hk
      simp [lookup_without_self]
    · simp [lookup_without hk, lookup_cons_ne hk, hk]

/-- Making a directory changes a location where nothing was. -/
theorem get?_makeDirectory (d : Disk) (l k : Location) : (d.makeDirectory l).get? k =
    if k = l ∧ d.get? k = none then some .directory else d.get? k := by
  unfold makeDirectory
  by_cases hl : (d.get? l).isSome = true
  · rw [if_pos hl, if_neg]
    rintro ⟨rfl, hnone⟩
    simp [hnone] at hl
  · rw [if_neg hl, get?_put]
    have hnone : d.get? l = none := by simpa using hl
    by_cases ha : isAnchor k = true
    · simp [get?, ha]
    · by_cases hk : k = l
      · simp [hk, hnone]
      · simp [ha, hk]

theorem get?_makeAll (d : Disk) (ls : List Location) (k : Location) :
    (ls.foldl makeDirectory d).get? k =
      if k ∈ ls ∧ d.get? k = none then some .directory else d.get? k := by
  induction ls generalizing d with
  | nil => simp
  | cons l ls ih =>
    rw [List.foldl_cons, ih, get?_makeDirectory]
    by_cases hnone : d.get? k = none
    · by_cases hk : k = l
      · subst hk
        simp [hnone]
      · simp [hk]
    · simp [hnone]

theorem mem_parents {l k : Location} : k ∈ parents l ↔ k <+: l ∧ k ≠ l ∧ k ≠ [] := by
  simp only [parents, List.mem_map, List.mem_range]
  constructor
  · rintro ⟨n, hn, rfl⟩
    refine ⟨List.take_prefix _ _, fun heq => ?_, fun hnil => ?_⟩
    · have hlen := congrArg List.length heq
      rw [List.length_take] at hlen
      omega
    · have hlen := congrArg List.length hnil
      rw [List.length_take, List.length_nil] at hlen
      omega
  · rintro ⟨hpre, hne, hnil⟩
    have hlt : k.length < l.length := by
      rcases Nat.lt_or_ge k.length l.length with hlt | hge
      · exact hlt
      · exact absurd (hpre.eq_of_length_le hge) hne
    have hpos := List.length_pos_iff.mpr hnil
    refine ⟨k.length - 1, by omega, ?_⟩
    rw [Nat.sub_add_cancel hpos]
    exact (List.prefix_iff_eq_take.mp hpre).symm

/-- A write puts a file at its location and directories above it where nothing was. -/
theorem get?_write {l : Location} (hl : isAnchor l = false) (d : Disk) (content : String)
    (k : Location) : (d.write l content).get? k =
      if k = l then some (.file content)
      else if k <+: l ∧ d.get? k = none then some .directory else d.get? k := by
  rw [write, get?_put, get?_makeAll]
  by_cases hk : k = l
  · simp [hk, hl]
  · by_cases ha : isAnchor k = true
    · simp [ha, hk, get?]
    · have hnil : k ≠ [] := by
        rintro rfl
        exact ha rfl
      simp [ha, hk, mem_parents, hnil]

/-! ## Reading -/

theorem isAnchor_of_above {l k : Location} (h : isAnchor l = true) (hk : k <+: l) :
    isAnchor k = true := by
  simp only [isAnchor, Bool.or_eq_true, decide_eq_true_eq] at h ⊢
  rcases h with rfl | h
  · rcases List.prefix_concat_iff.mp (show k <+: [] ++ [""] from hk) with rfl | hk
    · exact .inl rfl
    · rw [List.prefix_nil.mp hk]
      exact .inr rfl
  · exact .inr (List.all_eq_true.mpr fun s hs => List.all_eq_true.mp h s (hk.subset hs))

/-- Everything on the disk stands in directories. -/
def Sound (d : Disk) : Prop :=
  ∀ l e, d.get? l = some e → ∀ k, k <+: l → k ≠ l → d.get? k = some .directory

theorem sound_empty : empty.Sound := by
  intro l e h k hk hne
  have hl : isAnchor l = true := by
    by_contra hnot
    simp [get?, hnot, empty] at h
  rw [get?, if_pos (isAnchor_of_above hl hk)]

/-- A file stands where a directory above the location should be. -/
def Blocked (d : Disk) (l : Location) : Prop :=
  ∃ k content, k <+: l ∧ k ≠ l ∧ d.get? k = some (.file content)

/-- Where clean paths start. -/
def start (rooted : Bool) : Location := if rooted then [""] else []

theorem isAnchor_start (rooted : Bool) : isAnchor (start rooted) = true := by
  cases rooted <;> rfl

theorem follow_cons {rooted : Bool} {before ks : List String} {s : String}
    (h : Normal rooted (before ++ s :: ks)) (d : Disk) :
    d.follow (start rooted ++ before) (s :: ks) =
      match d.get? (start rooted ++ before) with
      | none => .error .missing
      | some (.file _) => .error .notDirectory
      | some .directory => d.follow (start rooted ++ (before ++ [s])) ks := by
  rw [follow]
  cases d.get? (start rooted ++ before) with
  | none => rfl
  | some e =>
    cases e with
    | file content => rfl
    | directory =>
      -- a name leads down; `..` only follows others, so it leads further up
      rcases h before s ks rfl with hs | ⟨rfl, rfl, hall⟩
      · simp [hs.ne_empty, hs.ne_dot, hs.ne_up]
      · have habove : above before = before ++ [".."] := by
          have hne : before ≠ [""] := by
            rintro rfl
            exact absurd (hall "" (by simp)) (by decide)
          have hup : before.all (· == "..") = true := by simpa using hall
          rw [above, if_neg hne, if_pos hup]
        simp [start, habove]

/-- What segments lead to from a location. -/
def lookFrom (d : Disk) (here : Location) (ss : List String) : Except Trouble Entry := do
  let l ← d.follow here ss
  match d.get? l with
  | some e => .ok e
  | none => .error .missing

theorem lookFrom_cons {rooted : Bool} {before ks : List String} {s : String}
    (h : Normal rooted (before ++ s :: ks)) (d : Disk) :
    d.lookFrom (start rooted ++ before) (s :: ks) =
      match d.get? (start rooted ++ before) with
      | none => .error .missing
      | some (.file _) => .error .notDirectory
      | some .directory => d.lookFrom (start rooted ++ (before ++ [s])) ks := by
  rw [lookFrom, follow_cons h]
  cases d.get? (start rooted ++ before) with
  | none => rfl
  | some e => cases e <;> rfl

theorem lookFrom_found {d : Disk} (hd : d.Sound) {rooted : Bool} {before ks : List String}
    {e : Entry} (h : Normal rooted (before ++ ks))
    (he : d.get? (start rooted ++ (before ++ ks)) = some e) :
    d.lookFrom (start rooted ++ before) ks = .ok e := by
  induction ks generalizing before with
  | nil =>
    rw [List.append_nil] at he
    simp [lookFrom, follow, he, bind, Except.bind]
  | cons s ks ih =>
    have hdir := hd _ _ he (start rooted ++ before) (by simp) (by simp)
    rw [lookFrom_cons h, hdir]
    exact ih (by simpa using h) (by simpa using he)

theorem lookFrom_missing {d : Disk} {rooted : Bool} {before ks : List String}
    (h : Normal rooted (before ++ ks)) (he : d.get? (start rooted ++ (before ++ ks)) = none)
    (hb : ¬ d.Blocked (start rooted ++ (before ++ ks))) :
    d.lookFrom (start rooted ++ before) ks = .error .missing := by
  induction ks generalizing before with
  | nil =>
    rw [List.append_nil] at he
    simp [lookFrom, follow, he, bind, Except.bind]
  | cons s ks ih =>
    rw [lookFrom_cons h]
    cases hhere : d.get? (start rooted ++ before) with
    | none => rfl
    | some e =>
      cases e with
      | file content =>
        exact absurd ⟨start rooted ++ before, content, by simp, by simp, hhere⟩ hb
      | directory => exact ih (by simpa using h) (by simpa using he) (by simpa using hb)

theorem lookFrom_blocked {d : Disk} (hd : d.Sound) {rooted : Bool} {before ks : List String}
    (h : Normal rooted (before ++ ks)) {k : Location} {content : String}
    (hk : d.get? k = some (.file content)) (hlow : start rooted ++ before <+: k)
    (hhigh : k <+: start rooted ++ (before ++ ks)) (hne : k ≠ start rooted ++ (before ++ ks)) :
    d.lookFrom (start rooted ++ before) ks = .error .notDirectory := by
  induction ks generalizing before with
  | nil =>
    rw [List.append_nil] at hhigh hne
    exact absurd (hhigh.eq_of_length_le hlow.length_le) hne
  | cons s ks ih =>
    rw [lookFrom_cons h]
    by_cases heq : start rooted ++ before = k
    · rw [heq, hk]
    · rw [hd k _ hk _ hlow heq]
      have hnext : start rooted ++ (before ++ [s]) <+: k := by
        obtain ⟨rest, rfl⟩ := hlow
        cases rest with
        | nil => exact absurd (List.append_nil _).symm heq
        | cons t rest =>
          rw [← List.append_assoc, List.prefix_append_right_inj, List.cons_prefix_cons] at hhigh
          simp [hhigh.1]
      exact ih (by simpa using h) hnext (by simpa using hhigh) (by simpa using hne)

theorem origin_eq_start (p : String) : origin p = start (isAbsolute p) := rfl

/-- A clean path leads to its location. -/
theorem find_clean {p : String} (hc : clean p = p) (hk : kept p ≠ []) (d : Disk) :
    d.find p = d.lookFrom (start (isAbsolute p)) (kept p) := by
  have hne : p ≠ "" := by
    rintro rfl
    exact hk (by decide +kernel)
  have hsegments := segments_clean hk
  rw [hc] at hsegments
  have hlocate : d.locate p = d.follow (start (isAbsolute p)) (kept p) := by
    rw [locate, if_neg hne, hsegments, origin_eq_start]
    cases isAbsolute p with
    | true =>
      rw [if_pos rfl, follow, get?, isAnchor_start, if_pos rfl]
      rfl
    | false => rfl
  rw [find, hlocate]
  rfl

section

variable {d : Disk} {p : String} (hc : clean p = p) (hk : kept p ≠ [])
include hc hk

theorem find_found (hd : d.Sound) {e : Entry} (he : d.get? (origin p ++ kept p) = some e) :
    d.find p = .ok e := by
  have hlook : d.lookFrom (start (isAbsolute p) ++ []) (kept p) = .ok e :=
    lookFrom_found hd (kept_normal p) he
  rwa [List.append_nil, ← find_clean hc hk] at hlook

theorem find_missing (he : d.get? (origin p ++ kept p) = none)
    (hb : ¬ d.Blocked (origin p ++ kept p)) : d.find p = .error .missing := by
  have hlook : d.lookFrom (start (isAbsolute p) ++ []) (kept p) = .error .missing :=
    lookFrom_missing (kept_normal p) he hb
  rwa [List.append_nil, ← find_clean hc hk] at hlook

theorem find_blocked (hd : d.Sound) (hb : d.Blocked (origin p ++ kept p)) :
    d.find p = .error .notDirectory := by
  obtain ⟨k, content, hhigh, hne, hfile⟩ := hb
  have hlow : start (isAbsolute p) ++ [] <+: k := by
    rw [List.append_nil]
    rcases List.prefix_or_prefix_of_prefix hhigh (List.prefix_append (origin p) (kept p)) with h | h
    · have hanchor := isAnchor_of_above (isAnchor_start (isAbsolute p)) h
      simp [get?, hanchor] at hfile
    · exact h
  have hlook : d.lookFrom (start (isAbsolute p) ++ []) (kept p) = .error .notDirectory :=
    lookFrom_blocked hd (kept_normal p) hfile hlow hhigh hne
  rwa [List.append_nil, ← find_clean hc hk] at hlook

/-- What a clean path names depends on its location and on files above it. -/
theorem find_congr {d' : Disk} (hd : d.Sound) (hd' : d'.Sound)
    (hget : d.get? (origin p ++ kept p) = d'.get? (origin p ++ kept p))
    (hb : d.Blocked (origin p ++ kept p) ↔ d'.Blocked (origin p ++ kept p)) :
    d.find p = d'.find p := by
  cases he : d.get? (origin p ++ kept p) with
  | some e => rw [find_found hc hk hd he, find_found hc hk hd' (hget ▸ he)]
  | none =>
    by_cases hblock : d.Blocked (origin p ++ kept p)
    · rw [find_blocked hc hk hd hblock, find_blocked hc hk hd' (hb.mp hblock)]
    · rw [find_missing hc hk he hblock,
        find_missing hc hk (hget ▸ he) fun h => hblock (hb.mpr h)]

end

end Scaffold.Disk
