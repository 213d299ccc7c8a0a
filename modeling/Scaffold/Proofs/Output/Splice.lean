import Scaffold.Proofs.Output.Merge
import Scaffold.Proofs.Unguarded.Region

/-! # The text of a merge

A merge writes the new text line by line with the old bodies in its regions, and behind it one block
for each region that the new text no longer has. The text is cut again while it is written, and a
region ends there at any line that closes its own name; both texts have been read before, so this is
where the region ends.

A merge is meant to be its own result when the same text is merged into it. The line over a region
that lost its place copies what stood before the begin marker. With an end marker in there that line
closes a region that was never opened, and nothing can be merged into the file any more; in every
other case merging again changes nothing. -/
namespace Scaffold.Output

open Scaffold.Text

/-- Lines with their regions, and the text made of them: a region has the body that `old` gives to
its name, and everything else stays as it is. -/
inductive Spliced (old : List Region) : List String → List Region → String → Prop
  | nil : Spliced old [] [] ""
  | line {l : String} {ls : List String} {rs : List Region} {kept : String} (plain : Plain l)
      (rest : Spliced old ls rs kept) : Spliced old (l :: ls) rs (l ++ kept)
  | region {r : Region} {ls : List String} {rs : List Region} {kept : String} (marked : r.Marked)
      (rest : Spliced old ls rs kept) :
    Spliced old (r.opening :: r.body ++ r.closing :: ls) (r :: rs)
      (r.opening ++ (bodyOf old r.id).getD r.bodyText ++ r.closing ++ kept)

/-- A region as it stands behind a text that does not have it. -/
def orphanBlock (r : Region) : String :=
  r.lead ++ "stalmer:custom:orphaned " ++ r.id ++ "\n" ++ r.opening ++ r.bodyText ++
    closeLine r.closing

/-- A text with the blocks of regions behind, the first of them on a new line. -/
def withBlocks (kept : String) (orphans : List Region) : String :=
  if orphans = [] then kept
  else (if kept = "" then "" else closeLine kept) ++ String.join (orphans.map orphanBlock)

theorem orphan_eq (r : Region) : r.orphan = orphanBlock r := by
  have hmarker (rest : String) :
      orphanMarker ++ (" " ++ rest) = "stalmer:custom:orphaned " ++ rest := by
    rw [← String.append_assoc]
    rfl
  simp only [Region.orphan, orphanBlock, Region.bodyText, String.append_assoc, hmarker]

theorem foldl_orphans (kept : String) (orphans : List Region) :
    (orphans.map Region.orphan).foldl appendLine kept = withBlocks kept orphans := by
  unfold withBlocks
  split
  next hnil => rw [hnil, List.map_nil, List.foldl_nil]
  next hne =>
    have hends : ∀ t ∈ orphans.map Region.orphan, endsWith t "\n" = true :=
      List.forall_mem_map.mpr fun r _ => endsWith_orphan r
    have hblocks : orphans.map Region.orphan = orphans.map orphanBlock :=
      List.map_congr_left fun r _ => orphan_eq r
    rw [foldl_appendLine hends (by simpa using hne), hblocks, appendLine]
    split
    next hempty => rw [hempty]
    next => rfl

theorem parseRegions_eq_ok {text : String} {regions : List Region} :
    parseRegions text = .ok regions ↔ ∃ chunks, Reads text chunks ∧ regions = regionsOf chunks := by
  cases h : parseChunks text with
  | error e =>
    simp only [parseRegions, h, ← parseChunks_eq_ok]
    constructor
    · intro hr
      cases hr
    · rintro ⟨chunks, hc, -⟩
      cases hc
  | ok chunks =>
    simp only [parseRegions, h, ← parseChunks_eq_ok]
    constructor
    · exact fun hr => ⟨chunks, rfl, (Except.ok.inj hr).symm⟩
    · rintro ⟨_, hc, hr⟩
      cases hc
      rw [hr]
      rfl

theorem parseRegions_error {text : String} {e : RegionError} :
    parseRegions text = .error e ↔ parseChunks text = .error e := by
  cases h : parseChunks text <;> simp [parseRegions, h]

/-- The region of a name in the new text, with the body that the old text gives it. -/
theorem text_adopt_region (old : List Region) (r : Region) :
    ((Chunk.region r).adopt old).text =
      r.opening ++ (bodyOf old r.id).getD r.bodyText ++ r.closing := by
  rw [Chunk.adopt, bodyOf]
  cases old.find? (·.id == r.id) <;> rfl

theorem spliced_chunks (old : List Region) {chunks : List Chunk} (h : ∀ c ∈ chunks, c.Marked) :
    Spliced old (chunks.flatMap Chunk.lines) (regionsOf chunks)
      (String.join (chunks.map fun c => (c.adopt old).text)) := by
  induction chunks with
  | nil => exact .nil
  | cons c chunks ih =>
    obtain ⟨hc, hrest⟩ := List.forall_mem_cons.mp h
    rw [List.flatMap_cons, List.map_cons, String.join_cons]
    cases c with
    | line l => exact .line hc (ih hrest)
    | region r =>
      rw [text_adopt_region, regionsOf_region]
      have hlines : (Chunk.region r).lines ++ chunks.flatMap Chunk.lines =
          r.opening :: r.body ++ r.closing :: chunks.flatMap Chunk.lines := by
        simp [Chunk.lines]
      rw [hlines]
      exact .region hc (ih hrest)

/-- Where both texts can be read, the lines of the new one are spliced, and cutting them anew gives
the same. -/
theorem mergeRegions_spliced {fresh text : String} {chunks before : List Chunk}
    (hf : Reads fresh chunks) (ht : Reads text before) :
    ∃ kept, Spliced (regionsOf before) (lines fresh) (regionsOf chunks) kept ∧
      Unguarded.mergeFrom? (regionsOf before) (lines fresh) 0 = some kept ∧
      mergeRegions fresh (some text) =
        .ok (withBlocks kept (lost (regionsOf before) (regionsOf chunks))) := by
  have hlines : lines fresh = chunks.flatMap Chunk.lines := by
    rw [hf.join, lines_join hf.lined]
  have htexts : (adopted (regionsOf before) chunks).map Chunk.text =
      chunks.map fun c => (c.adopt (regionsOf before)).text := by
    simp [adopted, adopt_eq_map]
  refine ⟨_, hlines ▸ spliced_chunks (regionsOf before) hf.sound.marked,
    Unguarded.mergeFrom?_eq (regionsOf before) [] hlines hf.sound.marked, ?_⟩
  rw [mergeRegions_eq hf ht, foldl_orphans, htexts]

/-- What a merge with a file gives, and when it fails: the new text with the old bodies in its
regions and everything else as it was, and behind it the regions of the file that the new text does
not have. It fails where one of the texts cannot be read. -/
theorem mergeRegions_spec (fresh text : String) :
    (∀ m, mergeRegions fresh (some text) = .ok m ↔
      ∃ regions old kept, parseRegions fresh = .ok regions ∧ parseRegions text = .ok old ∧
        Spliced old (lines fresh) regions kept ∧
        Unguarded.mergeFrom? old (lines fresh) 0 = some kept ∧
        m = withBlocks kept (lost old regions)) ∧
      ∀ e, mergeRegions fresh (some text) = .error e ↔
        (∃ x, parseRegions fresh = .error x ∧ e = .generated x) ∨
          ∃ regions x, parseRegions fresh = .ok regions ∧ parseRegions text = .error x ∧
            e = .existing x := by
  cases hfresh : parseRegions fresh with
  | error x =>
    have hmerge : mergeRegions fresh (some text) = .error (.generated x) := by
      simp [mergeRegions, parseRegions_error.mp hfresh, Except.mapError, bind, Except.bind]
    simp [hmerge, eq_comm]
  | ok regions =>
    obtain ⟨chunks, hf, rfl⟩ := parseRegions_eq_ok.mp hfresh
    cases htext : parseRegions text with
    | error x =>
      have hmerge : mergeRegions fresh (some text) = .error (.existing x) := by
        simp [mergeRegions, parseChunks_eq_ok.mpr hf, htext, Except.mapError, bind, Except.bind]
      simp [hmerge, eq_comm]
    | ok old =>
      obtain ⟨before, ht, rfl⟩ := parseRegions_eq_ok.mp htext
      obtain ⟨kept, hspliced, hloop, hmerge⟩ := mergeRegions_spliced hf ht
      rw [hmerge]
      constructor
      · intro m
        constructor
        · intro h
          cases h
          exact ⟨_, _, kept, rfl, rfl, hspliced, hloop, rfl⟩
        · rintro ⟨_, _, kept', ⟨rfl⟩, ⟨rfl⟩, -, hloop', rfl⟩
          rw [Option.some.inj (hloop.symm.trans hloop')]
      · simp

/-! ## Regions of a merge -/

section Merged

variable {fresh text : String} {chunks before : List Chunk}

theorem orphan_close {r : Region} (h : r.Complete) : r.close.orphan = r.orphan := by
  simp only [Region.orphan, Region.close, closeLine_of_isLine h.closing]

/-- A merge has no other regions without a place than those it kept. -/
theorem lost_merged (old : List Region) (chunks : List Chunk) :
    lost (regionsOf (mergedChunks old chunks)) (regionsOf chunks) =
      (lost old (regionsOf chunks)).map Region.close := by
  have hadopted : lost (regionsOf (adopted old chunks)) (regionsOf chunks) = [] := by
    refine List.filter_eq_nil_iff.mpr fun r hr => ?_
    have hid : r.id ∈ (regionsOf (adopted old chunks)).map (·.id) := List.mem_map_of_mem hr
    rw [ids_adopted] at hid
    simpa using hid
  have hlost : lost (lost old (regionsOf chunks)) (regionsOf chunks) =
      lost old (regionsOf chunks) := by
    simp [lost]
  rw [mergedChunks]
  by_cases hne : lost old (regionsOf chunks) = []
  · rw [hne, withOrphans, if_pos rfl, hadopted, List.map_nil]
  · have hclose (rs : List Region) : lost (rs.map Region.close) (regionsOf chunks) =
        (lost rs (regionsOf chunks)).map Region.close := List.filter_map
    have happend (rs qs : List Region) : lost (rs ++ qs) (regionsOf chunks) =
        lost rs (regionsOf chunks) ++ lost qs (regionsOf chunks) := List.filter_append _ _
    rw [regionsOf_withOrphans _ hne, hclose, happend, hadopted, hlost, List.nil_append]

/-- In a merge each region of the new text is found with the body that it has got. -/
theorem adoptedBody_merged {old : List Region}
    (h : ((regionsOf (mergedChunks old chunks)).map (·.id)).Nodup) {r : Region}
    (hr : r ∈ regionsOf chunks) :
    adoptedBody (regionsOf (mergedChunks old chunks)) r = adoptedBody old r := by
  have hmem : r.withBody (adoptedBody old) ∈ regionsOf (adopted old chunks) := by
    rw [regionsOf_adopted]
    exact List.mem_map_of_mem hr
  obtain ⟨p, hp, hid, hbody⟩ : ∃ p ∈ regionsOf (mergedChunks old chunks),
      p.id = r.id ∧ p.body = adoptedBody old r := by
    rw [mergedChunks]
    by_cases hne : lost old (regionsOf chunks) = []
    · rw [hne, withOrphans, if_pos rfl]
      exact ⟨_, hmem, rfl, rfl⟩
    · rw [regionsOf_withOrphans _ hne]
      exact ⟨_, List.mem_map_of_mem (List.mem_append_left _ hmem), rfl, rfl⟩
  rw [adoptedBody]
  split
  next previous hfind =>
    have hprevious : previous.id = r.id := by simpa using List.find?_some hfind
    have hmem := List.mem_of_find?_eq_some hfind
    obtain rfl := List.inj_on_of_nodup_map h hmem hp (hprevious.trans hid.symm)
    exact hbody
  next hfind =>
    have hne := List.find?_eq_none.mp hfind p hp
    simp [hid] at hne

/-- Where a merge can be read, merging again gives it back. -/
theorem mergeRegions_merged (hf : Reads fresh chunks) (ht : Reads text before) {m : String}
    (hm : Reads m (mergedChunks (regionsOf before) chunks))
    (h : mergeRegions fresh (some text) = .ok m) : mergeRegions fresh (some m) = .ok m := by
  have hadopted : adopted (regionsOf (mergedChunks (regionsOf before) chunks)) chunks =
      adopted (regionsOf before) chunks := by
    refine List.map_congr_left fun c hc => ?_
    cases c with
    | line l => rfl
    | region r =>
      have hbody := adoptedBody_merged hm.sound.nodup (mem_regionsOf.mpr hc)
      simp only [Chunk.map, Region.withBody, hbody]
  have horphans : ((lost (regionsOf before) (regionsOf chunks)).map Region.close).map
      Region.orphan = (lost (regionsOf before) (regionsOf chunks)).map Region.orphan := by
    rw [List.map_map]
    exact List.map_congr_left fun r hr => orphan_close (ht.complete (mem_lost.mp hr).1)
  rw [mergeRegions_eq hf hm, hadopted, lost_merged, horphans, ← mergeRegions_eq hf ht, h]

/-- An end marker before the begin marker of a lost region closes something in the line over it,
where no region is open. -/
theorem strayEnd_merged (hf : Reads fresh chunks) (ht : Reads text before) {m : String}
    (h : mergeRegions fresh (some text) = .ok m)
    (hstuck : ∃ r ∈ lost (regionsOf before) (regionsOf chunks), ¬ r.Movable) :
    ∃ n id, parseChunks m = .error (.strayEnd n id) := by
  obtain ⟨q, hq, hqstuck⟩ := hstuck
  -- Before the first such region everything can be read.
  obtain ⟨r, hfirst⟩ : ∃ r, (lost (regionsOf before) (regionsOf chunks)).find?
      (fun r => !decide r.Movable) = some r := by
    rw [← Option.isSome_iff_exists, List.find?_isSome]
    exact ⟨q, hq, by simpa using hqstuck⟩
  obtain ⟨hr, pre, post, hsplit, hpre⟩ := List.find?_eq_some_iff_append.mp hfirst
  have hr : ¬ r.Movable := by simpa using hr
  have hne : lost (regionsOf before) (regionsOf chunks) ≠ [] := List.ne_nil_of_mem hq
  have hcomplete : ∀ r ∈ lost (regionsOf before) (regionsOf chunks), r.Complete :=
    fun r hr => ht.complete (mem_lost.mp hr).1
  have hadopted := hf.adopted ht
  have hsub : ∀ p ∈ pre, p ∈ lost (regionsOf before) (regionsOf chunks) := fun p hp => by
    rw [hsplit]
    exact List.mem_append_left _ hp
  have hsound : Sound [] (closed (adopted (regionsOf before) chunks) ++
      pre.flatMap orphanChunks) := by
    refine hadopted.sound.closed_orphans (fun p hp => ⟨hcomplete p (hsub p hp), ?_⟩) ?_
      fun p hp => ?_
    · simpa using hpre p hp
    · have hnodup : ((lost (regionsOf before) (regionsOf chunks)).map (·.id)).Nodup :=
        ht.sound.nodup.sublist (List.filter_sublist.map _)
      rw [hsplit, List.map_append] at hnodup
      exact hnodup.of_append_left
    · rw [ids_adopted]
      exact (mem_lost.mp (hsub p hp)).2
  have hlines : lines m = (closed (adopted (regionsOf before) chunks) ++
      pre.flatMap orphanChunks).flatMap Chunk.lines ++
        orphanLine r.lead r.id :: (r.close.opening :: r.close.body ++ r.close.closing ::
          (post.flatMap orphanChunks).flatMap Chunk.lines) := by
    rw [mergeRegions_eq hf ht] at h
    obtain rfl := Except.ok.inj h
    rw [join_withOrphans hadopted,
      lines_join (lined_of_isLine (isLine_withOrphans hadopted hcomplete hne)), withOrphans,
      if_neg hne, hsplit]
    simp [orphanChunks, Chunk.lines]
  obtain ⟨lead, id, hend⟩ := end_orphanLine_of_infix r.id (not_not.mp hr)
  have hbegin : marker? beginMarker (orphanLine r.lead r.id) = none := by
    refine begin_orphanLine (hcomplete r ?_).marked.opens
    rw [hsplit]
    exact List.mem_append_right _ (.head _)
  rw [parseChunks, hlines, chunksFrom_append hsound, chunksFrom]
  simp only [hbegin, hend]
  exact ⟨_, id, rfl⟩

end Merged

/-! ## The same merge twice -/

/-- The regions of a file that the new text does not have. -/
def lostFrom (fresh : String) : Option String → List Region
  | none => []
  | some text =>
    match parseRegions fresh, parseRegions text with
    | .ok regions, .ok old => lost old regions
    | _, _ => []

theorem lostFrom_eq {fresh text : String} {chunks before : List Chunk} (hf : Reads fresh chunks)
    (ht : Reads text before) :
    lostFrom fresh (some text) = lost (regionsOf before) (regionsOf chunks) := by
  have hregions {t : String} {cs : List Chunk} (h : Reads t cs) :
      parseRegions t = .ok (regionsOf cs) := by
    rw [parseRegions, parseChunks_eq_ok.mpr h]
    rfl
  simp only [lostFrom, hregions hf, hregions ht]

/-- What a merge succeeds with has been read. -/
theorem reads_of_mergeRegions {fresh text m : String}
    (h : mergeRegions fresh (some text) = .ok m) :
    ∃ chunks before, Reads fresh chunks ∧ Reads text before := by
  cases hfresh : parseChunks fresh with
  | error e => simp [mergeRegions, hfresh, Except.mapError, bind, Except.bind] at h
  | ok chunks =>
    cases htext : parseChunks text with
    | error e =>
      simp [mergeRegions, hfresh, parseRegions, htext, Except.mapError, bind, Except.bind] at h
    | ok before => exact ⟨chunks, before, parseChunks_eq_ok.mp hfresh, parseChunks_eq_ok.mp htext⟩

/-- Merging a text into its own merge gives the same merge, unless a region of the file has lost its
place and has an end marker before its begin marker; then it fails. -/
theorem mergeRegions_again {fresh : String} {existing : Option String} {m : String}
    (h : mergeRegions fresh existing = .ok m) (m' : String) :
    mergeRegions fresh (some m) = .ok m' ↔
      m' = m ∧ ∀ r ∈ lostFrom fresh existing, r.Movable := by
  have hself (hagain : mergeRegions fresh (some m) = .ok m) :
      mergeRegions fresh (some m) = .ok m' ↔ m' = m := by
    rw [hagain]
    exact ⟨fun h => (Except.ok.inj h).symm, fun h => by rw [h]⟩
  cases existing with
  | none =>
    obtain ⟨rfl, chunks, hchunks⟩ := mergeRegions_none.mp h
    simpa [lostFrom] using hself (mergeRegions_self hchunks)
  | some text =>
    obtain ⟨chunks, before, hf, ht⟩ := reads_of_mergeRegions h
    rw [lostFrom_eq hf ht]
    by_cases hmovable : ∀ r ∈ lost (regionsOf before) (regionsOf chunks), r.Movable
    · have hreads := reads_merged hf ht hmovable
      rw [mergeRegions_eq hf ht] at h
      rw [Except.ok.inj h] at hreads
      rw [← mergeRegions_eq hf ht] at h
      rw [hself (mergeRegions_merged hf ht hreads h)]
      exact (and_iff_left hmovable).symm
    · obtain ⟨n, id, hstray⟩ := strayEnd_merged hf ht h (by simpa using hmovable)
      have hfails : mergeRegions fresh (some m) = .error (.existing (.strayEnd n id)) := by
        simp [mergeRegions, parseChunks_eq_ok.mpr hf, parseRegions, hstray, Except.mapError, bind,
          Except.bind]
      rw [hfails]
      constructor
      · intro hok
        cases hok
      · exact fun hok => absurd hok.2 hmovable

theorem gone_again :
    mergeRegions "new" (some "// stalmer:custom:begin a\nkeep\n// stalmer:custom:end a") =
        .ok ("new\n// stalmer:custom:orphaned a\n" ++
          "// stalmer:custom:begin a\nkeep\n// stalmer:custom:end a\n") ∧
      ∀ m', mergeRegions "new" (some ("new\n// stalmer:custom:orphaned a\n" ++
          "// stalmer:custom:begin a\nkeep\n// stalmer:custom:end a\n")) = .ok m' ↔
        m' = "new\n// stalmer:custom:orphaned a\n" ++
          "// stalmer:custom:begin a\nkeep\n// stalmer:custom:end a\n" ∧
        ∀ r ∈ lostFrom "new" (some
          "// stalmer:custom:begin a\nkeep\n// stalmer:custom:end a"), r.Movable :=
  have h : mergeRegions "new"
      (some "// stalmer:custom:begin a\nkeep\n// stalmer:custom:end a") =
        .ok ("new\n// stalmer:custom:orphaned a\n" ++
          "// stalmer:custom:begin a\nkeep\n// stalmer:custom:end a\n") := by decide +kernel
  ⟨h, mergeRegions_again h⟩

/-- The region of this file has an end marker before its begin marker. It can be merged once. -/
theorem trapped_fails : ∃ m,
    mergeRegions "" (some ("// stalmer:custom:end x // stalmer:custom:begin a\n" ++
      "// stalmer:custom:end a\n")) = .ok m ∧
    mergeRegions "" (some m) = .error (.existing (.strayEnd 1 "x")) :=
  ⟨"// stalmer:custom:end x // stalmer:custom:orphaned a\n" ++
    "// stalmer:custom:end x // stalmer:custom:begin a\n// stalmer:custom:end a\n",
    by decide +kernel, by decide +kernel⟩

end Scaffold.Output
