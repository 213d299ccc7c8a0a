import Scaffold.Proofs.Output.Merge

/-! # Bodies survive every history of a file

A file is generated again and again, and its regions are edited in between. Whatever the order, each
region that ever occurred is there once, with the body that was last given to it. -/
namespace Scaffold.Output

open Scaffold.Text

/-- What happens to a file: it is generated again, or the body of a region is edited. -/
inductive Event
  | regen (fresh : String)
  | edit (id body : String)
  deriving DecidableEq, Repr

/-- A text to generate a file from: its regions can be read, and no line both opens and closes. -/
def Renders (fresh : String) : Prop :=
  (∃ regions, parseRegions fresh = .ok regions) ∧
    ∀ l ∈ lines fresh, (marker? beginMarker l).isSome = true → marker? endMarker l = none

instance (fresh : String) : Decidable (Renders fresh) :=
  decidable_of_iff ((parseRegions fresh).toOption.isSome = true ∧
    ∀ l ∈ lines fresh, (marker? beginMarker l).isSome = true → marker? endMarker l = none) <| by
    unfold Renders
    cases parseRegions fresh <;> simp [Except.toOption]

/-- The files that a sequence of events can lead to, from no file on. -/
inductive History : List Event → Option String → Prop
  | start : History [] none
  | regen {events : List Event} {content : Option String} {fresh text : String}
      (h : History events content) (hf : Renders fresh)
      (hm : mergeRegions fresh content = .ok text) :
      History (events ++ [.regen fresh]) (some text)
  | edit {events : List Event} {text body : String} {before after : List Chunk} {r : Region}
      (h : History events (some text)) (hr : parseChunks text = .ok (before ++ .region r :: after))
      (hb : WholeLines body) :
      History (events ++ [.edit r.id body]) (some (String.join (before.map Chunk.text) ++
        (r.opening ++ body ++ r.closing) ++ String.join (after.map Chunk.text)))

/-- The body that an event renders for a region. -/
def Event.rendered? (id : String) : Event → Option String
  | regen fresh => (parseRegions fresh).toOption.bind (bodyOf · id)
  | edit .. => none

/-- The body that an event gives to a region by hand. -/
def Event.edited? (id : String) : Event → Option String
  | regen _ => none
  | edit changed body => if changed = id then some body else none

/-- The body that a region should have: that of its last edit, else that of its first rendering. -/
def expected? (events : List Event) (id : String) : Option String :=
  (events.filterMap (Event.edited? id)).getLast?.or (events.findSome? (Event.rendered? id))

theorem expected?_regen {events : List Event} {fresh : String} {chunks : List Chunk}
    (h : Reads fresh chunks) (id : String) : expected? (events ++ [.regen fresh]) id =
      (expected? events id).or (bodyOf (regionsOf chunks) id) := by
  have hparse : parseRegions fresh = .ok (regionsOf chunks) := by
    rw [parseRegions, parseChunks_eq_ok.mpr h]
    rfl
  simp [expected?, Event.edited?, Event.rendered?, hparse, Except.toOption, List.findSome?_append,
    Option.or_assoc]

theorem expected?_edit (events : List Event) (changed body id : String) :
    expected? (events ++ [.edit changed body]) id =
      if changed = id then some body else expected? events id := by
  by_cases h : changed = id <;>
    simp [expected?, Event.edited?, Event.rendered?, h, List.findSome?_append]

/-! ## One step -/

theorem Renders.reads {fresh : String} (h : Renders fresh) :
    ∃ chunks, Reads fresh chunks ∧ Guarded chunks := by
  obtain ⟨⟨regions, hr⟩, hlines⟩ := h
  cases hparse : parseChunks fresh with
  | error e => simp [parseRegions, hparse] at hr
  | ok chunks =>
    have hreads := parseChunks_eq_ok.mp hparse
    refine ⟨chunks, hreads, fun r hmem => hlines r.opening ?_ ?_⟩
    · rw [hreads.join, lines_join hreads.lined]
      exact List.mem_flatMap.mpr ⟨_, mem_regionsOf.mp hmem, .head _⟩
    · have hopens : r.Marked := hreads.sound.marked _ (mem_regionsOf.mp hmem)
      rw [hopens.opens]
      rfl

/-- A regeneration succeeds, and a body that was there stays. -/
theorem regen_step {fresh text : String} {before : List Chunk} (hf : Renders fresh)
    (ht : Reads text before) (hg : Guarded before) :
    ∃ merged chunks result, mergeRegions fresh (some text) = .ok merged ∧ Reads fresh chunks ∧
      Reads merged result ∧ Guarded result ∧ ∀ id, bodyOf (regionsOf result) id =
        (bodyOf (regionsOf before) id).or (bodyOf (regionsOf chunks) id) := by
  obtain ⟨chunks, hreads, hguard⟩ := hf.reads
  obtain ⟨merged, result, hm, hr, hrg, hbody⟩ := mergeRegions_ok hreads hguard ht hg
  exact ⟨merged, chunks, result, hm, hreads, hr, hrg, hbody⟩

/-- The body of a region after an edit. -/
def editedBody (changed body : String) (r : Region) : List String :=
  if r.id = changed then lines body else r.body

theorem map_editedBody {chunks : List Chunk} {changed body : String}
    (h : changed ∉ (regionsOf chunks).map (·.id)) :
    chunks.map (Chunk.map id (Region.withBody (editedBody changed body))) = chunks := by
  refine (List.map_congr_left fun c hc => ?_).trans (List.map_id _)
  cases c with
  | line l => rfl
  | region r =>
    have hne : r.id ≠ changed := fun heq => h (List.mem_map.mpr ⟨r, mem_regionsOf.mpr hc, heq⟩)
    simp [Chunk.map, Region.withBody, editedBody, hne]

theorem bodyOf_edited (regions : List Region) (changed body id : String) :
    bodyOf (regions.map (Region.withBody (editedBody changed body))) id =
      if changed = id ∧ (bodyOf regions changed).isSome then some body else bodyOf regions id := by
  rw [bodyOf_map (Region.withBody (editedBody changed body)) fun _ => rfl]
  cases hq : regions.find? (·.id == id) with
  | none =>
    have hnone : bodyOf regions id = none := by simp only [bodyOf, hq, Option.map_none]
    rw [hnone, Option.map_none, if_neg]
    rintro ⟨rfl, hsome⟩
    simp [hnone] at hsome
  | some q =>
    have hid : q.id = id := by simpa using List.find?_some hq
    have hsome : bodyOf regions id = some q.bodyText := by simp only [bodyOf, hq, Option.map_some]
    by_cases hc : changed = id
    · simp [hc, hsome, Region.withBody, editedBody, hid, Region.bodyText, join_lines]
    · have hne : q.id ≠ changed := fun heq => hc (heq.symm.trans hid)
      simp [hc, hsome, Region.withBody, editedBody, hne, Region.bodyText]

/-- An edit changes the body of its region and no other. -/
theorem edit_step {text body : String} {before after : List Chunk} {r : Region}
    (ht : Reads text (before ++ .region r :: after))
    (hg : Guarded (before ++ .region r :: after)) (hb : WholeLines body) :
    ∃ result, Reads (String.join (before.map Chunk.text) ++ (r.opening ++ body ++ r.closing) ++
        String.join (after.map Chunk.text)) result ∧ Guarded result ∧
      ∀ id, bodyOf (regionsOf result) id = if r.id = id then some body
        else bodyOf (regionsOf (before ++ .region r :: after)) id := by
  have hregions := regionsOf_map id (Region.withBody (editedBody r.id body))
    (before ++ .region r :: after)
  have hlines : ∀ q ∈ regionsOf (before ++ .region r :: after),
      ∀ l ∈ editedBody r.id body q, IsLine l ∧ Plain l := by
    intro q hq l hl
    unfold editedBody at hl
    split at hl
    next => exact ⟨isLine_of_endsWith hb.1 l hl, hb.2 l hl⟩
    next =>
      have hq := ht.complete hq
      exact ⟨hq.body l hl, hq.marked.plain l hl⟩
  have hreads := ht.withBody hlines
  have hnodup := ht.sound.nodup
  rw [regionsOf_append, List.map_append, List.nodup_append'] at hnodup
  obtain ⟨-, hafter, hdisjoint⟩ := hnodup
  have hin : r.id ∈ (regionsOf (.region r :: after)).map (·.id) := .head _
  have hchunks : (before ++ .region r :: after).map
      (Chunk.map id (Region.withBody (editedBody r.id body))) =
      before ++ .region { r with body := lines body } :: after := by
    rw [List.map_append, List.map_cons, map_editedBody fun hmem => hdisjoint hmem hin,
      map_editedBody (List.nodup_cons.mp hafter).1]
    simp [Chunk.map, Region.withBody, editedBody]
  refine ⟨(before ++ .region r :: after).map
    (Chunk.map id (Region.withBody (editedBody r.id body))), ?_, ?_, fun id => ?_⟩
  · have htext : String.join ((before ++ .region { r with body := lines body } :: after).map
        Chunk.text) = String.join (before.map Chunk.text) ++ (r.opening ++ body ++ r.closing) ++
          String.join (after.map Chunk.text) := by
      simp [Chunk.text, Region.text, join_lines, String.append_assoc]
    rw [← htext, ← hchunks]
    exact hreads
  · intro q hq
    rw [hregions] at hq
    obtain ⟨p, hp, rfl⟩ := List.mem_map.mp hq
    exact hg p hp
  · have hmem : r ∈ regionsOf (before ++ .region r :: after) := mem_regionsOf.mpr (by simp)
    rw [hregions, bodyOf_edited, bodyOf_isSome.mpr (List.mem_map_of_mem hmem)]
    simp

/-! ## Histories -/

/-- What holds of a file after a sequence of events. -/
def Kept (events : List Event) : Option String → Prop
  | none => events = []
  | some text => ∃ chunks, Reads text chunks ∧ Guarded chunks ∧
      ∀ id, bodyOf (regionsOf chunks) id = expected? events id

theorem Kept.regen {events : List Event} {content : Option String} {fresh : String}
    (h : Kept events content) (hf : Renders fresh) :
    ∃ text, mergeRegions fresh content = .ok text ∧
      Kept (events ++ [.regen fresh]) (some text) := by
  cases content with
  | none =>
    obtain ⟨chunks, hreads, hguard⟩ := hf.reads
    have hmerge : mergeRegions fresh none = .ok fresh := by
      simp only [mergeRegions, parseChunks_eq_ok.mpr hreads]
      rfl
    refine ⟨fresh, hmerge, chunks, hreads, hguard, fun id => ?_⟩
    rw [expected?_regen hreads, show events = [] from h]
    rfl
  | some text =>
    obtain ⟨before, ht, hg, hbody⟩ := h
    obtain ⟨merged, chunks, result, hm, hreads, hr, hrg, hnext⟩ := regen_step hf ht hg
    refine ⟨merged, hm, result, hr, hrg, fun id => ?_⟩
    rw [hnext, hbody, expected?_regen hreads]

theorem History.kept {events : List Event} {content : Option String} (h : History events content) :
    Kept events content := by
  induction h with
  | start => rfl
  | regen h hf hm ih =>
    obtain ⟨text, hm', hkept⟩ := ih.regen hf
    rw [hm] at hm'
    cases hm'
    exact hkept
  | edit h hr hb ih =>
    obtain ⟨chunks, ht, hg, hbody⟩ := ih
    have hparse := parseChunks_eq_ok.mpr ht
    rw [hr] at hparse
    cases hparse
    obtain ⟨result, hreads, hguard, hnext⟩ := edit_step ht hg hb
    refine ⟨result, hreads, hguard, fun id => ?_⟩
    rw [hnext, hbody, expected?_edit]

theorem filter_bodyText {regions : List Region} (h : (regions.map (·.id)).Nodup) (id : String) :
    (regions.filter (·.id == id)).map Region.bodyText = (bodyOf regions id).toList := by
  induction regions with
  | nil => rfl
  | cons r regions ih =>
    obtain ⟨hnew, hnodup⟩ := List.nodup_cons.mp h
    by_cases hid : r.id = id
    · have hnone : regions.filter (·.id == id) = [] := by
        rw [List.filter_eq_nil_iff]
        intro q hq heq
        exact hnew (List.mem_map.mpr ⟨q, hq, (beq_iff_eq.mp heq).trans hid.symm⟩)
      simp [bodyOf, hid, hnone]
    · have hrest := ih hnodup
      simpa [bodyOf, hid] using hrest

theorem isSome_expected? {events : List Event} {id : String} {e : Event} (he : e ∈ events)
    (h : (e.rendered? id).isSome = true) : (expected? events id).isSome = true := by
  have hfound : (events.findSome? (Event.rendered? id)).isSome = true := by
    rw [List.findSome?_isSome_iff]
    exact ⟨e, he, h⟩
  simp [expected?, hfound]

/-- After every history the next regeneration succeeds, and every region that was ever rendered is
in the file once, with the body of its last edit or else of its first rendering. No other region is
in the file. -/
theorem history_keeps_bodies {events : List Event} {content : Option String}
    (h : History events content) :
    (∀ fresh, Renders fresh → ∃ text, mergeRegions fresh content = .ok text) ∧
    (∀ e ∈ events, ∀ id, (e.rendered? id).isSome = true → (expected? events id).isSome = true) ∧
    ∀ text, content = some text → ∃ regions, parseRegions text = .ok regions ∧
      ∀ id, (regions.filter (·.id == id)).map Region.bodyText = (expected? events id).toList := by
  have hkept := h.kept
  refine ⟨fun fresh hf => ?_, fun e he id => isSome_expected? he, ?_⟩
  · obtain ⟨text, hm, -⟩ := hkept.regen hf
    exact ⟨text, hm⟩
  · rintro text rfl
    obtain ⟨chunks, hreads, -, hbody⟩ := hkept
    refine ⟨regionsOf chunks, ?_, fun id => ?_⟩
    · rw [parseRegions, parseChunks_eq_ok.mpr hreads]
      rfl
    · rw [filter_bodyText hreads.sound.nodup, hbody]

/-- A text with one region. -/
def note (body : String) : String := region "#" "a" body

/-- The region of a note. -/
def noteRegion : Region :=
  ⟨"a", "# ", "# stalmer:custom:begin a\n", ["old\n"], "# stalmer:custom:end a\n"⟩

/-- A region is edited, loses its place, and comes back. -/
theorem history_lost_and_found :
    History [.regen (note "old"), .edit "a" "mine\n", .regen "top", .regen (note "old")]
      (some (note "mine")) ∧
    ∃ regions, parseRegions (note "mine") = .ok regions ∧
      (regions.filter (·.id == "a")).map Region.bodyText = ["mine\n"] := by
  have hfirst : History [.regen (note "old")] (some (note "old")) :=
    .regen .start (by decide +kernel) (by decide +kernel)
  have hparse : parseChunks (note "old") = .ok ([] ++ .region noteRegion :: []) := by
    decide +kernel
  have hedit : History [.regen (note "old"), .edit "a" "mine\n"] (some (note "mine")) :=
    .edit hfirst hparse (by decide +kernel)
  have hlost : History [.regen (note "old"), .edit "a" "mine\n", .regen "top"]
      (some ("top\n# stalmer:custom:orphaned a\n" ++ note "mine")) :=
    .regen hedit (by decide +kernel) (by decide +kernel)
  have hfound : History
      [.regen (note "old"), .edit "a" "mine\n", .regen "top", .regen (note "old")]
      (some (note "mine")) :=
    .regen hlost (by decide +kernel) (by decide +kernel)
  obtain ⟨regions, hr, hbody⟩ := (history_keeps_bodies hfound).2.2 (note "mine") rfl
  have hexpected : expected?
      [.regen (note "old"), .edit "a" "mine\n", .regen "top", .regen (note "old")] "a" =
        some "mine\n" := by decide +kernel
  refine ⟨hfound, regions, hr, ?_⟩
  rw [hbody, hexpected]
  rfl

end Scaffold.Output
