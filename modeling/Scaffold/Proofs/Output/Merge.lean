import Scaffold.Proofs.Output.Chunk

/-! # What a merge keeps

A merge of two texts that can be read can be read again, and each of its regions has the body that
the old text gives it, or else the one of the new text. A text keeps its own regions, so a merge
with itself gives it back. -/
namespace Scaffold.Output

open Scaffold.Text

/-- The body of a region as one text. -/
def Region.bodyText (r : Region) : String := String.join r.body

/-- The body of the region of a name. -/
def bodyOf (regions : List Region) (id : String) : Option String :=
  (regions.find? (·.id == id)).map Region.bodyText

/-- No line that opens a region also closes one. -/
def Guarded (chunks : List Chunk) : Prop :=
  ∀ r ∈ regionsOf chunks, marker? endMarker r.opening = none

/-! ## Changing the chunks of a text -/

/-- Change the plain lines and the regions apart. -/
def Chunk.map (onLine : String → String) (onRegion : Region → Region) : Chunk → Chunk
  | line text => line (onLine text)
  | region r => region (onRegion r)

theorem regionsOf_map (onLine : String → String) (onRegion : Region → Region)
    (chunks : List Chunk) : regionsOf (chunks.map (Chunk.map onLine onRegion)) =
      (regionsOf chunks).map onRegion := by
  induction chunks with
  | nil => rfl
  | cons c chunks ih =>
    cases c with
    | line l => exact ih
    | region r => exact congrArg (onRegion r :: ·) ih

theorem regionsOf_append (chunks more : List Chunk) :
    regionsOf (chunks ++ more) = regionsOf chunks ++ regionsOf more :=
  List.filterMap_append

theorem Sound.map {seen : List String} {chunks : List Chunk} {onLine : String → String}
    {onRegion : Region → Region} (h : Sound seen chunks)
    (hline : ∀ l, Plain l → Plain (onLine l))
    (hregion : ∀ r ∈ regionsOf chunks, r.Marked → (onRegion r).Marked)
    (hid : ∀ r, (onRegion r).id = r.id) :
    Sound seen (chunks.map (Chunk.map onLine onRegion)) := by
  have hids : (·.id) ∘ onRegion = (·.id) := funext hid
  constructor
  · intro c hc
    obtain ⟨d, hd, rfl⟩ := List.mem_map.mp hc
    have hmarked := h.marked d hd
    cases d with
    | line l => exact hline l hmarked
    | region r => exact hregion r (mem_regionsOf.mpr hd) hmarked
  · rw [regionsOf_map, List.map_map, hids]
    exact h.nodup
  · intro q hq
    rw [regionsOf_map] at hq
    obtain ⟨r, hr, rfl⟩ := List.mem_map.mp hq
    rw [hid]
    exact h.fresh r hr

theorem Sound.append {seen : List String} {chunks more : List Chunk} (h : Sound seen chunks)
    (hm : Sound seen more)
    (hd : List.Disjoint ((regionsOf chunks).map (·.id)) ((regionsOf more).map (·.id))) :
    Sound seen (chunks ++ more) := by
  constructor
  · exact List.forall_mem_append.mpr ⟨h.marked, hm.marked⟩
  · rw [regionsOf_append, List.map_append]
    exact h.nodup.append hm.nodup hd
  · rw [regionsOf_append]
    exact List.forall_mem_append.mpr ⟨h.fresh, hm.fresh⟩

theorem bodyOf_map (onRegion : Region → Region) (hid : ∀ r, (onRegion r).id = r.id)
    (regions : List Region) (id : String) : bodyOf (regions.map onRegion) id =
      (regions.find? (·.id == id)).map fun r => (onRegion r).bodyText := by
  have hfind : (fun r : Region => r.id == id) ∘ onRegion = fun r => r.id == id := by
    funext r
    simp [hid]
  rw [bodyOf, List.find?_map, hfind, Option.map_map]
  rfl

theorem bodyOf_append (regions more : List Region) (id : String) :
    bodyOf (regions ++ more) id = (bodyOf regions id).or (bodyOf more id) := by
  rw [bodyOf, List.find?_append]
  cases h : regions.find? (·.id == id) <;> simp [bodyOf, h]

/-! ## Other bodies -/

/-- A region with the body that a function gives. -/
def Region.withBody (body : Region → List String) (r : Region) : Region :=
  { r with body := body r }

theorem lined_withBody {body : Region → List String} {chunks : List Chunk}
    (hb : ∀ r ∈ regionsOf chunks, ∀ l ∈ body r, IsLine l)
    (h : Lined (chunks.flatMap Chunk.lines)) :
    Lined ((chunks.map (Chunk.map id (Region.withBody body))).flatMap Chunk.lines) := by
  induction chunks with
  | nil => exact .nil
  | cons c chunks ih =>
    rw [List.map_cons, List.flatMap_cons]
    rw [List.flatMap_cons] at h
    have hrest := ih (fun r hr => hb r (mem_regionsOf.mpr (.tail _ (mem_regionsOf.mp hr)))) h.right
    -- the last line of the chunk keeps its place, so it has an end if lines follow
    have hlast : ∀ l, Lined (l :: chunks.flatMap Chunk.lines) →
        Lined (l :: (chunks.map (Chunk.map id (Region.withBody body))).flatMap Chunk.lines) := by
      intro l hl
      cases chunks with
      | nil => exact hl
      | cons d ds =>
        refine .cons ?_ hrest
        refine Lined.isLine [l] hl ?_ l (.head _)
        simp [Chunk.lines_ne_nil]
    cases c with
    | line l => exact hlast l h
    | region r =>
      simp only [Chunk.lines, List.append_assoc, List.singleton_append] at h
      have hfront := Lined.isLine (r.opening :: r.body) h (by simp) r.opening (.head _)
      have hbody := hb r (mem_regionsOf.mpr (.head _))
      simp only [Chunk.map, Chunk.lines, List.append_assoc, List.singleton_append]
      exact Lined.append (List.forall_mem_cons.mpr ⟨hfront, hbody⟩) (hlast r.closing h.right)

theorem join_text (chunks : List Chunk) :
    String.join (chunks.map Chunk.text) = String.join (chunks.flatMap Chunk.lines) := by
  induction chunks with
  | nil => rfl
  | cons c chunks ih =>
    rw [List.map_cons, String.join_cons, List.flatMap_cons, String.join_append, ih, Chunk.text_eq]

/-- Other bodies make a text that can be read. -/
theorem Reads.withBody {text : String} {chunks : List Chunk} (h : Reads text chunks)
    {body : Region → List String}
    (hb : ∀ r ∈ regionsOf chunks, ∀ l ∈ body r, IsLine l ∧ Plain l) :
    Reads (String.join ((chunks.map (Chunk.map id (Region.withBody body))).map Chunk.text))
      (chunks.map (Chunk.map id (Region.withBody body))) := by
  refine ⟨lined_withBody (fun r hr l hl => (hb r hr l hl).1) h.lined, ?_,
    h.sound.map (fun _ hl => hl) (fun r hr hm => ?_) (fun _ => rfl)⟩
  · exact join_text _
  · exact ⟨hm.opens, fun l hl => (hb r hr l hl).2, hm.opens_not, hm.closes⟩

/-! ## Orphans -/

/-- All lines of a region have an end, but for the last. -/
structure Region.Complete (r : Region) : Prop where
  marked : r.Marked
  opening : IsLine r.opening
  body : ∀ l ∈ r.body, IsLine l
  closing : IsLine (closeLine r.closing)

theorem Reads.complete {text : String} {chunks : List Chunk} (h : Reads text chunks) {r : Region}
    (hr : r ∈ regionsOf chunks) : r.Complete := by
  obtain ⟨pre, post, rfl⟩ := List.append_of_mem (mem_regionsOf.mp hr)
  have hlines : (pre ++ Chunk.region r :: post).flatMap Chunk.lines =
      (pre.flatMap Chunk.lines ++ r.opening :: r.body) ++
        (r.closing :: post.flatMap Chunk.lines) := by
    simp [Chunk.lines]
  have hlined := h.lined
  rw [hlines] at hlined
  have hfront := Lined.isLine _ hlined (by simp)
  refine ⟨h.sound.marked (.region r) (by simp), hfront _ (by simp),
    fun l hl => hfront l (by simp [hl]), ?_⟩
  exact hlined.close _ (List.mem_map_of_mem (by simp))

def Region.close (r : Region) : Region := { r with closing := closeLine r.closing }

theorem plain_closeLine {l : String} (h : Plain l) : Plain (closeLine l) := by
  rw [Plain, marker?_closeLine newline_notMem_beginMarker,
    marker?_closeLine newline_notMem_endMarker]
  exact h

theorem Region.Marked.close {r : Region} (h : r.Marked) : r.close.Marked := by
  refine ⟨h.opens, h.plain, ?_, ?_⟩
  · rw [Region.close, marker?_closeLine newline_notMem_beginMarker]
    exact h.opens_not
  · rw [Region.close, marker?_closeLine newline_notMem_endMarker]
    exact h.closes

/-- Chunks with an end behind the last line too. -/
def closed (chunks : List Chunk) : List Chunk := chunks.map (Chunk.map closeLine Region.close)

theorem regionsOf_closed (chunks : List Chunk) :
    regionsOf (closed chunks) = (regionsOf chunks).map Region.close :=
  regionsOf_map closeLine Region.close chunks

theorem Sound.closed {seen : List String} {chunks : List Chunk} (h : Sound seen chunks) :
    Sound seen (closed chunks) :=
  h.map (fun _ hl => plain_closeLine hl) (fun _ _ hr => hr.close) (fun _ => rfl)

theorem lines_closed {text : String} {chunks : List Chunk} (h : Reads text chunks) :
    (closed chunks).flatMap Chunk.lines = (chunks.flatMap Chunk.lines).map closeLine := by
  rw [closed, List.flatMap_map, List.map_flatMap]
  apply List.flatMap_congr
  intro c hc
  cases c with
  | line l => rfl
  | region r =>
    have hr := h.complete (mem_regionsOf.mpr hc)
    have hbody : r.body.map closeLine = r.body :=
      (List.map_congr_left fun l hl => closeLine_of_isLine (hr.body l hl)).trans (List.map_id _)
    simp [Chunk.map, Chunk.lines, Region.close, hbody, closeLine_of_isLine hr.opening]

theorem Reads.appendLine {text : String} {chunks : List Chunk} (h : Reads text chunks)
    (more : String) :
    appendLine text more = String.join ((closed chunks).flatMap Chunk.lines) ++ more := by
  rw [lines_closed h, Output.appendLine, h.join]
  by_cases hnil : chunks.flatMap Chunk.lines = []
  · simp [hnil]
  · rw [if_neg (h.lined.ne_empty hnil), closeLine_join h.lined hnil]

/-- Texts that end in line feeds are put behind another at once. -/
theorem foldl_appendLine {more : List String} (h : ∀ t ∈ more, endsWith t "\n" = true)
    (hne : more ≠ []) (text : String) :
    more.foldl appendLine text = appendLine text (String.join more) := by
  induction more generalizing text with
  | nil => cases hne rfl
  | cons t more ih =>
    obtain ⟨ht, h⟩ := List.forall_mem_cons.mp h
    rw [List.foldl_cons, String.join_cons]
    by_cases hmore : more = []
    · simp [hmore]
    · have hfull : t ≠ "" := fun heq => by simp [heq, endsWith_newline] at ht
      have hends : endsWith (appendLine text t) "\n" = true := by
        rw [appendLine, endsWith_append _ hfull]
        exact ht
      have hfront : appendLine text t ≠ "" := fun heq => by
        simp [heq, endsWith_newline] at hends
      rw [ih h hmore, appendLine.eq_1 (appendLine text t), if_neg hfront, closeLine, if_pos hends,
        appendLine, appendLine, String.append_assoc]

theorem endsWith_closeLine (l : String) : endsWith (closeLine l) "\n" = true := by
  rw [closeLine]
  split
  · assumption
  · exact endsWith_newline.mpr ⟨l.toList, by simp⟩

theorem endsWith_orphan (r : Region) : endsWith r.orphan "\n" = true := by
  have hends := endsWith_closeLine r.closing
  have hfull : closeLine r.closing ≠ "" := fun heq => by simp [heq, endsWith_newline] at hends
  rw [Region.orphan, endsWith_append _ hfull]
  exact hends

/-- The chunks of an orphan. -/
def orphanChunks (r : Region) : List Chunk := [.line (orphanLine r.lead r.id), .region r.close]

theorem regionsOf_orphans (orphans : List Region) :
    regionsOf (orphans.flatMap orphanChunks) = orphans.map Region.close := by
  induction orphans with
  | nil => rfl
  | cons r orphans ih =>
    rw [List.flatMap_cons, regionsOf_append, ih]
    rfl

theorem join_orphans (orphans : List Region) :
    String.join ((orphans.flatMap orphanChunks).flatMap Chunk.lines) =
      String.join (orphans.map Region.orphan) := by
  rw [List.flatMap_assoc]
  induction orphans with
  | nil => rfl
  | cons r orphans ih =>
    rw [List.flatMap_cons, String.join_append, ih, List.map_cons, String.join_cons]
    simp [orphanChunks, Chunk.lines, Region.close, Region.orphan, orphanLine, String.append_assoc]

theorem isLine_orphanLine {opening lead id : String}
    (h : marker? beginMarker opening = some (lead, id)) (hl : IsLine opening) :
    IsLine (orphanLine lead id) := by
  obtain ⟨rest, hcut, hword⟩ := marker?_eq_some h
  obtain ⟨cs, hcs, heq⟩ := hl
  have hopening := cut?_eq_some hcut
  have hlead : '\n' ∉ lead.toList := by
    have hstart : lead.toList <+: cs ++ ['\n'] := by
      rw [← heq, hopening, List.append_assoc]
      exact List.prefix_append _ _
    rcases List.prefix_concat_iff.mp hstart with hall | hstart
    · rw [heq, ← hall] at hopening
      simp at hopening
    · exact fun hmem => hcs (hstart.subset hmem)
  have hid : '\n' ∉ id.toList := by
    intro hmem
    have hblank := not_isBlank_word (hword ▸ hmem)
    exact absurd hblank (by decide)
  have hmarker : '\n' ∉ orphanMarker.toList := by decide
  refine ⟨lead.toList ++ orphanMarker.toList ++ [' '] ++ id.toList, ?_, by simp [orphanLine]⟩
  simp [hlead, hid, hmarker]

theorem isLine_orphans {orphans : List Region} (h : ∀ r ∈ orphans, r.Complete) :
    ∀ l ∈ (orphans.flatMap orphanChunks).flatMap Chunk.lines, IsLine l := by
  intro l hl
  rw [List.flatMap_assoc] at hl
  obtain ⟨r, hr, hl⟩ := List.mem_flatMap.mp hl
  simp only [orphanChunks, List.flatMap_cons, List.flatMap_nil, Chunk.lines, Region.close,
    List.mem_append, List.mem_cons, List.not_mem_nil, or_false] at hl
  rcases hl with rfl | (rfl | hl) | rfl
  · exact isLine_orphanLine (h r hr).marked.opens (h r hr).opening
  · exact (h r hr).opening
  · exact (h r hr).body l hl
  · exact (h r hr).closing

/-- No end marker stands before the begin marker of a region. The line over an orphan copies what
stands there. -/
def Region.Movable (r : Region) : Prop := ¬ endMarker.toList ++ [' '] <:+: r.lead.toList

instance (r : Region) : Decidable r.Movable := inferInstanceAs (Decidable (¬ _))

theorem sound_orphans {seen : List String} {orphans : List Region}
    (h : ∀ r ∈ orphans, r.Complete ∧ r.Movable) (hnodup : (orphans.map (·.id)).Nodup)
    (hids : ∀ r ∈ orphans, r.id ∉ seen) : Sound seen (orphans.flatMap orphanChunks) := by
  have hmap : (orphans.map Region.close).map (·.id) = orphans.map (·.id) := by
    simp [Region.close]
  constructor
  · intro c hc
    obtain ⟨r, hr, hc⟩ := List.mem_flatMap.mp hc
    obtain ⟨hcomplete, hmovable⟩ := h r hr
    rcases List.mem_pair.mp hc with rfl | rfl
    · exact ⟨begin_orphanLine hcomplete.marked.opens,
        end_orphanLine hcomplete.marked.opens hmovable⟩
    · exact hcomplete.marked.close
  · rw [regionsOf_orphans, hmap]
    exact hnodup
  · rw [regionsOf_orphans]
    exact List.forall_mem_map.mpr hids

/-- The chunks of a text with orphans behind. -/
def withOrphans (chunks : List Chunk) (orphans : List Region) : List Chunk :=
  if orphans = [] then chunks else closed chunks ++ orphans.flatMap orphanChunks

/-- Orphans behind a text make a text of the chunks of both. -/
theorem join_withOrphans {text : String} {chunks : List Chunk} (h : Reads text chunks)
    (orphans : List Region) : (orphans.map Region.orphan).foldl Output.appendLine text =
      String.join ((withOrphans chunks orphans).flatMap Chunk.lines) := by
  unfold withOrphans
  split
  next hnil => rw [hnil, ← h.join]; rfl
  next hne =>
    have hends : ∀ t ∈ orphans.map Region.orphan, endsWith t "\n" = true :=
      List.forall_mem_map.mpr fun r _ => endsWith_orphan r
    rw [foldl_appendLine hends (by simpa using hne), h.appendLine, List.flatMap_append,
      String.join_append, join_orphans]

theorem isLine_withOrphans {text : String} {chunks : List Chunk} (h : Reads text chunks)
    {orphans : List Region} (hall : ∀ r ∈ orphans, r.Complete) (hne : orphans ≠ []) :
    ∀ l ∈ (withOrphans chunks orphans).flatMap Chunk.lines, IsLine l := by
  rw [withOrphans, if_neg hne, List.flatMap_append, lines_closed h]
  exact List.forall_mem_append.mpr ⟨h.lined.close, isLine_orphans hall⟩

theorem regionsOf_withOrphans (chunks : List Chunk) {orphans : List Region} (hne : orphans ≠ []) :
    regionsOf (withOrphans chunks orphans) = (regionsOf chunks ++ orphans).map Region.close := by
  rw [withOrphans, if_neg hne, regionsOf_append, regionsOf_closed, regionsOf_orphans,
    List.map_append]

theorem bodyOf_close (regions : List Region) (id : String) :
    bodyOf (regions.map Region.close) id = bodyOf regions id :=
  bodyOf_map Region.close (fun _ => rfl) regions id

theorem bodyOf_withOrphans (chunks : List Chunk) (orphans : List Region) (id : String) :
    bodyOf (regionsOf (withOrphans chunks orphans)) id =
      bodyOf (regionsOf chunks ++ orphans) id := by
  by_cases hne : orphans = []
  · simp [withOrphans, hne]
  · rw [regionsOf_withOrphans chunks hne, bodyOf_close]

theorem Guarded.withOrphans {chunks : List Chunk} (h : Guarded chunks) {orphans : List Region}
    (hall : ∀ r ∈ orphans, marker? endMarker r.opening = none) :
    Guarded (withOrphans chunks orphans) := by
  by_cases hne : orphans = []
  · simpa [Output.withOrphans, hne] using h
  intro q hq
  rw [regionsOf_withOrphans chunks hne] at hq
  obtain ⟨r, hr, rfl⟩ := List.mem_map.mp hq
  rcases List.mem_append.mp hr with hr | hr
  · exact h r hr
  · exact hall r hr

theorem Sound.closed_orphans {chunks : List Chunk} (h : Sound [] chunks) {orphans : List Region}
    (hall : ∀ r ∈ orphans, r.Complete ∧ r.Movable) (hnodup : (orphans.map (·.id)).Nodup)
    (hids : ∀ r ∈ orphans, r.id ∉ (regionsOf chunks).map (·.id)) :
    Sound [] (Output.closed chunks ++ orphans.flatMap orphanChunks) := by
  refine h.closed.append (sound_orphans hall hnodup (by simp)) ?_
  rw [regionsOf_closed, regionsOf_orphans]
  intro id hold hnew
  simp only [List.map_map, List.mem_map, Function.comp_apply, Region.close] at hold hnew
  obtain ⟨q, hq, rfl⟩ := hold
  obtain ⟨r, hr, hid⟩ := hnew
  exact hids r hr (List.mem_map.mpr ⟨q, hq, hid.symm⟩)

/-- Orphans behind a text make a text that can be read, if their lines close nothing. -/
theorem Reads.orphans {text : String} {chunks : List Chunk} (h : Reads text chunks)
    {orphans : List Region} (hall : ∀ r ∈ orphans, r.Complete ∧ r.Movable)
    (hnodup : (orphans.map (·.id)).Nodup)
    (hids : ∀ r ∈ orphans, r.id ∉ (regionsOf chunks).map (·.id)) :
    Reads ((orphans.map Region.orphan).foldl Output.appendLine text)
      (withOrphans chunks orphans) := by
  by_cases hne : orphans = []
  · simpa [hne, withOrphans] using h
  refine ⟨lined_of_isLine (isLine_withOrphans h (fun r hr => (hall r hr).1) hne),
    join_withOrphans h orphans, ?_⟩
  rw [withOrphans, if_neg hne]
  exact h.sound.closed_orphans hall hnodup hids

/-! ## The merge -/

/-- The body that a region has after a merge. -/
def adoptedBody (old : List Region) (r : Region) : List String :=
  match old.find? (·.id == r.id) with
  | some previous => previous.body
  | none => r.body

theorem adopt_eq_map (old : List Region) (c : Chunk) :
    c.adopt old = c.map id (Region.withBody (adoptedBody old)) := by
  cases c with
  | line l => rfl
  | region r =>
    cases h : old.find? (·.id == r.id) <;>
      simp only [Chunk.adopt, Chunk.map, Region.withBody, adoptedBody, h]

theorem bodyOf_adopted (old regions : List Region) (id : String) :
    bodyOf (regions.map (Region.withBody (adoptedBody old))) id =
      (bodyOf regions id).map fun body => (bodyOf old id).getD body := by
  rw [bodyOf_map (Region.withBody (adoptedBody old)) fun _ => rfl]
  cases hr : regions.find? (·.id == id) with
  | none => simp [bodyOf, hr]
  | some r =>
    have hid : r.id = id := by simpa using List.find?_some hr
    cases ho : old.find? (·.id == id) <;>
      simp [Region.withBody, adoptedBody, Region.bodyText, bodyOf, hr, hid, ho]

theorem bodyOf_isSome {regions : List Region} {id : String} :
    (bodyOf regions id).isSome = true ↔ id ∈ regions.map (·.id) := by
  simp [bodyOf]

theorem bodyOf_orphans (old regions : List Region) (id : String) :
    bodyOf (old.filter fun r => !(regions.map (·.id)).contains r.id) id =
      if (bodyOf regions id).isSome then none else bodyOf old id := by
  rw [bodyOf, List.find?_filter]
  by_cases hmem : id ∈ regions.map (·.id)
  · rw [if_pos (bodyOf_isSome.mpr hmem), Option.map_eq_none_iff, List.find?_eq_none]
    intro r _ hr
    simp only [beq_iff_eq, decide_eq_true_eq] at hr
    rw [hr.2] at hr
    simp [hmem] at hr
  · rw [if_neg (fun h => hmem (bodyOf_isSome.mp h)), bodyOf]
    congr 2
    funext r
    by_cases hr : r.id = id
    · simp [hr, hmem]
    · simp [hr]

/-- The chunks of a text with the bodies that its regions had before. -/
def adopted (old : List Region) (chunks : List Chunk) : List Chunk :=
  chunks.map (Chunk.map id (Region.withBody (adoptedBody old)))

theorem regionsOf_adopted (old : List Region) (chunks : List Chunk) :
    regionsOf (adopted old chunks) =
      (regionsOf chunks).map (Region.withBody (adoptedBody old)) :=
  regionsOf_map id (Region.withBody (adoptedBody old)) chunks

theorem ids_adopted (old : List Region) (chunks : List Chunk) :
    (regionsOf (adopted old chunks)).map (·.id) = (regionsOf chunks).map (·.id) := by
  simp [regionsOf_adopted, Region.withBody]

/-- Without regions before, nothing changes. -/
theorem adopted_nil (chunks : List Chunk) : adopted [] chunks = chunks := by
  refine (List.map_congr_left fun c _ => ?_).trans (List.map_id _)
  cases c <;> rfl

theorem Reads.adopted {fresh text : String} {chunks before : List Chunk} (hf : Reads fresh chunks)
    (ht : Reads text before) :
    Reads (String.join ((adopted (regionsOf before) chunks).map Chunk.text))
      (adopted (regionsOf before) chunks) := by
  refine hf.withBody fun r hr l hl => ?_
  unfold adoptedBody at hl
  split at hl
  next p hp =>
    have hp := ht.complete (List.mem_of_find?_eq_some hp)
    exact ⟨hp.body l hl, hp.marked.plain l hl⟩
  next =>
    have hr := hf.complete hr
    exact ⟨hr.body l hl, hr.marked.plain l hl⟩

/-- The regions that have lost their place. -/
def lost (old regions : List Region) : List Region :=
  old.filter fun r => !(regions.map (·.id)).contains r.id

theorem mem_lost {old regions : List Region} {r : Region} :
    r ∈ lost old regions ↔ r ∈ old ∧ r.id ∉ regions.map (·.id) := by
  simp [lost]

/-- The chunks of a merge: those of the new text with the old bodies, and the lost regions. -/
def mergedChunks (old : List Region) (chunks : List Chunk) : List Chunk :=
  withOrphans (adopted old chunks) (lost old (regionsOf chunks))

/-- A merge of texts that can be read succeeds. -/
theorem mergeRegions_eq {fresh text : String} {chunks before : List Chunk}
    (hf : Reads fresh chunks) (ht : Reads text before) : mergeRegions fresh (some text) =
      .ok (((lost (regionsOf before) (regionsOf chunks)).map Region.orphan).foldl appendLine
        (String.join ((adopted (regionsOf before) chunks).map Chunk.text))) := by
  have hold : parseRegions text = .ok (regionsOf before) := by
    rw [parseRegions, parseChunks_eq_ok.mpr ht]
    rfl
  have htexts : chunks.map (fun c => (c.adopt (regionsOf before)).text) =
      (adopted (regionsOf before) chunks).map Chunk.text := by
    simp [adopted, adopt_eq_map]
  simp only [mergeRegions, parseChunks_eq_ok.mpr hf, hold, Except.mapError, bind, Except.bind]
  split
  next hempty =>
    rw [List.isEmpty_iff.mp hempty, adopted_nil, join_text, ← hf.join]
    rfl
  next => rw [htexts]; rfl

/-- The merge can be read, if no lost region has an end marker before its begin marker. -/
theorem reads_merged {fresh text : String} {chunks before : List Chunk} (hf : Reads fresh chunks)
    (ht : Reads text before)
    (hmovable : ∀ r ∈ lost (regionsOf before) (regionsOf chunks), r.Movable) :
    Reads (((lost (regionsOf before) (regionsOf chunks)).map Region.orphan).foldl appendLine
      (String.join ((adopted (regionsOf before) chunks).map Chunk.text)))
      (mergedChunks (regionsOf before) chunks) := by
  refine (hf.adopted ht).orphans (fun r hr => ⟨ht.complete (mem_lost.mp hr).1, hmovable r hr⟩)
    (ht.sound.nodup.sublist (List.filter_sublist.map _)) fun r hr => ?_
  rw [ids_adopted]
  exact (mem_lost.mp hr).2

/-- A merge of texts that can be read succeeds, and the old bodies come before the new ones. -/
theorem mergeRegions_ok {fresh text : String} {chunks before : List Chunk}
    (hf : Reads fresh chunks) (hfg : Guarded chunks) (ht : Reads text before)
    (htg : Guarded before) :
    ∃ merged result, mergeRegions fresh (some text) = .ok merged ∧ Reads merged result ∧
      Guarded result ∧ ∀ id, bodyOf (regionsOf result) id =
        (bodyOf (regionsOf before) id).or (bodyOf (regionsOf chunks) id) := by
  set old := regionsOf before
  have hguarded : ∀ r ∈ lost old (regionsOf chunks), marker? endMarker r.opening = none :=
    fun r hr => htg r (mem_lost.mp hr).1
  have hmovable : ∀ r ∈ lost old (regionsOf chunks), r.Movable := fun r hr =>
    not_infix_lead (ht.complete (mem_lost.mp hr).1).marked.opens (hguarded r hr)
  refine ⟨_, mergedChunks old chunks, mergeRegions_eq hf ht, reads_merged hf ht hmovable, ?_,
    fun id => ?_⟩
  · refine Guarded.withOrphans (fun q hq => ?_) hguarded
    rw [regionsOf_adopted] at hq
    obtain ⟨r, hr, rfl⟩ := List.mem_map.mp hq
    exact hfg r hr
  · rw [mergedChunks, bodyOf_withOrphans, regionsOf_adopted, bodyOf_append, bodyOf_adopted, lost,
      bodyOf_orphans]
    cases bodyOf (regionsOf chunks) id with
    | none => simp
    | some body => cases bodyOf old id <;> rfl

/-! ## A text and itself -/

/-- A text without a file before it stays as it is. -/
theorem mergeRegions_none {fresh text : String} :
    mergeRegions fresh none = .ok text ↔
      text = fresh ∧ ∃ chunks, parseChunks fresh = .ok chunks := by
  cases h : parseChunks fresh with
  | error e => simp [mergeRegions, h, Except.mapError, bind, Except.bind]
  | ok chunks => simp [mergeRegions, h, Except.mapError, bind, Except.bind, eq_comm]

/-- Each region of a text finds itself among them. -/
theorem adopt_self {regions : List Region} (hn : (regions.map (·.id)).Nodup) {c : Chunk}
    (hc : ∀ r, c = .region r → r ∈ regions) : c.adopt regions = c := by
  cases c with
  | line l => rfl
  | region r =>
    cases hfind : regions.find? (·.id == r.id) with
    | none => simp only [Chunk.adopt, hfind]
    | some previous =>
      have hid : previous.id = r.id := by simpa using List.find?_some hfind
      have hmem := List.mem_of_find?_eq_some hfind
      obtain rfl := List.inj_on_of_nodup_map hn hmem (hc r rfl) hid
      simp only [Chunk.adopt, hfind]

/-- Every text that can be read is its own merge, with or without regions. -/
theorem mergeRegions_self {text : String} {chunks : List Chunk}
    (h : parseChunks text = .ok chunks) : mergeRegions text (some text) = .ok text := by
  have hreads := parseChunks_eq_ok.mp h
  have hregions : parseRegions text = .ok (regionsOf chunks) := by
    rw [parseRegions, h]
    rfl
  have hadopt : chunks.map (fun c => (c.adopt (regionsOf chunks)).text) =
      chunks.map Chunk.text := by
    refine List.map_congr_left fun c hc => congrArg Chunk.text ?_
    exact adopt_self hreads.sound.nodup fun r hr => mem_regionsOf.mpr (hr ▸ hc)
  have horphans : (regionsOf chunks).filter
      (fun r => !((regionsOf chunks).map (·.id)).contains r.id) = [] := by
    refine List.filter_eq_nil_iff.mpr fun r hr => ?_
    have hkept : r.id ∈ (regionsOf chunks).map (·.id) := List.mem_map_of_mem hr
    simpa using hkept
  simp only [mergeRegions, h, hregions, Except.mapError, bind, Except.bind]
  split
  · rfl
  · rw [horphans, hadopt, join_text, ← hreads.join]
    rfl

end Scaffold.Output
