import Scaffold.Proofs.Outcome
import Scaffold.Proofs.Output.Marker
import Mathlib.Data.List.Nodup

/-! # Texts and their regions

Reading a text into chunks succeeds exactly when the text is made of the lines of such chunks. -/
namespace Scaffold.Output

open Scaffold.Text

/-- A line that neither opens nor closes a region. -/
def Plain (l : String) : Prop := marker? beginMarker l = none ∧ marker? endMarker l = none

instance (l : String) : Decidable (Plain l) := inferInstanceAs (Decidable (_ ∧ _))

/-- A text of whole lines without markers. -/
def WholeLines (body : String) : Prop :=
  (body = "" ∨ endsWith body "\n" = true) ∧ ∀ l ∈ lines body, Plain l

instance (body : String) : Decidable (WholeLines body) := inferInstanceAs (Decidable (_ ∧ _))

/-- The lines of a region are what their places ask for. -/
structure Region.Marked (r : Region) : Prop where
  opens : marker? beginMarker r.opening = some (r.lead, r.id)
  plain : ∀ l ∈ r.body, Plain l
  opens_not : marker? beginMarker r.closing = none
  closes : ∃ lead, marker? endMarker r.closing = some (lead, r.id)

namespace Chunk

def lines : Chunk → List String
  | line text => [text]
  | region r => r.opening :: r.body ++ [r.closing]

theorem text_eq (c : Chunk) : c.text = String.join c.lines := by
  cases c with
  | line text => simp [Chunk.text, lines]
  | region r => simp [Chunk.text, Region.text, lines, String.append_assoc]

def Marked : Chunk → Prop
  | line text => Plain text
  | region r => r.Marked

theorem lines_ne_nil (c : Chunk) : c.lines ≠ [] := by cases c <;> simp [lines]

end Chunk

theorem mem_regionsOf {chunks : List Chunk} {r : Region} :
    r ∈ regionsOf chunks ↔ Chunk.region r ∈ chunks := by
  simp only [regionsOf, List.mem_filterMap]
  constructor
  · rintro ⟨c, hc, heq⟩
    cases c <;> cases heq
    exact hc
  · exact fun h => ⟨_, h, rfl⟩

theorem regionsOf_line (l : String) (chunks : List Chunk) :
    regionsOf (.line l :: chunks) = regionsOf chunks := rfl

theorem regionsOf_region (r : Region) (chunks : List Chunk) :
    regionsOf (.region r :: chunks) = r :: regionsOf chunks := rfl

/-! ## Reading -/

theorem chunksFrom_line {seen : List String} {n : Nat} {l : String} (hl : Plain l)
    (ls : List String) : chunksFrom seen none n (l :: ls) =
      (chunksFrom seen none (n + 1) ls).map (Chunk.line l :: ·) := by
  rw [chunksFrom]
  simp only [hl.1, hl.2]
  rfl

theorem chunksFrom_body {seen : List String} {body : List String} (hb : ∀ l ∈ body, Plain l)
    (o : OpenRegion) (n : Nat) (ls : List String) :
    chunksFrom seen (some o) n (body ++ ls) =
      chunksFrom seen (some { o with body := body.reverse ++ o.body }) (n + body.length) ls := by
  induction body generalizing o n with
  | nil => simp
  | cons l body ih =>
    have hl := hb l (.head _)
    rw [List.cons_append, chunksFrom]
    simp only [hl.1, hl.2]
    rw [ih fun m hm => hb m (.tail _ hm)]
    simp [Nat.add_comm, Nat.add_left_comm]

theorem chunksFrom_region {seen : List String} {r : Region} (hr : r.Marked) (hid : r.id ∉ seen)
    (n : Nat) (ls : List String) : chunksFrom seen none n ((Chunk.region r).lines ++ ls) =
      (chunksFrom (r.id :: seen) none (n + 1 + r.body.length + 1) ls).map
        (Chunk.region r :: ·) := by
  obtain ⟨lead, hclose⟩ := hr.closes
  rw [Chunk.lines, List.cons_append, List.cons_append, chunksFrom]
  simp only [hr.opens, List.contains_iff_mem, hid, if_false]
  rw [List.append_assoc, chunksFrom_body hr.plain, List.cons_append, chunksFrom]
  simp only [hr.opens_not, hclose, if_true, List.append_nil, List.reverse_reverse]
  rfl

/-- What an open region has been read to. -/
theorem chunksFrom_open {seen : List String} {o : OpenRegion} {n : Nat} {ls : List String}
    {chunks : List Chunk} (h : chunksFrom seen (some o) n ls = .ok chunks) :
    ∃ body closing lead rest tail m, ls = body ++ closing :: rest ∧ (∀ l ∈ body, Plain l) ∧
      marker? beginMarker closing = none ∧ marker? endMarker closing = some (lead, o.id) ∧
      chunksFrom seen none m rest = .ok tail ∧
      chunks = .region ⟨o.id, o.lead, o.opening, o.body.reverse ++ body, closing⟩ :: tail := by
  induction ls generalizing o n with
  | nil => cases h
  | cons l ls ih =>
    rw [chunksFrom] at h
    split at h
    next => cases h
    next hbegin =>
      split at h
      next lead id hend =>
        split at h
        next hid =>
          obtain ⟨tail, htail, heq⟩ := bind_eq_ok.mp h
          cases heq
          exact ⟨[], l, lead, ls, tail, n + 1, rfl, by simp, hbegin, hid ▸ hend, htail, by simp⟩
        next => cases h
      next hend =>
        obtain ⟨body, closing, lead, rest, tail, m, rfl, hb, hc, hd, ht, rfl⟩ := ih h
        exact ⟨l :: body, closing, lead, rest, tail, m, rfl,
          List.forall_mem_cons.mpr ⟨⟨hbegin, hend⟩, hb⟩, hc, hd, ht, by simp⟩

/-- The chunks have their markers, and no id occurs twice. -/
structure Sound (seen : List String) (chunks : List Chunk) : Prop where
  marked : ∀ c ∈ chunks, c.Marked
  nodup : ((regionsOf chunks).map (·.id)).Nodup
  fresh : ∀ r ∈ regionsOf chunks, r.id ∉ seen

theorem sound_nil (seen : List String) : Sound seen [] :=
  ⟨by simp, by simp [regionsOf], by simp [regionsOf]⟩

theorem sound_line {seen : List String} {l : String} {chunks : List Chunk} :
    Sound seen (.line l :: chunks) ↔ Plain l ∧ Sound seen chunks := by
  constructor
  · rintro ⟨hm, hn, hf⟩
    obtain ⟨hl, hm⟩ := List.forall_mem_cons.mp hm
    exact ⟨hl, hm, hn, hf⟩
  · rintro ⟨hl, hm, hn, hf⟩
    exact ⟨List.forall_mem_cons.mpr ⟨hl, hm⟩, hn, hf⟩

theorem sound_region {seen : List String} {r : Region} {chunks : List Chunk} :
    Sound seen (.region r :: chunks) ↔ r.Marked ∧ r.id ∉ seen ∧ Sound (r.id :: seen) chunks := by
  constructor
  · rintro ⟨hm, hn, hf⟩
    obtain ⟨hr, hm⟩ := List.forall_mem_cons.mp hm
    rw [regionsOf_region] at hn hf
    obtain ⟨hnew, hn⟩ := List.nodup_cons.mp hn
    obtain ⟨hid, hf⟩ := List.forall_mem_cons.mp hf
    refine ⟨hr, hid, hm, hn, fun q hq => ?_⟩
    rw [List.mem_cons, not_or]
    exact ⟨fun heq => hnew (List.mem_map.mpr ⟨q, hq, heq⟩), hf q hq⟩
  · rintro ⟨hr, hid, hm, hn, hf⟩
    refine ⟨List.forall_mem_cons.mpr ⟨hr, hm⟩, ?_, ?_⟩
    · rw [regionsOf_region, List.map_cons, List.nodup_cons]
      refine ⟨fun hmem => ?_, hn⟩
      obtain ⟨q, hq, heq⟩ := List.mem_map.mp hmem
      exact hf q hq (heq ▸ .head _)
    · rw [regionsOf_region, List.forall_mem_cons]
      exact ⟨hid, fun q hq hmem => hf q hq (.tail _ hmem)⟩

/-- The lines of chunks are read as these chunks, whatever lines follow. -/
theorem chunksFrom_append {seen : List String} {chunks : List Chunk} (h : Sound seen chunks)
    (n : Nat) (ls : List String) : chunksFrom seen none n (chunks.flatMap Chunk.lines ++ ls) =
      (chunksFrom (((regionsOf chunks).map (·.id)).reverse ++ seen) none
        (n + (chunks.flatMap Chunk.lines).length) ls).map (chunks ++ ·) := by
  induction chunks generalizing seen n with
  | nil =>
    change chunksFrom seen none n ls = (chunksFrom seen none n ls).map id
    cases chunksFrom seen none n ls <;> rfl
  | cons c chunks ih =>
    rw [List.flatMap_cons, List.append_assoc]
    cases c with
    | line l =>
      obtain ⟨hl, h⟩ := sound_line.mp h
      have hlen : n + ((Chunk.line l).lines ++ chunks.flatMap Chunk.lines).length =
          n + 1 + (chunks.flatMap Chunk.lines).length := by
        simp [Chunk.lines]
        omega
      rw [hlen, Chunk.lines, List.singleton_append, chunksFrom_line hl, ih h, regionsOf_line]
      cases chunksFrom _ none (n + 1 + (chunks.flatMap Chunk.lines).length) ls <;> rfl
    | region r =>
      obtain ⟨hr, hid, h⟩ := sound_region.mp h
      have hlen : n + ((Chunk.region r).lines ++ chunks.flatMap Chunk.lines).length =
          n + 1 + r.body.length + 1 + (chunks.flatMap Chunk.lines).length := by
        simp [Chunk.lines]
        omega
      have hids : ((regionsOf (.region r :: chunks)).map (·.id)).reverse ++ seen =
          ((regionsOf chunks).map (·.id)).reverse ++ r.id :: seen := by
        simp [regionsOf_region]
      rw [hlen, hids, chunksFrom_region hr hid, ih h]
      cases chunksFrom _ none (n + 1 + r.body.length + 1 + (chunks.flatMap Chunk.lines).length) ls
        <;> rfl

/-- Lines are read as chunks exactly when they are the lines of these chunks. -/
theorem chunksFrom_eq_ok {seen : List String} {n : Nat} {ls : List String} {chunks : List Chunk} :
    chunksFrom seen none n ls = .ok chunks ↔
      ls = chunks.flatMap Chunk.lines ∧ Sound seen chunks := by
  constructor
  · intro h
    induction hlen : ls.length using Nat.strongRecOn generalizing seen n ls chunks with
    | ind k ih =>
      subst hlen
      cases ls with
      | nil =>
        cases h
        exact ⟨rfl, sound_nil seen⟩
      | cons l ls =>
        rw [chunksFrom] at h
        split at h
        next lead id hbegin =>
          split at h
          next => cases h
          next hid =>
            obtain ⟨body, closing, lead', rest, tail, m, rfl, hb, hc, hd, ht, rfl⟩ :=
              chunksFrom_open h
            obtain ⟨hrest, hsound⟩ := ih rest.length (by simp; omega) ht rfl
            refine ⟨by simp [Chunk.lines, hrest], sound_region.mpr ⟨?_, ?_, hsound⟩⟩
            · exact ⟨hbegin, by simpa using hb, hc, lead', hd⟩
            · simpa using hid
        next hbegin =>
          split at h
          next => cases h
          next hend =>
            obtain ⟨tail, ht, heq⟩ := bind_eq_ok.mp h
            cases heq
            obtain ⟨hrest, hsound⟩ := ih ls.length (by simp) ht rfl
            exact ⟨by simp [Chunk.lines, ← hrest], sound_line.mpr ⟨⟨hbegin, hend⟩, hsound⟩⟩
  · rintro ⟨rfl, hsound⟩
    have hread := chunksFrom_append hsound n []
    rw [List.append_nil] at hread
    rw [hread]
    simp [chunksFrom, Except.map]

/-! ## Texts -/

/-- A text is made of the lines of chunks. -/
structure Reads (text : String) (chunks : List Chunk) : Prop where
  lined : Lined (chunks.flatMap Chunk.lines)
  join : text = String.join (chunks.flatMap Chunk.lines)
  sound : Sound [] chunks

theorem parseChunks_eq_ok {text : String} {chunks : List Chunk} :
    parseChunks text = .ok chunks ↔ Reads text chunks := by
  rw [parseChunks, chunksFrom_eq_ok]
  constructor
  · rintro ⟨hlines, hsound⟩
    exact ⟨hlines ▸ lined_lines text, hlines ▸ (join_lines text).symm, hsound⟩
  · rintro ⟨hlined, rfl, hsound⟩
    exact ⟨lines_join hlined, hsound⟩

end Scaffold.Output
