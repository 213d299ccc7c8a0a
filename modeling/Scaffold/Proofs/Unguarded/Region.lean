import Scaffold.Proofs.Output.Merge
import Scaffold.Proofs.Unguarded.Text

/-! # Regions without a guard

Two texts are merged line by line: the line that closes a region is taken at the index where the
search for it stopped. Both texts have been read before, so there is such a line. -/
namespace Scaffold.Unguarded

open Scaffold.Text Scaffold.Output

/-! ## Lines -/

/-- The pieces of a text that end in line feeds, and what stands behind the last of them. -/
def splitAfter : List Char → List (List Char)
  | [] => [[]]
  | c :: cs =>
    if c = '\n' then ['\n'] :: splitAfter cs
    else match splitAfter cs with
      | piece :: pieces => (c :: piece) :: pieces
      | [] => [[c]]

/-- The lines of a text: its pieces, without the last if that is empty. -/
def lines? (s : String) : Option (List String) :=
  if s = "" then some []
  else do
    let pieces := splitAfter s.toList
    let last ← pieces[pieces.length - 1]?
    let kept ← if last = [] then slice? pieces 0 (pieces.length - 1) else some pieces
    some (kept.map String.ofList)

theorem nil_notMem_linesFrom (cs : List Char) : [] ∉ linesFrom cs := by
  induction cs using linesFrom.induct with
  | case1 => simp [linesFrom]
  | case2 cs ih =>
    rw [linesFrom.eq_2]
    simpa using ih
  | case3 c hc ih =>
    rw [linesFrom.eq_3 c hc]
    simp
  | case4 c cs hc line ls hls hcs ih =>
    rw [linesFrom.eq_4 c cs line ls hc hcs hls]
    rw [hls] at ih
    exact fun hmem => ih (.tail _ ((List.mem_cons.mp hmem).resolve_left (by simp)))
  | case5 c cs hc hls hcs ih =>
    have hflat := flatten_linesFrom cs
    rw [hls] at hflat
    exact absurd hflat.symm hcs

/-- The pieces of a text are its lines, and nothing behind the line feed that may end it. -/
theorem splitAfter_eq (cs : List Char) :
    splitAfter cs = linesFrom cs ++ [[]] ∨ (cs ≠ [] ∧ splitAfter cs = linesFrom cs) := by
  induction cs using linesFrom.induct with
  | case1 => exact .inl rfl
  | case2 cs ih =>
    rw [linesFrom.eq_2, splitAfter, if_pos rfl]
    rcases ih with ih | ⟨-, ih⟩
    · exact .inl (by rw [ih]; rfl)
    · exact .inr ⟨by simp, by rw [ih]⟩
  | case3 c hc ih =>
    rw [linesFrom.eq_3 c hc, splitAfter, if_neg hc]
    exact .inr ⟨by simp, rfl⟩
  | case4 c cs hc line ls hls hcs ih =>
    rw [linesFrom.eq_4 c cs line ls hc hcs hls, splitAfter, if_neg hc]
    rw [hls] at ih
    rcases ih with ih | ⟨-, ih⟩
    · exact .inl (by rw [ih]; rfl)
    · exact .inr ⟨by simp, by rw [ih]⟩
  | case5 c cs hc hls hcs ih =>
    have hflat := flatten_linesFrom cs
    rw [hls] at hflat
    exact absurd hflat.symm hcs

theorem lines?_eq (s : String) : lines? s = some (lines s) := by
  unfold lines?
  split
  next h => rw [h]; rfl
  next h =>
    rcases splitAfter_eq s.toList with hs | ⟨hne, hs⟩
    · simp [hs, slice?_take, lines]
    · have hlines : linesFrom s.toList ≠ [] := fun hnil => by
        have hflat := flatten_linesFrom s.toList
        rw [hnil] at hflat
        exact hne hflat.symm
      have hlast := List.getLast?_eq_some_getLast hlines
      have hfull : (linesFrom s.toList).getLast hlines ≠ [] := fun hnil =>
        nil_notMem_linesFrom s.toList (hnil ▸ List.getLast_mem hlines)
      rw [List.getLast?_eq_getElem?] at hlast
      simp [hs, hlast, hfull, lines]

/-! ## Markers -/

/-- Where a text begins in another. -/
def index? (needle cs : List Char) : Option Nat := (cut? needle cs).map (·.1.length)

/-- The text before a marker in a line, and the word after it. -/
def marker? (marker line : String) : Option (Option (String × String)) :=
  let cs := line.toList
  match index? (marker.toList ++ [' ']) cs with
  | none => some none
  | some i => do
    let behind ← slice? cs (i + marker.toList.length) cs.length
    if (word behind).isEmpty then some none
    else do
      let lead ← slice? cs 0 i
      some (some (String.ofList lead, String.ofList (word behind)))

theorem marker?_eq (marker line : String) :
    marker? marker line = some (Output.marker? marker line) := by
  rw [Output.marker?_eq]
  cases hcut : cut? (marker.toList ++ [' ']) line.toList with
  | none => simp [marker?, index?, hcut]
  | some p =>
    obtain ⟨before, rest⟩ := p
    have hline := cut?_eq_some hcut
    have hbehind : slice? line.toList (before.length + marker.toList.length) line.toList.length =
        some (' ' :: rest) := by
      have hsplit : line.toList = (before ++ marker.toList) ++ ' ' :: rest := by simp [hline]
      rw [slice?_drop (by simp [hline]), hsplit, List.drop_left' (by simp)]
    have hlead : slice? line.toList 0 before.length = some before := by
      rw [slice?_take (by simp [hline]), hline, List.append_assoc, List.take_left]
    have hword : word (' ' :: rest) = word rest := by
      have hblank : isBlank ' ' = true := by decide
      simp [word, hblank]
    simp only [marker?, index?, hcut, Option.map_some, hbehind, hlead, hword, Option.bind_eq_bind,
      Option.bind_some]
    split <;> rfl

/-! ## Merging -/

/-- A line that closes the region of a name. -/
def closes (id line : String) : Bool := (Output.marker? endMarker line).any (·.2 == id)

/-- A text from its line `i` on, with the bodies that regions of the same names had before. The
line that closes a region is the one at which the search for it stops. -/
def mergeFrom? (old : List Region) (ls : List String) (i : Nat) : Option String :=
  if _h : i < ls.length then do
    let line ← ls[i]?
    match ← marker? beginMarker line with
    | none => do
      let rest ← mergeFrom? old ls (i + 1)
      some (line ++ rest)
    | some (_, id) => do
      let body := (ls.drop (i + 1)).takeWhile fun l => !closes id l
      let kept := match old.find? (·.id == id) with
        | some previous => previous.body
        | none => body
      let closing ← ls[i + 1 + body.length]?
      let rest ← mergeFrom? old ls (i + 1 + body.length + 1)
      some (line ++ String.join kept ++ closing ++ rest)
  else some ""
termination_by ls.length - i

def mergeRegions? (fresh : String) (existing : Option String) :
    Option (Except MergeError String) :=
  match parseRegions fresh, existing with
  | .error e, _ => some (.error (.generated e))
  | .ok _, none => some (.ok fresh)
  | .ok regions, some text =>
    match parseRegions text with
    | .error e => some (.error (.existing e))
    | .ok old =>
      if old.isEmpty then some (.ok fresh)
      else do
        let ls ← lines? fresh
        let merged ← mergeFrom? old ls 0
        let orphans := old.filter fun r => !(regions.map (·.id)).contains r.id
        some (.ok ((orphans.map Region.orphan).foldl appendLine merged))

theorem getElem?_behind {α : Type} {before : List α} {x : α} {after : List α} {n : Nat}
    (h : before.length = n) : (before ++ x :: after)[n]? = some x := by
  simp [← h]

/-- The search for the end of a region stops at the line that closes it. -/
theorem takeWhile_closes {r : Region} (h : r.Marked) (rest : List String) :
    (r.body ++ r.closing :: rest).takeWhile (fun l => !closes r.id l) = r.body := by
  obtain ⟨lead, hclose⟩ := h.closes
  rw [List.takeWhile_append_of_pos fun l hl => by simp [closes, (h.plain l hl).2]]
  simp [closes, hclose]

theorem mergeFrom?_eq (old : List Region) {ls : List String} (before : List String)
    {chunks : List Chunk} (hls : ls = before ++ chunks.flatMap Chunk.lines)
    (hm : ∀ c ∈ chunks, c.Marked) :
    mergeFrom? old ls before.length =
      some (String.join (chunks.map fun c => (c.adopt old).text)) := by
  induction chunks generalizing before with
  | nil => simp [mergeFrom?, hls]
  | cons c chunks ih =>
    obtain ⟨hc, htail⟩ := List.forall_mem_cons.mp hm
    rw [List.flatMap_cons] at hls
    rw [mergeFrom?, List.map_cons, String.join_cons]
    cases c with
    | line l =>
      have hl : marker? beginMarker l = some none := by rw [marker?_eq, hc.1]
      have hget : ls[before.length]? = some l := by rw [hls]; exact getElem?_behind rfl
      have hrest := ih (before ++ [l]) (by simp [hls, Chunk.lines]) htail
      rw [List.length_append, List.length_singleton] at hrest
      rw [dif_pos (by simp [hls, Chunk.lines])]
      simp only [hget, hl, hrest, Option.bind_eq_bind, Option.bind_some]
      rfl
    | region r =>
      have hopen : marker? beginMarker r.opening = some (some (r.lead, r.id)) := by
        rw [marker?_eq, hc.opens]
      have hget : ls[before.length]? = some r.opening := by
        rw [hls]
        exact getElem?_behind rfl
      have hbody : (ls.drop (before.length + 1)).takeWhile (fun l => !closes r.id l) = r.body := by
        have hsplit : ls = (before ++ [r.opening]) ++
            (r.body ++ r.closing :: chunks.flatMap Chunk.lines) := by simp [hls, Chunk.lines]
        rw [hsplit, List.drop_left' (by simp), takeWhile_closes hc]
      have hclose : ls[before.length + 1 + r.body.length]? = some r.closing := by
        have hsplit : ls = (before ++ r.opening :: r.body) ++ r.closing ::
            chunks.flatMap Chunk.lines := by simp [hls, Chunk.lines]
        rw [hsplit]
        exact getElem?_behind (by simp; omega)
      have hrest := ih (before ++ (Chunk.region r).lines) (by simp [hls]) htail
      have hlen : (before ++ (Chunk.region r).lines).length =
          before.length + 1 + r.body.length + 1 := by
        simp [Chunk.lines]
        omega
      rw [hlen] at hrest
      rw [dif_pos (by simp [hls, Chunk.lines])]
      simp only [hget, hopen, hbody, hclose, hrest, Option.bind_eq_bind, Option.bind_some]
      rw [Chunk.adopt]
      cases old.find? (·.id == r.id) <;> rfl

theorem mergeRegions?_eq (fresh : String) (existing : Option String) :
    mergeRegions? fresh existing = some (mergeRegions fresh existing) := by
  cases hfresh : parseChunks fresh with
  | error e =>
    simp [mergeRegions?, mergeRegions, parseRegions, hfresh, Except.mapError, bind, Except.bind]
  | ok chunks =>
    have hregions : parseRegions fresh = .ok (regionsOf chunks) := by
      rw [parseRegions, hfresh]
      rfl
    cases existing with
    | none =>
      simp [mergeRegions?, mergeRegions, hregions, hfresh, Except.mapError, bind, Except.bind]
    | some text =>
      cases hold : parseRegions text with
      | error e =>
        simp [mergeRegions?, mergeRegions, hregions, hfresh, hold, Except.mapError, bind,
          Except.bind]
      | ok old =>
        have hreads := parseChunks_eq_ok.mp hfresh
        have hlines : lines fresh = chunks.flatMap Chunk.lines := by
          rw [hreads.join, lines_join hreads.lined]
        have hmerge := mergeFrom?_eq old [] hlines hreads.sound.marked
        rw [List.length_nil] at hmerge
        simp only [mergeRegions?, mergeRegions, hregions, hfresh, hold, lines?_eq, hmerge,
          Except.mapError, bind, Except.bind, Option.bind]
        split <;> rfl

end Scaffold.Unguarded
