import Scaffold.Proofs.Source.Names
import Scaffold.Proofs.Unguarded.Text

/-! # Tokens without a guard

The lexer holds an offset into the bytes of the text. What follows the offset is decoded one
character at a time, and a word is the slice between two offsets. -/
namespace Scaffold.Unguarded

open Scaffold.Text Scaffold.Source

/-! ## Characters and their bytes -/

theorem firstRune_width (b : Nat) (rest : List Nat) :
    1 ≤ (firstRune b rest).width ∧ (firstRune b rest).width ≤ rest.length + 1 := by
  fun_cases firstRune b rest <;> simp_all

/-- What is read as a character is read the same with more bytes behind it. -/
theorem firstRune_append {b : Nat} {bytes : List Nat} (h : firstRune b bytes ≠ ⟨replacement, 1⟩)
    (more : List Nat) : firstRune b (bytes ++ more) = firstRune b bytes := by
  revert h
  fun_cases firstRune b bytes
  case case3 | case5 | case7 | case8 => exact fun h => absurd rfl h
  all_goals simp_all [firstRune]

/-- A character is read the same when the bytes behind it are cut off. -/
theorem firstRune_take (b : Nat) (rest : List Nat) {k : Nat}
    (h : (firstRune b rest).width ≤ k + 1) : firstRune b (rest.take k) = firstRune b rest := by
  by_cases hread : firstRune b (rest.take k) = ⟨replacement, 1⟩
  · rw [hread]
    revert h hread
    fun_cases firstRune b rest
    case case1 hlead => simpa [firstRune, hlead] using Eq.symm
    case case2 hc hlead | case4 hc hlead | case6 hc hlead =>
      intro hk
      obtain ⟨k, rfl⟩ := Nat.exists_eq_add_of_le' (Nat.le_of_succ_le_succ hk)
      simp [firstRune, hlead, hc]
    case case3 | case5 | case7 | case8 => exact fun _ _ => rfl
  · have hmore := firstRune_append hread (rest.drop k)
    rw [List.take_append_drop] at hmore
    exact hmore.symm

theorem decodeFrom_eq (skip : Nat) (bytes : List Nat) :
    decodeFrom skip bytes = decode (bytes.drop skip) := by
  induction bytes generalizing skip with
  | nil => cases skip <;> rfl
  | cons b bytes ih =>
    cases skip with
    | zero => rfl
    | succ skip => exact ih skip

theorem decode_cons (b : Nat) (rest : List Nat) :
    decode (b :: rest) =
      firstRune b rest :: decode (rest.drop ((firstRune b rest).width - 1)) := by
  rw [decode, decodeFrom, decodeFrom_eq]

/-- The number of bytes that spell some characters. -/
def width (rs : List Rune) : Nat := rs.foldr (fun r n => r.width + n) 0

/-- Where characters end, the bytes can be cut. -/
theorem decode_append {bytes : List Nat} {run rest : List Rune} (h : decode bytes = run ++ rest) :
    width run ≤ bytes.length ∧ decode (bytes.take (width run)) = run ∧
      decode (bytes.drop (width run)) = rest := by
  induction run generalizing bytes with
  | nil => simpa [width, decode, decodeFrom] using h
  | cons r run ih =>
    cases bytes with
    | nil => cases h
    | cons b bytes =>
      rw [decode_cons, List.cons_append, List.cons.injEq] at h
      obtain ⟨hr, h⟩ := h
      obtain ⟨hpos, hwidth⟩ := firstRune_width b bytes
      obtain ⟨hle, htake, hdrop⟩ := ih h
      rw [hr] at hpos hwidth hle htake hdrop
      rw [List.length_drop] at hle
      have hsum : width (r :: run) = (r.width - 1 + width run) + 1 := by
        simp only [width, List.foldr_cons]
        omega
      rw [hsum]
      refine ⟨by simp only [List.length_cons]; omega, ?_, ?_⟩
      · have hfirst : firstRune b (bytes.take (r.width - 1 + width run)) = r := by
          rw [firstRune_take b bytes (by rw [hr]; omega), hr]
        rw [List.take_succ_cons, decode_cons, hfirst, List.drop_take, Nat.add_sub_cancel_left,
          htake]
      · rw [List.drop_succ_cons, ← List.drop_drop, hdrop]

theorem length_decode_le (bytes : List Nat) : (decode bytes).length ≤ bytes.length := by
  induction hn : bytes.length using Nat.strongRecOn generalizing bytes with
  | ind n ih =>
    cases bytes with
    | nil => simp [decode, decodeFrom]
    | cons b bytes =>
      subst hn
      rw [decode_cons, List.length_cons, List.length_cons]
      have hshorter : (bytes.drop ((firstRune b bytes).width - 1)).length < (b :: bytes).length := by
        rw [List.length_drop, List.length_cons]
        omega
      have hrest := ih _ hshorter _ rfl
      rw [List.length_drop] at hrest
      omega

/-! ## Reading at an offset -/

/-- A cursor stands where its position says: what it still has to read is what follows there. -/
structure Stands (src : List Nat) (c : Cursor) : Prop where
  bound : c.pos.offset ≤ src.length
  rest : decode (src.drop c.pos.offset) = c.rest

/-- The character at a position, unless the text ends there. -/
def runeAt? (src : List Nat) (p : Pos) : Option (Option Rune) :=
  if p.offset < src.length then do
    let bytes ← slice? src p.offset src.length
    match bytes with
    | b :: rest => some (some (firstRune b rest))
    | [] => none
  else some none

/-- The character at a position, zero at the end. -/
def peek? (src : List Nat) (p : Pos) : Option Char := do
  let r ← runeAt? src p
  some (r.elim '\x00' (·.char))

def advance? (src : List Nat) (p : Pos) : Option Pos := do
  let r ← runeAt? src p
  some (r.elim p p.advance)

/-- The text between two positions. -/
def text? (src : List Nat) (start stop : Pos) : Option (List Char) := do
  let bytes ← slice? src start.offset stop.offset
  some ((decode bytes).map (·.char))

theorem offset_advance (p : Pos) (r : Rune) : (p.advance r).offset = p.offset + r.width := by
  unfold Pos.advance
  split <;> rfl

theorem offset_foldl (run : List Rune) (p : Pos) :
    (run.foldl Pos.advance p).offset = p.offset + width run := by
  induction run generalizing p with
  | nil => rfl
  | cons r run ih =>
    rw [List.foldl_cons, ih, offset_advance, width, width, List.foldr_cons]
    omega

theorem Stands.start (src : List Nat) : Stands src (.ofRunes (decode src)) :=
  ⟨Nat.zero_le _, rfl⟩

/-- A cursor reads some characters and comes to another. -/
structure Moves (c : Cursor) (run : List Rune) (stop : Cursor) : Prop where
  rest : c.rest = run ++ stop.rest
  pos : stop.pos = run.foldl Pos.advance c.pos

theorem Moves.trans {c mid stop : Cursor} {run more : List Rune} (h : Moves c run mid)
    (hm : Moves mid more stop) : Moves c (run ++ more) stop :=
  ⟨by rw [h.rest, hm.rest, List.append_assoc], by rw [hm.pos, h.pos, List.foldl_append]⟩

theorem Moves.length {c stop : Cursor} {run : List Rune} (h : Moves c run stop) :
    run.length + stop.rest.length = c.rest.length := by
  rw [h.rest, List.length_append]

theorem moves_advance {c : Cursor} {r : Rune} {rest : List Rune} (h : c.rest = r :: rest) :
    Moves c [r] c.advance := by
  rw [Cursor.advance, h]
  exact ⟨h, rfl⟩

theorem exists_moves_advance (c : Cursor) : ∃ run, Moves c run c.advance := by
  cases hc : c.rest with
  | nil => exact ⟨[], by rw [Cursor.advance, hc]; exact ⟨rfl, rfl⟩⟩
  | cons r rest => exact ⟨[r], moves_advance hc⟩

theorem moves_span (p : Char → Bool) (c : Cursor) :
    Moves c (c.rest.takeWhile fun r => p r.char) (c.span p).2 :=
  ⟨List.takeWhile_append_dropWhile.symm, rfl⟩

theorem Stands.moves {src : List Nat} {c stop : Cursor} {run : List Rune} (h : Stands src c)
    (hm : Moves c run stop) : Stands src stop := by
  obtain ⟨hle, -, hdrop⟩ := decode_append (h.rest.trans hm.rest)
  have hbound := h.bound
  rw [List.length_drop] at hle
  constructor
  · rw [hm.pos, offset_foldl]
    omega
  · rw [hm.pos, offset_foldl, ← List.drop_drop]
    exact hdrop

/-- What a cursor has read is the slice between the offsets. -/
theorem Stands.text {src : List Nat} {c stop : Cursor} {run : List Rune} (h : Stands src c)
    (hm : Moves c run stop) : text? src c.pos stop.pos = some (run.map (·.char)) := by
  obtain ⟨-, htake, -⟩ := decode_append (h.rest.trans hm.rest)
  have hbound := (h.moves hm).bound
  rw [hm.pos, offset_foldl] at hbound
  rw [text?, hm.pos, offset_foldl, slice?, if_pos ⟨by omega, hbound⟩, List.drop_take,
    Nat.add_sub_cancel_left]
  exact congrArg (fun rs => some (rs.map Rune.char)) htake

theorem Stands.cons {src : List Nat} {p : Pos} {r : Rune} {rest : List Rune}
    (h : Stands src ⟨r :: rest, p⟩) : Stands src ⟨rest, p.advance r⟩ :=
  h.moves (moves_advance rfl)

theorem runeAt?_eq {src : List Nat} {c : Cursor} (h : Stands src c) :
    runeAt? src c.pos = some c.rest.head? := by
  unfold runeAt?
  rw [← h.rest]
  split
  next hlt =>
    rw [slice?_drop h.bound]
    have hpos : 0 < (src.drop c.pos.offset).length := by
      rw [List.length_drop]
      omega
    obtain ⟨b, rest, hdrop⟩ := List.exists_cons_of_length_pos hpos
    rw [hdrop, decode_cons]
    rfl
  next hge =>
    rw [List.drop_eq_nil_of_le (Nat.le_of_not_lt hge)]
    rfl

theorem peek?_eq {src : List Nat} {c : Cursor} (h : Stands src c) :
    peek? src c.pos = some c.peek := by
  rw [peek?, runeAt?_eq h, Cursor.peek]
  cases c.rest <;> rfl

theorem Stands.advance {src : List Nat} {c : Cursor} (h : Stands src c) :
    Stands src c.advance := by
  obtain ⟨run, hrun⟩ := exists_moves_advance c
  exact h.moves hrun

theorem advance?_eq {src : List Nat} {c : Cursor} (h : Stands src c) :
    advance? src c.pos = some c.advance.pos := by
  rw [advance?, runeAt?_eq h, Cursor.advance]
  cases c.rest <;> rfl

/-! ## Words and numbers -/

/-- Where the run of characters of a class ends. -/
def endOf? (src : List Nat) (p : Char → Bool) : (fuel : Nat) → Pos → Option Pos
  | 0, _ => none
  | fuel + 1, start => do
    match ← runeAt? src start with
    | none => some start
    | some r => if p r.char then endOf? src p fuel (start.advance r) else some start

theorem endOf?_eq {src : List Nat} {p : Char → Bool} {fuel : Nat} {c : Cursor}
    (h : Stands src c) (hfuel : c.rest.length < fuel) :
    endOf? src p fuel c.pos = some (c.span p).2.pos := by
  obtain ⟨rest, pos⟩ := c
  induction rest generalizing fuel pos with
  | nil =>
    obtain ⟨fuel, rfl⟩ := Nat.exists_eq_add_of_lt hfuel
    rw [endOf?, runeAt?_eq h]
    rfl
  | cons r rest ih =>
    cases fuel with
    | zero => exact absurd hfuel (Nat.not_lt_zero _)
    | succ fuel =>
      rw [endOf?, runeAt?_eq h]
      cases hp : p r.char with
      | false => simp [Cursor.span, hp]
      | true =>
        have hnext := ih _ h.cons (by simpa using hfuel)
        simpa [Cursor.span, hp] using hnext

/-- Where a number ends: behind its digits, or behind a fraction if a digit follows the point. -/
def numberEnd? (src : List Nat) (fuel : Nat) (start : Pos) : Option Pos := do
  let whole ← endOf? src isDigit fuel start
  let point ← peek? src whole
  let behind ← advance? src whole
  let next ← peek? src behind
  if point = '.' && isDigit next then endOf? src isDigit fuel behind else some whole

def scanNumber? (src : List Nat) (fuel : Nat) (start : Pos) : Option (List Char × Pos) := do
  let stop ← numberEnd? src fuel start
  let digits ← text? src start stop
  some (digits, stop)

theorem scanNumber_eq (c : Cursor) : scanNumber c =
    if (c.span isDigit).2.peek = '.' && isDigit (c.span isDigit).2.advance.peek then
      ((c.span isDigit).1 ++ '.' :: ((c.span isDigit).2.advance.span isDigit).1,
        ((c.span isDigit).2.advance.span isDigit).2)
    else c.span isDigit := rfl

theorem moves_scanNumber (c : Cursor) :
    ∃ run, Moves c run (scanNumber c).2 ∧ run.map (·.char) = (scanNumber c).1 := by
  have hwhole := moves_span isDigit c
  rw [scanNumber_eq]
  split
  next hpoint =>
    obtain ⟨hdot, -⟩ := Bool.and_eq_true_iff.mp hpoint
    rw [decide_eq_true_eq] at hdot
    cases hrest : (c.span isDigit).2.rest with
    | nil => simp [Cursor.peek, hrest] at hdot
    | cons r rest =>
      have hr : r.char = '.' := by simpa [Cursor.peek, hrest] using hdot
      have hall := (hwhole.trans (moves_advance hrest)).trans (moves_span isDigit _)
      refine ⟨_, hall, ?_⟩
      rw [List.map_append, List.map_append, List.append_assoc, List.map_singleton, hr]
      rfl
  next => exact ⟨_, hwhole, rfl⟩

theorem scanNumber_ne_nil {c : Cursor} {r : Rune} {rest : List Rune} (hc : c.rest = r :: rest)
    (hr : isDigit r.char = true) : (scanNumber c).1 ≠ [] := by
  have hspan := span_ne_nil hc hr
  rw [scanNumber_eq]
  split
  · simp
  · exact hspan

theorem length_advance (c : Cursor) : c.advance.rest.length ≤ c.rest.length := by
  obtain ⟨run, hrun⟩ := exists_moves_advance c
  have hlen := hrun.length
  omega

theorem numberEnd?_eq {src : List Nat} {fuel : Nat} {c : Cursor} (h : Stands src c)
    (hfuel : c.rest.length < fuel) : numberEnd? src fuel c.pos = some (scanNumber c).2.pos := by
  have hwhole := h.moves (moves_span isDigit c)
  have hlen := (moves_span isDigit c).length
  have hbehind := length_advance (c.span isDigit).2
  simp only [numberEnd?, endOf?_eq h hfuel, peek?_eq hwhole, advance?_eq hwhole,
    peek?_eq hwhole.advance, Option.bind_eq_bind, Option.bind_some]
  rw [scanNumber_eq, endOf?_eq hwhole.advance (by omega)]
  split <;> rfl

theorem scanNumber?_eq {src : List Nat} {fuel : Nat} {c : Cursor} (h : Stands src c)
    (hfuel : c.rest.length < fuel) :
    scanNumber? src fuel c.pos = some ((scanNumber c).1, (scanNumber c).2.pos) := by
  obtain ⟨run, hmoves, hrun⟩ := moves_scanNumber c
  rw [scanNumber?, numberEnd?_eq h hfuel]
  simp only [h.text hmoves, hrun, Option.bind_eq_bind, Option.bind_some]

/-! ## Gaps and strings -/

/-- Skip blanks and comments from a position on. -/
def skipGap? (src : List Nat) : (fuel : Nat) → Gap → Pos → Option (Except LexError Pos)
  | 0, _, _ => none
  | fuel + 1, gap, p => do
    match gap, ← runeAt? src p with
    | .blockComment start _, none => some (.error ⟨.unterminatedComment, start, '/'⟩)
    | _, none => some (.ok p)
    | .blank, some r =>
      if isBlank r.char then skipGap? src fuel .blank (p.advance r)
      else if r.char = '/' then do
        match ← runeAt? src (p.advance r) with
        | none => some (.ok p)
        | some s =>
          if s.char = '/' then skipGap? src fuel .lineComment ((p.advance r).advance s)
          else if s.char = '*' then
            skipGap? src fuel (.blockComment p false) ((p.advance r).advance s)
          else some (.ok p)
      else some (.ok p)
    | .lineComment, some r =>
      skipGap? src fuel (if r.char = '\n' then .blank else .lineComment) (p.advance r)
    | .blockComment start star, some r =>
      if star && r.char = '/' then skipGap? src fuel .blank (p.advance r)
      else skipGap? src fuel (.blockComment start (r.char = '*')) (p.advance r)

theorem moves_cons {p : Pos} {r : Rune} {rest : List Rune} {stop : Cursor}
    (h : ∃ run, Moves ⟨rest, p.advance r⟩ run stop) : ∃ run, Moves ⟨r :: rest, p⟩ run stop := by
  obtain ⟨run, hrun⟩ := h
  exact ⟨r :: run, congrArg (r :: ·) hrun.rest, hrun.pos⟩

theorem skipGap_blank (p : Pos) (r : Rune) (rest : List Rune) :
    skipGap .blank p (r :: rest) =
      if isBlank r.char then skipGap .blank (p.advance r) rest
      else if r.char = '/' then
        match rest with
        | [] => .ok ⟨[r], p⟩
        | s :: rest =>
          if s.char = '/' then skipGap .lineComment ((p.advance r).advance s) rest
          else if s.char = '*' then skipGap (.blockComment p false) ((p.advance r).advance s) rest
          else .ok ⟨r :: s :: rest, p⟩
      else .ok ⟨r :: rest, p⟩ := by
  cases rest <;> rfl

theorem moves_skipGap {gap : Gap} {p : Pos} {rs : List Rune} {stop : Cursor}
    (h : skipGap gap p rs = .ok stop) : ∃ run, Moves ⟨rs, p⟩ run stop := by
  induction gap, p, rs using skipGap.induct with
  | case1 => cases h
  | case2 gap p hgap =>
    cases gap with
    | blockComment start star => exact absurd rfl (hgap start star)
    | _ =>
      cases h
      exact ⟨[], rfl, rfl⟩
  | case3 p r rest hr ih =>
    rw [skipGap_blank, if_pos hr] at h
    exact moves_cons (ih h)
  | case4 p r hr hslash =>
    rw [skipGap_blank, if_neg hr, if_pos hslash] at h
    cases h
    exact ⟨[], rfl, rfl⟩
  | case5 p r hr hslash s rest hs ih =>
    rw [skipGap_blank, if_neg hr, if_pos hslash] at h
    exact moves_cons (moves_cons (ih ((if_pos hs).symm.trans h)))
  | case6 p r hr hslash s rest hs hstar ih =>
    rw [skipGap_blank, if_neg hr, if_pos hslash] at h
    exact moves_cons (moves_cons (ih ((if_pos hstar).symm.trans ((if_neg hs).symm.trans h))))
  | case7 p r hr hslash s rest hs hstar =>
    rw [skipGap_blank, if_neg hr, if_pos hslash] at h
    cases (if_neg hstar).symm.trans ((if_neg hs).symm.trans h)
    exact ⟨[], rfl, rfl⟩
  | case8 p r rest hr hslash =>
    rw [skipGap_blank, if_neg hr, if_neg hslash] at h
    cases h
    exact ⟨[], rfl, rfl⟩
  | case9 p r rest ih => exact moves_cons (ih h)
  | case10 start star p r rest hclose ih => exact moves_cons (ih ((if_pos hclose).symm.trans h))
  | case11 start star p r rest hclose ih => exact moves_cons (ih ((if_neg hclose).symm.trans h))

theorem skipGap?_eq {src : List Nat} (gap : Gap) {fuel : Nat} {c : Cursor} (h : Stands src c)
    (hfuel : c.rest.length < fuel) :
    skipGap? src fuel gap c.pos = some ((skipGap gap c.pos c.rest).map (·.pos)) := by
  induction fuel generalizing gap c with
  | zero => exact absurd hfuel (Nat.not_lt_zero _)
  | succ fuel ih =>
    rw [skipGap?, runeAt?_eq h]
    obtain ⟨rs, p⟩ := c
    dsimp only at hfuel ⊢
    cases rs with
    | nil => cases gap <;> rfl
    | cons r rest =>
      have hrest : rest.length < fuel := by simpa using hfuel
      cases gap with
      | lineComment => exact ih _ h.cons hrest
      | blockComment start star =>
        by_cases hclose : (star && decide (r.char = '/')) = true
        · refine (if_pos hclose).trans ((ih .blank h.cons hrest).trans ?_)
          exact congrArg (some ∘ Except.map Cursor.pos) (if_pos hclose).symm
        · refine (if_neg hclose).trans ((ih _ h.cons hrest).trans ?_)
          exact congrArg (some ∘ Except.map Cursor.pos) (if_neg hclose).symm
      | blank =>
        rw [skipGap_blank]
        by_cases hr : isBlank r.char = true
        · rw [if_pos hr]
          exact (if_pos hr).trans (ih .blank h.cons hrest)
        rw [if_neg hr]
        refine (if_neg hr).trans ?_
        by_cases hslash : r.char = '/'
        · rw [if_pos hslash, if_pos hslash]
          have hnext := runeAt?_eq h.cons
          dsimp only at hnext
          rw [hnext]
          cases rest with
          | nil => rfl
          | cons s rest =>
            have hmore : rest.length < fuel := by simp at hrest; omega
            by_cases hs : s.char = '/'
            · simpa [hs] using ih .lineComment h.cons.cons hmore
            by_cases hstar : s.char = '*'
            · simpa [hs, hstar] using ih (.blockComment p false) h.cons.cons hmore
            · simp [hs, hstar, Except.map]
        · rw [if_neg hslash, if_neg hslash]
          rfl

/-- The text of a string literal from a position behind its quote on. -/
def scanString? (src : List Nat) (quote : Char) (start : Pos) :
    (fuel : Nat) → Pos → Option (Except LexError (List Char × Pos))
  | 0, _ => none
  | fuel + 1, p => do
    match ← runeAt? src p with
    | none => some (.error ⟨.unterminatedString, start, quote⟩)
    | some r =>
      if r.char = '\n' then some (.error ⟨.unterminatedString, start, quote⟩)
      else if r.char = quote then some (.ok ([], p.advance r))
      else if r.char = '\\' then do
        match ← runeAt? src (p.advance r) with
        | none => some (.error ⟨.unknownEscape, p, '\x00'⟩)
        | some s =>
          match unescape s.char with
          | none => some (.error ⟨.unknownEscape, p, s.char⟩)
          | some ch => do
            let rest ← scanString? src quote start fuel ((p.advance r).advance s)
            some (rest.map fun (text, stop) => (ch :: text, stop))
      else do
        let rest ← scanString? src quote start fuel (p.advance r)
        some (rest.map fun (text, stop) => (r.char :: text, stop))

theorem moves_scanString {quote : Char} {start p : Pos} {rs : List Rune} {text : List Char}
    {stop : Cursor} (h : scanString quote start p rs = .ok (text, stop)) :
    ∃ run, Moves ⟨rs, p⟩ run stop := by
  fun_induction scanString quote start p rs generalizing text stop
  case case1 | case2 | case4 | case5 => cases h
  case case3 p r rest hline hquote =>
    cases h
    exact ⟨[r], rfl, rfl⟩
  case case6 ih =>
    obtain ⟨⟨more, c⟩, hmore, heq⟩ := bind_eq_ok.mp h
    cases heq
    exact moves_cons (moves_cons (ih hmore))
  case case7 ih =>
    obtain ⟨⟨more, c⟩, hmore, heq⟩ := bind_eq_ok.mp h
    cases heq
    exact moves_cons (ih hmore)

theorem scanString?_eq {src : List Nat} (quote : Char) (start : Pos) {fuel : Nat} {c : Cursor}
    (h : Stands src c) (hfuel : c.rest.length < fuel) :
    scanString? src quote start fuel c.pos =
      some ((scanString quote start c.pos c.rest).map fun (text, c) => (text, c.pos)) := by
  induction fuel generalizing c with
  | zero => exact absurd hfuel (Nat.not_lt_zero _)
  | succ fuel ih =>
    rw [scanString?, runeAt?_eq h]
    obtain ⟨rs, p⟩ := c
    dsimp only at hfuel ⊢
    fun_cases scanString quote start p rs
    case case1 => rfl
    case case2 hline => exact if_pos hline
    case case3 hline hquote => exact (if_neg hline).trans (if_pos hquote)
    case case4 hline hquote hescape =>
      have hnext := runeAt?_eq h.cons
      refine (if_neg hline).trans ((if_neg hquote).trans ((if_pos hescape).trans ?_))
      simp [hnext, Except.map]
    case case5 hline hquote hescape s rest hs =>
      have hnext := runeAt?_eq h.cons
      refine (if_neg hline).trans ((if_neg hquote).trans ((if_pos hescape).trans ?_))
      simp [hnext, hs, Except.map]
    case case6 hline hquote hescape s rest ch hs =>
      have hnext := runeAt?_eq h.cons
      refine (if_neg hline).trans ((if_neg hquote).trans ((if_pos hescape).trans ?_))
      have hmore := ih h.cons.cons (by simp at hfuel ⊢; omega)
      dsimp only at hnext hmore
      simp only [hnext, hs, hmore, List.head?_cons, Option.bind_eq_bind, Option.bind_some]
      cases scanString quote start ((p.advance _).advance s) rest <;> rfl
    case case7 r rest hline hquote hescape =>
      refine (if_neg hline).trans ((if_neg hquote).trans ((if_neg hescape).trans ?_))
      have hmore := ih h.cons (by simpa using hfuel)
      dsimp only at hmore
      simp only [hmore, Option.bind_eq_bind, Option.bind_some]
      cases scanString quote start (p.advance r) rest <;> rfl

/-! ## Tokens -/

/-- The token at a position where the character `r` stands. -/
def scanToken? (src : List Nat) (fuel : Nat) (start : Pos) (r : Rune) :
    Option (Except LexError (Token × Pos)) :=
  if isNameStart r.char then do
    let stop ← endOf? src isNamePart fuel start
    let word ← text? src start stop
    some (.ok (⟨wordKind (String.ofList word), String.ofList word, start⟩, stop))
  else if isDigit r.char then do
    let (digits, stop) ← scanNumber? src fuel start
    some (.ok (⟨.number, String.ofList digits, start⟩, stop))
  else if r.char = '"' || r.char = '\'' then do
    let behind ← advance? src start
    let scanned ← scanString? src r.char start fuel behind
    some (scanned.map fun (text, stop) => (⟨.string, String.ofList text, start⟩, stop))
  else if r.char = '@' then do
    let nameAt ← advance? src start
    let first ← peek? src nameAt
    if isNameStart first then do
      let stop ← endOf? src isNamePart fuel nameAt
      let name ← text? src nameAt stop
      let paren ← peek? src stop
      let behind ← advance? src stop
      if paren = '(' then some (.ok (⟨.attr, String.ofList name, start⟩, behind))
      else some (.error ⟨.missingAttrParen (String.ofList name), stop, paren⟩)
    else some (.error ⟨.missingAttrName, nameAt, first⟩)
  else do
    let behind ← advance? src start
    match punctuation r.char with
    | some kind => some (.ok (⟨kind, r.char.toString, start⟩, behind))
    | none => some (.error ⟨.unexpectedChar, start, r.char⟩)

/-- The tokens from a position on. No token is longer than `width`. -/
def lexFrom? (src : List Nat) (width : Nat) :
    (fuel : Nat) → Pos → Option (Except LexError (List Token))
  | 0, _ => none
  | fuel + 1, p => do
    match ← skipGap? src width .blank p with
    | .error e => some (.error e)
    | .ok start => do
      match ← runeAt? src start with
      | none => some (.ok [⟨.eof, "", start⟩])
      | some r => do
        match ← scanToken? src width start r with
        | .error e => some (.error e)
        | .ok (t, stop) => do
          let rest ← lexFrom? src width fuel stop
          some (rest.map (t :: ·))

def lex? (src : List Nat) : Option (Except LexError (List Token)) :=
  lexFrom? src (src.length + 1) ((decode src).length + 1) Pos.start

/-- A token takes at least one character. -/
theorem moves_scanToken {c stop : Cursor} {r : Rune} {rest : List Rune} {t : Token}
    (hc : c.rest = r :: rest) (h : scanToken c r = .ok (t, stop)) :
    ∃ run, run ≠ [] ∧ Moves c run stop := by
  have hone := moves_advance hc
  unfold scanToken at h
  split at h
  next hname =>
    cases h
    exact ⟨_, by simp [hc, isNamePart_of_isNameStart hname], moves_span isNamePart c⟩
  split at h
  next hdigit =>
    cases h
    obtain ⟨run, hrun, hchars⟩ := moves_scanNumber c
    refine ⟨run, fun hnil => scanNumber_ne_nil hc hdigit ?_, hrun⟩
    rw [← hchars, hnil, List.map_nil]
  split at h
  next =>
    obtain ⟨⟨text, d⟩, htext, heq⟩ := bind_eq_ok.mp h
    cases heq
    obtain ⟨run, hrun⟩ := moves_scanString htext
    exact ⟨_, by simp, hone.trans hrun⟩
  split at h
  next =>
    simp only at h
    split at h
    · split at h
      next hparen =>
        cases h
        have hspan := hone.trans (moves_span isNamePart c.advance)
        obtain ⟨run, hrun⟩ := exists_moves_advance (c.advance.span isNamePart).2
        exact ⟨_, by simp, hspan.trans hrun⟩
      next => cases h
    · cases h
  next =>
    split at h
    · cases h
      exact ⟨_, by simp, hone⟩
    · cases h

theorem scanToken?_eq {src : List Nat} {fuel : Nat} {c : Cursor} (r : Rune) (h : Stands src c)
    (hfuel : c.rest.length < fuel) :
    scanToken? src fuel c.pos r = some ((scanToken c r).map fun (t, stop) => (t, stop.pos)) := by
  have hnext := h.advance
  have hlen := length_advance c
  have hmore : c.advance.rest.length < fuel := by omega
  unfold scanToken? scanToken
  split
  next =>
    simp only [endOf?_eq h hfuel, h.text (moves_span isNamePart c), Option.bind_eq_bind,
      Option.bind_some]
    rfl
  split
  next =>
    simp only [scanNumber?_eq h hfuel, Option.bind_eq_bind, Option.bind_some]
    rfl
  split
  next =>
    simp only [advance?_eq h, scanString?_eq r.char c.pos hnext hmore, Option.bind_eq_bind,
      Option.bind_some]
    cases scanString r.char c.pos c.advance.pos c.advance.rest <;> rfl
  split
  next =>
    have hname := moves_span isNamePart c.advance
    have hstop := hnext.moves hname
    simp only [advance?_eq h, peek?_eq hnext, endOf?_eq hnext hmore, hnext.text hname,
      peek?_eq hstop, advance?_eq hstop, Option.bind_eq_bind, Option.bind_some]
    split
    · split <;> rfl
    · rfl
  next =>
    simp only [advance?_eq h, Option.bind_eq_bind, Option.bind_some]
    cases punctuation r.char <;> rfl

theorem lexFrom?_eq {src : List Nat} {width fuel : Nat} {c : Cursor} (h : Stands src c)
    (hwidth : c.rest.length < width) (hfuel : c.rest.length < fuel) :
    lexFrom? src width fuel c.pos = some (lexFrom fuel c) := by
  induction fuel generalizing c with
  | zero => exact absurd hfuel (Nat.not_lt_zero _)
  | succ fuel ih =>
    rw [lexFrom?, lexFrom, skipGap?_eq .blank h hwidth]
    cases hgap : skipGap .blank c.pos c.rest with
    | error e => rfl
    | ok start =>
      obtain ⟨run, hrun⟩ := moves_skipGap hgap
      have hstart : Stands src start := h.moves hrun
      have hlen : run.length + start.rest.length = c.rest.length := hrun.length
      simp only [Except.map, runeAt?_eq hstart, bind, Option.bind, Except.bind]
      cases hrest : start.rest with
      | nil => rfl
      | cons r rest =>
        simp only [List.head?_cons, scanToken?_eq r hstart (by omega : _ < width)]
        cases htoken : scanToken start r with
        | error e => rfl
        | ok p =>
          obtain ⟨t, stop⟩ := p
          obtain ⟨word, hne, hword⟩ := moves_scanToken hrest htoken
          have hshorter := hword.length
          have hpos := List.length_pos_iff.mpr hne
          simp only [Except.map, ih (hstart.moves hword) (by omega) (by omega)]

theorem lex?_eq (src : List Nat) : lex? src = some (lex (decode src)) := by
  have hlen := length_decode_le src
  have hwidth : (decode src).length < src.length + 1 := by omega
  exact lexFrom?_eq (Stands.start src) hwidth (Nat.lt_succ_self _)

/-! ## Reading tokens -/

/-- The token at an index; behind the last one it stands again. -/
def tokenAt? (tokens : List Token) (i : Nat) : Option Token :=
  if tokens.length ≤ i then
    if tokens.length = 0 then some Token.none else tokens[tokens.length - 1]?
  else tokens[i]?

theorem tokenAt?_eq (tokens : List Token) (pos n : Nat) :
    tokenAt? tokens (pos + n) =
      some (Tokens.peekAt n ⟨tokens.drop pos, tokens.getLastD Token.none⟩) := by
  rw [tokenAt?, Tokens.peekAt, List.getElem?_drop]
  split
  next hend =>
    rw [List.getElem?_eq_none hend, Option.getD_none]
    split
    next hnil => rw [List.length_eq_zero_iff.mp hnil]; rfl
    next hne =>
      rw [← List.getLast?_eq_getElem?, List.getLastD_eq_getLast?]
      cases hlast : tokens.getLast? with
      | none => simp_all
      | some t => rfl
  next hlt =>
    rw [List.getElem?_eq_getElem (Nat.lt_of_not_le hlt)]
    rfl

end Scaffold.Unguarded
