import Scaffold.Proofs.Storage.Script

/-! # Pieces of a script

What the pieces of a script can hold: no comment, and no semicolon outside of quotes but at the end.
Read again, a piece leads to where the reader was behind it. All pieces together are the script
without its comments. -/
namespace Scaffold.Storage

/-! ## Open pieces -/

/-- A mark that begins and ends a quotation. -/
def IsQuote (c : Char) : Prop := c = '\'' ∨ c = '"'

instance : DecidablePred IsQuote := fun c => inferInstanceAs (Decidable (c = '\'' ∨ c = '"'))

/-- What a piece can hold while it is open, last character first, and what the reader is inside of
behind it: there is no comment in it, and no semicolon outside of quotes. -/
inductive Open : ScriptMode → List Char → Prop
  | start : Open .code []
  | char {c : Char} {cur : List Char} : Open .code cur → c ≠ ';' → ¬ IsQuote c →
      (c = '-' → cur.head? ≠ some '-') → Open .code (c :: cur)
  | opening {q : Char} {cur : List Char} : Open .code cur → IsQuote q → Open (.quoted q) (q :: cur)
  | inside {q c : Char} {cur : List Char} : Open (.quoted q) cur → c ≠ q →
      Open (.quoted q) (c :: cur)
  | closing {q : Char} {cur : List Char} : Open (.quoted q) cur → Open .code (q :: cur)

theorem pieces_char {c : Char} {cs : List Char} (hend : c ≠ ';') (hquote : ¬ IsQuote c)
    (hdash : c = '-' → cs.head? ≠ some '-') (current : List Char) :
    pieces .code current (c :: cs) = pieces .code (c :: current) cs := by
  simp only [IsQuote, not_or] at hquote
  simp [pieces_next hdash, hend, hquote]

theorem IsQuote.ne_dash {q : Char} (h : IsQuote q) : q ≠ '-' := by
  rcases h with rfl | rfl <;> decide

theorem Open.isQuote {q : Char} {cur : List Char} (h : Open (.quoted q) cur) : IsQuote q := by
  generalize hm : ScriptMode.quoted q = m at h
  induction h with
  | start | char | closing => cases hm
  | opening _ hq => cases hm; exact hq
  | inside _ _ ih => exact ih hm

/-- Read afresh, what stands in the open piece leads to where the reader is. -/
theorem Open.pieces_eq {m : ScriptMode} {cur : List Char} (h : Open m cur) (before rest : List Char)
    (hrest : m = .code → cur.head? = some '-' → rest.head? ≠ some '-') :
    pieces .code before (cur.reverse ++ rest) = pieces m (cur ++ before) rest := by
  induction h generalizing rest with
  | start => rfl
  | @char c cur h hend hquote hdash ih =>
    have hnext : cur.head? = some '-' → (c :: rest).head? ≠ some '-' := by
      intro hcur heq
      exact hdash (by simpa using heq) hcur
    rw [List.reverse_cons, List.append_assoc, List.singleton_append, ih _ fun _ => hnext,
      pieces_char hend hquote fun hc => hrest rfl (by simp [hc])]
    rfl
  | @opening q cur h hq ih =>
    have hnext : (q :: rest).head? ≠ some '-' := by simpa using hq.ne_dash
    rw [List.reverse_cons, List.append_assoc, List.singleton_append, ih _ fun _ _ => hnext,
      pieces_quote hq]
    rfl
  | @inside q c cur h hc ih =>
    rw [List.reverse_cons, List.append_assoc, List.singleton_append, ih _ nofun, pieces,
      if_neg hc]
    rfl
  | @closing q cur h ih =>
    rw [List.reverse_cons, List.append_assoc, List.singleton_append, ih _ nofun, pieces,
      if_pos rfl]
    rfl

/-- The pieces of a script: each but the last is open up to the semicolon that ends it. -/
inductive Cut : List (List Char) → Prop
  | last {m : ScriptMode} {p : List Char} : Open m p.reverse → Cut [p]
  | more {body : List Char} {ps : List (List Char)} : Open .code body.reverse → Cut ps →
      Cut ((body ++ [';']) :: ps)

/-- Where the reader can be with what it has in the open piece and what it has still to read. -/
def Ready : ScriptMode → (current rest : List Char) → Prop
  | .comment, current, _ => Open .code current
  | .quoted q, current, _ => Open (.quoted q) current
  | .code, current, rest =>
    Open .code current ∧ (current.head? = some '-' → rest.head? ≠ some '-')

theorem cut_pieces {m : ScriptMode} {current rest : List Char} (h : Ready m current rest) :
    Cut (pieces m current rest) := by
  fun_induction pieces m current rest with
  | case1 m current =>
    have hopen : ∃ m', Open m' current := by
      cases m with
      | code => exact ⟨_, h.1⟩
      | quoted q => exact ⟨_, h⟩
      | comment => exact ⟨_, h⟩
    obtain ⟨m', hopen⟩ := hopen
    exact .last (current.reverse_reverse.symm ▸ hopen)
  | case2 current cs ih =>
    exact ih ⟨.char h (by decide) (by simp [IsQuote]) (fun hc => absurd hc (by decide)), by simp⟩
  | case3 current c cs hc ih => exact ih h
  | case4 q current c cs ih =>
    split
    next hc =>
      subst hc
      rw [if_pos rfl] at ih
      refine ih ⟨.closing h, fun hdash => absurd (Option.some.inj hdash) (Open.isQuote h).ne_dash⟩
    next hc =>
      rw [if_neg hc] at ih
      exact ih (.inside h hc)
  | case5 current cs ih => exact ih h.1
  | case6 current cs _ ih =>
    rw [List.reverse_cons]
    exact .more (current.reverse_reverse.symm ▸ h.1) (ih ⟨.start, by simp⟩)
  | case7 current c cs _ _ hc ih =>
    have hquote : IsQuote c := by simpa [IsQuote] using hc
    exact ih (.opening h.1 hquote)
  | case8 current c cs hdash hend hc ih =>
    have hquote : ¬ IsQuote c := by simpa [IsQuote] using hc
    refine ih ⟨.char h.1 hend hquote fun hc hcur => h.2 hcur (by simp [hc]), fun hc hcs => ?_⟩
    cases cs with
    | nil => cases hcs
    | cons d ds => exact hdash ds (Option.some.inj hc) (by simpa using hcs)

/-! ## Comments -/

/-- A script without its comments. A comment goes from two dashes outside of quotes to the end of
its line, and a quotation to the next quote of its kind. -/
def withoutComments : List Char → List Char
  | [] => []
  | '-' :: '-' :: cs => withoutComments (cs.dropWhile (· ≠ '\n'))
  | c :: cs =>
    if IsQuote c then
      match _h : cs.dropWhile (· ≠ c) with
      | [] => c :: cs
      | _ :: rest => c :: (cs.takeWhile (· ≠ c) ++ c :: withoutComments rest)
    else c :: withoutComments cs
termination_by cs => cs.length
decreasing_by
  · have := cs.length_dropWhile_le (· ≠ '\n')
    simp only [List.length_cons]
    omega
  · have := cs.length_dropWhile_le (· ≠ c)
    rw [_h] at this
    simp only [List.length_cons] at this ⊢
    omega
  · simp

theorem pieces_dropComment (current cs : List Char) :
    pieces .comment current cs = pieces .code current (cs.dropWhile (· ≠ '\n')) := by
  induction cs with
  | nil => rfl
  | cons c cs ih =>
    by_cases hc : c = '\n'
    · subst hc
      rw [pieces, if_pos rfl, List.dropWhile_cons_of_neg (by simp), pieces_plain (by decide)]
    · rw [pieces, if_neg hc, ih, List.dropWhile_cons_of_pos (by simpa using hc)]

theorem pieces_quotation (q : Char) (current cs : List Char) :
    pieces (.quoted q) current cs =
      match cs.dropWhile (· ≠ q) with
      | [] => [current.reverse ++ cs]
      | _ :: rest => pieces .code (q :: (cs.takeWhile (· ≠ q)).reverse ++ current) rest := by
  induction cs generalizing current with
  | nil => simp [pieces]
  | cons c cs ih =>
    by_cases hc : c = q
    · subst hc
      rw [pieces, if_pos rfl, List.dropWhile_cons_of_neg (by simp),
        List.takeWhile_cons_of_neg (by simp)]
      rfl
    · rw [pieces, if_neg hc, ih, List.dropWhile_cons_of_pos (by simpa using hc),
        List.takeWhile_cons_of_pos (by simpa using hc)]
      cases cs.dropWhile (· ≠ q) <;> simp

/-- The pieces of a script hold all of it but its comments. -/
theorem flatten_pieces (current cs : List Char) :
    (pieces .code current cs).flatten = current.reverse ++ withoutComments cs := by
  fun_induction withoutComments cs generalizing current with
  | case1 => simp [pieces]
  | case2 cs ih => rw [pieces, pieces_dropComment, ih]
  | case3 c cs _ hquote hrest =>
    rw [pieces_quote hquote, pieces_quotation, hrest]
    simp
  | case4 c cs _ hquote q rest hrest ih =>
    rw [pieces_quote hquote, pieces_quotation, hrest]
    simp [ih]
  | case5 c cs hdash hquote ih =>
    by_cases hend : c = ';'
    · subst hend
      rw [pieces_end, List.flatten_cons, ih]
      simp
    · rw [pieces_char hend hquote, ih]
      · simp
      · rintro rfl hhead
        obtain ⟨ds, rfl⟩ := List.head?_eq_some_iff.mp hhead
        exact hdash ds rfl rfl

theorem withoutComments_sublist (cs : List Char) : (withoutComments cs).Sublist cs := by
  fun_induction withoutComments cs with
  | case1 => exact .slnil
  | case2 cs ih => exact ((ih.trans (List.dropWhile_sublist _)).cons _).cons _
  | case3 c cs _ hquote hrest => exact .refl _
  | case4 c cs _ hquote q rest hrest ih =>
    have hq : q = c := by
      have hnot := List.head?_dropWhile_not (· ≠ c) cs
      rw [hrest] at hnot
      simpa using hnot
    have hcs := cs.takeWhile_append_dropWhile (p := (· ≠ c))
    rw [hrest] at hcs
    conv_rhs => rw [← hcs, hq]
    exact ((List.Sublist.refl _).append (ih.cons_cons c)).cons_cons c
  | case5 c cs hdash hquote ih => exact ih.cons_cons c

/-! ## What stands in an open piece -/

theorem Open.quote_mem {q : Char} {cur : List Char} (h : Open (.quoted q) cur) : q ∈ cur := by
  generalize hm : ScriptMode.quoted q = m at h
  induction h with
  | start | char | closing => cases hm
  | opening => cases hm; exact .head _
  | inside _ _ ih => exact .tail _ (ih hm)

theorem not_isQuote_of_isPlain {c : Char} (h : isPlain c = true) : ¬ IsQuote c := by
  rintro (rfl | rfl) <;> exact absurd h (by decide)

/-- Without what was read last a piece is open still. -/
theorem Open.of_append {m : ScriptMode} {late cur : List Char} (h : Open m (late ++ cur)) :
    ∃ m', Open m' cur := by
  induction late generalizing m with
  | nil => exact ⟨m, h⟩
  | cons c late ih =>
    cases h with
    | char h | opening h | inside h | closing h => exact ih h

/-- Without the plain characters that it begins with a piece is open still. -/
theorem Open.of_plain {m : ScriptMode} {cur early : List Char}
    (hearly : ∀ c ∈ early, isPlain c = true) (h : Open m (cur ++ early)) : Open m cur := by
  induction cur generalizing m with
  | nil =>
    cases m with
    | code => exact .start
    | quoted q => exact absurd h.isQuote (not_isQuote_of_isPlain (hearly q h.quote_mem))
    | comment => cases h
  | cons c cur ih =>
    cases h with
    | char h hend hquote hdash =>
      refine .char (ih h) hend hquote fun hc hcur => hdash hc ?_
      obtain ⟨ds, rfl⟩ := List.head?_eq_some_iff.mp hcur
      rfl
    | opening h hq => exact .opening (ih h) hq
    | inside h hc => exact .inside (ih h) hc
    | closing h => exact .closing (ih h)

/-! ## Runs of characters -/

theorem pieces_comment_run {run : List Char} (h : '\n' ∉ run) (current rest : List Char) :
    pieces .comment current (run ++ rest) = pieces .comment current rest := by
  rw [pieces_dropComment, pieces_dropComment, List.dropWhile_append_of_pos]
  rintro c hc
  rw [decide_eq_true_eq]
  rintro rfl
  exact h hc

theorem pieces_quoted_run {q : Char} {run : List Char} (h : q ∉ run) (current rest : List Char) :
    pieces (.quoted q) current (run ++ rest) =
      pieces (.quoted q) (run.reverse ++ current) rest := by
  induction run generalizing current with
  | nil => rfl
  | cons c run ih =>
    have hc : c ≠ q := fun heq => h (heq ▸ .head _)
    rw [List.cons_append, pieces, if_neg hc, ih fun hmem => h (.tail _ hmem), List.reverse_cons,
      List.append_assoc]
    rfl

theorem pieces_plain_run {run : List Char} (h : ∀ c ∈ run, isPlain c = true)
    (current rest : List Char) :
    pieces .code current (run ++ rest) = pieces .code (run.reverse ++ current) rest := by
  have hkept : Kept (String.ofList run) := kept_plain (by simpa using h)
  simpa using hkept current rest

end Scaffold.Storage
