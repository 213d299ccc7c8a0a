import Scaffold.Proofs.Source.Values
import Scaffold.Proofs.Text.Encoding

/-! # Where tokens stand

A source text is its tokens with blanks and comments between them: nothing is left out and nothing
is read twice. Lines, columns and offsets are stated on the bytes of the text, as anyone who opens
the file would count them. -/
namespace Scaffold.Source

open Scaffold.Text (Rune isBlank isDigit decode octets bytesOf replacement)
open Scaffold.Unguarded (Moves width decode_append)

/-! ## Positions -/

/-- The position behind some text: its line feeds are counted, then the characters of its last
line. -/
def posAfter (text : List Nat) : Pos where
  line := 1 + text.count 10
  column := 1 + (decode (text.rtakeWhile (· ≠ 10))).length
  offset := text.length

theorem foldl_advance (run : List Rune) : run.foldl Pos.advance .start =
    ⟨1 + run.countP (·.char = '\n'), 1 + (run.rtakeWhile (·.char ≠ '\n')).length, width run⟩ := by
  induction run using List.reverseRecOn with
  | nil => rfl
  | append_singleton run r ih =>
    have hone : width [r] = r.width := by simp [width]
    rw [List.foldl_append, List.foldl_cons, List.foldl_nil, ih, List.countP_append,
      List.rtakeWhile_concat, Text.width_append, hone, Pos.advance]
    split
    next hr => simp [hr]; omega
    next hr => simp [hr]; omega

theorem foldl_advance_decode (text : List Nat) :
    (decode text).foldl Pos.advance .start = posAfter text := by
  rw [foldl_advance, ← Text.count_decode, ← Text.decode_lastLine, Text.width_decode]
  rfl

/-- A cursor between the text it has read and the text it has still to read. -/
structure Between (before after : List Nat) (c : Cursor) : Prop where
  split : decode (before ++ after) = decode before ++ c.rest
  pos : c.pos = posAfter before

theorem Between.start (src : List Nat) : Between [] src (.ofRunes (decode src)) :=
  ⟨rfl, rfl⟩

theorem Between.rest {before after : List Nat} {c : Cursor} (h : Between before after c) :
    decode after = c.rest := by
  obtain ⟨-, -, hdrop⟩ := decode_append h.split
  rwa [Text.width_decode, List.drop_left] at hdrop

theorem Between.moves {before after : List Nat} {c stop : Cursor} {run : List Rune}
    (h : Between before after c) (hm : Moves c run stop) :
    ∃ text rest, after = text ++ rest ∧ decode text = run ∧ Between (before ++ text) rest stop := by
  obtain ⟨-, htake, -⟩ := decode_append (h.rest.trans hm.rest)
  have hboth : decode (before ++ after) = (decode before ++ run) ++ stop.rest := by
    rw [h.split, hm.rest, List.append_assoc]
  obtain ⟨-, hread, -⟩ := decode_append hboth
  rw [Text.width_append, Text.width_decode, List.take_length_add_append] at hread
  refine ⟨after.take (width run), after.drop (width run), (List.take_append_drop _ _).symm, htake,
    ?_, ?_⟩
  · rw [List.append_assoc, List.take_append_drop, hboth, hread]
  · rw [hm.pos, h.pos, ← foldl_advance_decode, ← List.foldl_append, ← hread, foldl_advance_decode]

/-! ## Gaps -/

/-- Blanks and comments. Only a comment that ends with the text may lack its line feed. -/
inductive Trivia (final : Prop) : List Char → Prop
  | nil : Trivia final []
  | blank {c : Char} {cs : List Char} : isBlank c = true → Trivia final cs → Trivia final (c :: cs)
  | line {body cs : List Char} : '\n' ∉ body → Trivia final cs →
      Trivia final ('/' :: '/' :: (body ++ '\n' :: cs))
  | lastLine {body : List Char} : final → '\n' ∉ body → Trivia final ('/' :: '/' :: body)
  | block {body cs : List Char} : ¬ ['*', '/'] <:+: body → Trivia final cs →
      Trivia final ('/' :: '*' :: (body ++ '*' :: '/' :: cs))

/-- What is left of a gap when part of it has been read. -/
def Gap.Reads (final : Prop) : Gap → List Char → Prop
  | .blank, cs => Trivia final cs
  | .lineComment, cs =>
    (∃ body rest, cs = body ++ '\n' :: rest ∧ '\n' ∉ body ∧ Trivia final rest) ∨
      final ∧ '\n' ∉ cs
  | .blockComment _ star, cs =>
    ∃ body rest, (if star then ['*'] else []) ++ cs = body ++ '*' :: '/' :: rest ∧
      ¬ ['*', '/'] <:+: body ∧ Trivia final rest

theorem reads_lineComment {final : Prop} {c : Char} {cs : List Char}
    (h : (if c = '\n' then Gap.blank else .lineComment).Reads final cs) :
    Gap.lineComment.Reads final (c :: cs) := by
  split at h
  next hc => exact .inl ⟨[], cs, by rw [hc]; rfl, List.not_mem_nil, h⟩
  next hc =>
    have hne : '\n' ≠ c := Ne.symm hc
    rcases h with ⟨body, rest, rfl, hbody, hrest⟩ | ⟨hfinal, hcs⟩
    · exact .inl ⟨c :: body, rest, rfl, by simp [hne, hbody], hrest⟩
    · exact .inr ⟨hfinal, by simp [hne, hcs]⟩

theorem not_infix_cons {c : Char} {body : List Char} (h : ¬ ['*', '/'] <:+: body)
    (hc : c = '*' → body.head? ≠ some '/') : ¬ ['*', '/'] <:+: c :: body := by
  rw [List.infix_cons_iff, not_or]
  refine ⟨?_, h⟩
  rintro ⟨rest, hrest⟩
  obtain ⟨rfl, rfl⟩ := List.cons.inj hrest
  exact hc rfl rfl

theorem reads_blockComment {final : Prop} {start : Pos} {star : Bool} {c : Char} {cs : List Char}
    (hopen : ¬ (star = true ∧ c = '/'))
    (h : (Gap.blockComment start (c = '*')).Reads final cs) :
    (Gap.blockComment start star).Reads final (c :: cs) := by
  obtain ⟨body, rest, hcs, hbody, hrest⟩ := h
  by_cases hc : c = '*'
  · simp only [hc, decide_true, if_true, List.singleton_append] at hcs
    cases star with
    | false => exact ⟨body, rest, by simpa [hc] using hcs, hbody, hrest⟩
    | true =>
      refine ⟨'*' :: body, rest, by simpa [hc] using hcs, not_infix_cons hbody fun _ => ?_, hrest⟩
      cases body with
      | nil => simp
      | cons d ds => simp [← (List.cons.inj hcs).1]
  · simp only [hc, decide_false, Bool.false_eq_true, if_false, List.nil_append] at hcs
    have hmore : ¬ ['*', '/'] <:+: c :: body := not_infix_cons hbody fun h => absurd h hc
    cases star with
    | false => exact ⟨c :: body, rest, by simp [hcs], hmore, hrest⟩
    | true =>
      refine ⟨'*' :: c :: body, rest, by simp [hcs], not_infix_cons hmore fun _ => ?_, hrest⟩
      simpa using hopen

theorem skipGap_reads {gap : Gap} {p : Pos} {rs : List Rune} {stop : Cursor}
    (h : skipGap gap p rs = .ok stop) :
    ∃ run, Moves ⟨rs, p⟩ run stop ∧ gap.Reads (stop.rest = []) (run.map (·.char)) := by
  induction gap, p, rs using skipGap.induct with
  | case1 => cases h
  | case2 gap p hgap =>
    cases gap with
    | blockComment start star => exact absurd rfl (hgap start star)
    | blank =>
      cases h
      exact ⟨[], ⟨rfl, rfl⟩, .nil⟩
    | lineComment =>
      cases h
      exact ⟨[], ⟨rfl, rfl⟩, .inr ⟨rfl, List.not_mem_nil⟩⟩
  | case3 p r rest hr ih =>
    rw [Unguarded.skipGap_blank, if_pos hr] at h
    obtain ⟨run, hrun, hreads⟩ := ih h
    exact ⟨r :: run, (Unguarded.moves_advance rfl).trans hrun, .blank hr hreads⟩
  | case4 p r hr hslash =>
    rw [Unguarded.skipGap_blank, if_neg hr, if_pos hslash] at h
    cases h
    exact ⟨[], ⟨rfl, rfl⟩, .nil⟩
  | case5 p r hr hslash s rest hs ih =>
    rw [Unguarded.skipGap_blank, if_neg hr, if_pos hslash] at h
    obtain ⟨run, hrun, hreads⟩ := ih ((if_pos hs).symm.trans h)
    refine ⟨r :: s :: run, ((Unguarded.moves_advance rfl).trans
      (Unguarded.moves_advance rfl)).trans hrun, ?_⟩
    rw [List.map_cons, List.map_cons, hslash, hs]
    rcases hreads with ⟨body, cs, hcs, hbody, hrest⟩ | ⟨hfinal, hcs⟩
    · rw [hcs]
      exact .line hbody hrest
    · exact .lastLine hfinal hcs
  | case6 p r hr hslash s rest hs hstar ih =>
    rw [Unguarded.skipGap_blank, if_neg hr, if_pos hslash] at h
    obtain ⟨run, hrun, body, cs, hcs, hbody, hrest⟩ :=
      ih ((if_pos hstar).symm.trans ((if_neg hs).symm.trans h))
    refine ⟨r :: s :: run, ((Unguarded.moves_advance rfl).trans
      (Unguarded.moves_advance rfl)).trans hrun, ?_⟩
    simp only [Bool.false_eq_true, if_false, List.nil_append] at hcs
    rw [List.map_cons, List.map_cons, hslash, hstar, hcs]
    exact .block hbody hrest
  | case7 p r hr hslash s rest hs hstar =>
    rw [Unguarded.skipGap_blank, if_neg hr, if_pos hslash] at h
    cases (if_neg hstar).symm.trans ((if_neg hs).symm.trans h)
    exact ⟨[], ⟨rfl, rfl⟩, .nil⟩
  | case8 p r rest hr hslash =>
    rw [Unguarded.skipGap_blank, if_neg hr, if_neg hslash] at h
    cases h
    exact ⟨[], ⟨rfl, rfl⟩, .nil⟩
  | case9 p r rest ih =>
    obtain ⟨run, hrun, hreads⟩ := ih h
    exact ⟨r :: run, (Unguarded.moves_advance rfl).trans hrun, reads_lineComment hreads⟩
  | case10 start star p r rest hclose ih =>
    obtain ⟨run, hrun, hreads⟩ := ih ((if_pos hclose).symm.trans h)
    obtain ⟨hstar, hslash⟩ := Bool.and_eq_true_iff.mp hclose
    rw [decide_eq_true_eq] at hslash
    refine ⟨r :: run, (Unguarded.moves_advance rfl).trans hrun, [], _, ?_, by simp, hreads⟩
    simp [hstar, hslash]
  | case11 start star p r rest hclose ih =>
    obtain ⟨run, hrun, hreads⟩ := ih ((if_neg hclose).symm.trans h)
    refine ⟨r :: run, (Unguarded.moves_advance rfl).trans hrun, reads_blockComment ?_ hreads⟩
    simpa using hclose

/-! ## Tokens -/

/-- The characters that some bytes are read as. -/
def charsOf (bytes : List Nat) : List Char := (decode bytes).map (·.char)

/-- No longer text of its class stands at the front. -/
def Longest (P : List Char → Prop) (text following : List Char) : Prop :=
  P text ∧ ∀ more, more ≠ [] → more <+: following → ¬ P (text ++ more)

def IsWord (text : List Char) : Prop :=
  ∃ c rest, text = c :: rest ∧ isNameStart c = true ∧ ∀ d ∈ rest, isNamePart d = true

theorem IsWord.isNamePart {text : List Char} (h : IsWord text) :
    ∀ c ∈ text, isNamePart c = true := by
  obtain ⟨c, rest, rfl, hc, hrest⟩ := h
  exact List.forall_mem_cons.mpr ⟨isNamePart_of_isNameStart hc, hrest⟩

/-- Behind a run of a class stands no character of it. -/
theorem head_span {p : Char → Bool} (c : Cursor) {d : Char} {more : List Char}
    (h : d :: more <+: (c.span p).2.rest.map (·.char)) : p d = false := by
  have hhead := List.head?_dropWhile_not (fun r : Rune => p r.char) c.rest
  obtain ⟨rest, hrest⟩ := h
  cases hdrop : c.rest.dropWhile fun r => p r.char with
  | nil => simp [Cursor.span, hdrop] at hrest
  | cons r rs =>
    simp only [Cursor.span, hdrop, List.map_cons, List.cons_append, List.cons.injEq] at hrest
    rw [hdrop] at hhead
    rw [hrest.1]
    simpa using hhead

theorem longest_word {c : Cursor} {r : Rune} {rest : List Rune} (hc : c.rest = r :: rest)
    (hr : isNameStart r.char = true) :
    Longest IsWord (c.span isNamePart).1 ((c.span isNamePart).2.rest.map (·.char)) := by
  have hpart := isNamePart_of_isNameStart hr
  constructor
  · refine ⟨r.char, (rest.takeWhile fun r => isNamePart r.char).map (·.char), ?_, hr, ?_⟩
    · simp [Cursor.span, hc, hpart]
    · intro d hd
      refine span_chars isNamePart c d ?_
      simp only [Cursor.span, hc, List.takeWhile_cons, hpart, if_true, List.map_cons]
      exact List.mem_cons_of_mem _ hd
  · intro more hmore hprefix hword
    obtain ⟨d, ds, rfl⟩ := List.exists_cons_of_ne_nil hmore
    have hd := hword.isNamePart d (by simp)
    rw [head_span c hprefix] at hd
    cases hd

/-- What stands behind the digits at the front of a numeral. -/
theorem IsNumeral.tail {whole tail : List Char} (h : IsNumeral (whole ++ tail))
    (hwhole : ∀ c ∈ whole, isDigit c = true) (htail : ∀ c ∈ tail.head?, isDigit c = false) :
    tail = [] ∨ ∃ digits, tail = '.' :: digits ∧ IsDigits digits := by
  obtain ⟨w, f, heq, hw, hf⟩ := h
  have hfhead : f.takeWhile isDigit = [] := by
    rcases hf with rfl | ⟨digits, rfl, -⟩
    · rfl
    · exact List.takeWhile_cons_of_neg (by decide)
  have hthead : tail.takeWhile isDigit = [] := by
    cases tail with
    | nil => rfl
    | cons c cs => exact List.takeWhile_cons_of_neg (by simp [htail c rfl])
  have hcut := congrArg (List.takeWhile isDigit) heq
  rw [List.takeWhile_append_of_pos hwhole, List.takeWhile_append_of_pos hw.2, hfhead, hthead,
    List.append_nil, List.append_nil] at hcut
  rw [hcut] at heq
  rwa [List.append_cancel_left heq]

theorem peek_prefix {c : Cursor} {d e : Char} {more : List Char}
    (h : d :: e :: more <+: c.rest.map (·.char)) : c.peek = d ∧ c.advance.peek = e := by
  obtain ⟨behind, h⟩ := h
  rcases hc : c.rest with _ | ⟨r, _ | ⟨s, rs⟩⟩ <;> rw [hc] at h <;>
    simp only [List.map_nil, List.map_cons, List.cons_append, List.cons.injEq,
      reduceCtorEq, and_false] at h
  simp [Cursor.peek, Cursor.advance, hc, h.1, h.2.1]

theorem longest_number {c : Cursor} {r : Rune} {rest : List Rune} (hc : c.rest = r :: rest)
    (hr : isDigit r.char = true) :
    Longest IsNumeral (scanNumber c).1 ((scanNumber c).2.rest.map (·.char)) := by
  refine ⟨scanNumber_numeral hc hr, fun more hmore hprefix hnumeral => ?_⟩
  obtain ⟨d, ds, rfl⟩ := List.exists_cons_of_ne_nil hmore
  have hwhole := span_chars isDigit c
  rw [Unguarded.scanNumber_eq] at hprefix hnumeral
  split at hnumeral
  next hpoint =>
    rw [if_pos hpoint] at hprefix
    rw [List.append_assoc] at hnumeral
    rcases hnumeral.tail hwhole (by simp; decide) with h | ⟨digits, h, hdigits⟩
    · cases h
    · rw [List.cons_append, List.cons.injEq] at h
      have hd := hdigits.2 d (by simp [← h.2])
      rw [head_span _ hprefix] at hd
      cases hd
  next hpoint =>
    rw [if_neg hpoint] at hprefix
    rcases hnumeral.tail hwhole (by simp [head_span c hprefix]) with h | ⟨digits, h, hdigits⟩
    · cases h
    · obtain ⟨rfl, rfl⟩ := List.cons.inj h
      obtain ⟨e, es, rfl⟩ := List.exists_cons_of_ne_nil hdigits.1
      have hpeek : (c.span isDigit).2.peek = '.' ∧ (c.span isDigit).2.advance.peek = e :=
        peek_prefix hprefix
      exact hpoint (by simp [hpeek, hdigits.2 e (by simp)])

/-- The text of a literal behind its opening quote, and what it stands for. -/
inductive Quoted (quote : Char) : List Char → List Char → Prop
  | close : Quoted quote [quote] []
  | plain {c : Char} {cs text : List Char} : c ≠ '\n' → c ≠ quote → c ≠ '\\' →
      Quoted quote cs text → Quoted quote (c :: cs) (c :: text)
  | escape {e c : Char} {cs text : List Char} : unescape e = some c →
      Quoted quote cs text → Quoted quote ('\\' :: e :: cs) (c :: text)

theorem scanString_quoted {quote : Char} {start p : Pos} {rs : List Rune} {text : List Char}
    {stop : Cursor} (h : scanString quote start p rs = .ok (text, stop)) :
    ∃ run, Moves ⟨rs, p⟩ run stop ∧ Quoted quote (run.map (·.char)) text := by
  fun_induction scanString quote start p rs generalizing text stop
  case case1 | case2 | case4 | case5 => cases h
  case case3 p r rest hline hquote =>
    cases h
    exact ⟨[r], ⟨rfl, rfl⟩, hquote ▸ .close⟩
  case case6 p r hline hquote hescape s rest c hs ih =>
    obtain ⟨⟨more, stop⟩, hmore, heq⟩ := bind_eq_ok.mp h
    cases heq
    obtain ⟨run, hrun, hquoted⟩ := ih hmore
    refine ⟨r :: s :: run, ((Unguarded.moves_advance rfl).trans
      (Unguarded.moves_advance rfl)).trans hrun, ?_⟩
    rw [List.map_cons, List.map_cons, hescape]
    exact .escape hs hquoted
  case case7 p r rest hline hquote hescape ih =>
    obtain ⟨⟨more, stop⟩, hmore, heq⟩ := bind_eq_ok.mp h
    cases heq
    obtain ⟨run, hrun, hquoted⟩ := ih hmore
    exact ⟨r :: run, (Unguarded.moves_advance rfl).trans hrun, .plain hline hquote hescape hquoted⟩

/-- A token, by its kind and its lexeme, is spelled by some bytes when others follow. -/
inductive Spells (following : List Nat) : TokenKind → String → List Nat → Prop
  | word {word : String} : Longest IsWord word.toList (charsOf following) →
      Spells following (wordKind word) word (bytesOf word)
  | number {digits : String} : Longest IsNumeral digits.toList (charsOf following) →
      Spells following .number digits (bytesOf digits)
  | string {quote : Char} {bytes : List Nat} {source text : List Char} :
      quote = '"' ∨ quote = '\'' → charsOf bytes = quote :: source → Quoted quote source text →
      Spells following .string (String.ofList text) bytes
  | attr {name : String} : IsWord name.toList →
      Spells following .attr name (bytesOf ("@" ++ name ++ "("))
  | punctuation {c : Char} {kind : TokenKind} : punctuation c = some kind →
      Spells following kind c.toString (bytesOf c.toString)

/-- Bytes that read as characters that words and numbers are made of. -/
theorem bytesOf_run {bytes : List Nat} {run : List Rune} {cs : List Char} (h : decode bytes = run)
    (hrun : run.map (·.char) = cs) (hcs : replacement ∉ cs) :
    bytes = bytesOf (String.ofList cs) := by
  rw [Text.bytesOf_ofList]
  exact (Text.octets_decode (by rw [h, hrun]) hcs).symm

theorem replacement_notMem {p : Char → Bool} (hp : p replacement = false) {cs : List Char}
    (h : ∀ c ∈ cs, p c = true) : replacement ∉ cs :=
  fun hmem => Bool.false_ne_true (hp.symm.trans (h _ hmem))

theorem isNamePart_replacement : isNamePart replacement = false := by decide +kernel

/-- A numeral has no character that stands for bytes that are none. -/
theorem IsNumeral.replacement_notMem {text : List Char} (h : IsNumeral text) :
    replacement ∉ text := by
  intro hmem
  rcases h.chars _ hmem with hdigit | hpoint
  · exact absurd hdigit (by decide +kernel)
  · exact absurd hpoint (by decide)

theorem punctuation_ne_replacement {c : Char} {kind : TokenKind}
    (h : punctuation c = some kind) : c ≠ replacement := by
  rintro rfl
  have hnone : punctuation replacement = none := by decide
  cases hnone.symm.trans h

theorem cons_of_peek {c : Cursor} (h : c.peek ≠ '\x00') :
    ∃ r rest, c.rest = r :: rest ∧ r.char = c.peek := by
  cases hc : c.rest with
  | nil => exact absurd (by simp [Cursor.peek, hc]) h
  | cons r rest => exact ⟨r, rest, rfl, by simp [Cursor.peek, hc]⟩

/-- The name of an attribute stands between its sign and the bracket that opens its arguments. -/
theorem Between.scanAttr {before after : List Nat} {c : Cursor} {r : Rune} {rest : List Rune}
    (h : Between before after c) (hc : c.rest = r :: rest) (hat : r.char = '@')
    (hname : isNameStart c.advance.peek = true)
    (hparen : (c.advance.span isNamePart).2.peek = '(') :
    ∃ text following, after = text ++ following ∧
      Spells following .attr (String.ofList (c.advance.span isNamePart).1) text ∧
      Between (before ++ text) following (c.advance.span isNamePart).2.advance := by
  obtain ⟨first, more, hfirst, hchar⟩ := cons_of_peek (c := c.advance) fun hzero => by
    rw [hzero] at hname
    exact absurd hname (by decide)
  obtain ⟨paren, behind, hbehind, hopen⟩ := cons_of_peek
    (c := (c.advance.span isNamePart).2) (by rw [hparen]; decide)
  rw [hparen] at hopen
  have hlongest := longest_word hfirst (hchar ▸ hname)
  obtain ⟨text, following, rfl, hread, hstop⟩ := h.moves (((Unguarded.moves_advance hc).trans
    (Unguarded.moves_span isNamePart c.advance)).trans (Unguarded.moves_advance hbehind))
  have hchars : replacement ∉ '@' :: ((c.advance.span isNamePart).1 ++ ['(']) := by
    have hword := replacement_notMem isNamePart_replacement hlongest.1.isNamePart
    simp [hword]
    decide
  have htext := bytesOf_run hread (by simp [hat, hopen, Cursor.span]) hchars
  have hspelled : String.ofList ('@' :: ((c.advance.span isNamePart).1 ++ ['('])) =
      "@" ++ String.ofList (c.advance.span isNamePart).1 ++ "(" := by
    simp [← String.toList_inj]
  refine ⟨text, following, rfl, ?_, hstop⟩
  rw [htext, hspelled]
  exact .attr (by rw [String.toList_ofList]; exact hlongest.1)

theorem Between.scanToken {before after : List Nat} {c stop : Cursor} {r : Rune}
    {rest : List Rune} {t : Token} (h : Between before after c) (hc : c.rest = r :: rest)
    (ht : scanToken c r = .ok (t, stop)) :
    ∃ kind lexeme text following, t = ⟨kind, lexeme, posAfter before⟩ ∧ after = text ++ following ∧
      Spells following kind lexeme text ∧ Between (before ++ text) following stop := by
  have hone := Unguarded.moves_advance hc
  unfold Source.scanToken at ht
  split at ht
  next hname =>
    cases ht
    obtain ⟨text, following, rfl, hread, hstop⟩ := h.moves (Unguarded.moves_span isNamePart c)
    have hlongest := longest_word hc hname
    have htext := bytesOf_run hread rfl
      (replacement_notMem isNamePart_replacement hlongest.1.isNamePart)
    refine ⟨_, _, text, following, by rw [h.pos], rfl, ?_, hstop⟩
    rw [htext]
    refine .word ?_
    rw [String.toList_ofList, charsOf, hstop.rest]
    exact hlongest
  split at ht
  next hdigit =>
    cases ht
    obtain ⟨run, hmoves, hrun⟩ := Unguarded.moves_scanNumber c
    obtain ⟨text, following, rfl, hread, hstop⟩ := h.moves hmoves
    have hlongest := longest_number hc hdigit
    have htext := bytesOf_run hread hrun hlongest.1.replacement_notMem
    refine ⟨.number, String.ofList (scanNumber c).1, text, following, by rw [← h.pos]; rfl, rfl, ?_,
      hstop⟩
    rw [htext]
    refine .number ?_
    rw [String.toList_ofList, charsOf, hstop.rest]
    exact hlongest
  split at ht
  next hquote =>
    obtain ⟨⟨value, stop⟩, hvalue, heq⟩ := bind_eq_ok.mp ht
    cases heq
    obtain ⟨run, hrun, hquoted⟩ := scanString_quoted hvalue
    obtain ⟨text, following, rfl, hread, hstop⟩ := h.moves (hone.trans hrun)
    refine ⟨_, _, text, following, by rw [h.pos], rfl, ?_, hstop⟩
    refine .string (by simpa using hquote) ?_ hquoted
    rw [charsOf, hread]
    rfl
  split at ht
  next hat =>
    simp only at ht
    split at ht
    next hname =>
      split at ht
      next hparen =>
        cases ht
        obtain ⟨text, following, hafter, hspells, hstop⟩ := h.scanAttr hc hat hname hparen
        exact ⟨_, _, text, following, by rw [h.pos], hafter, hspells, hstop⟩
      next => cases ht
    next => cases ht
  next =>
    split at ht
    next kind hkind =>
      cases ht
      obtain ⟨text, following, rfl, hread, hstop⟩ := h.moves hone
      have hchars : [r].map (·.char) = [r.char] := rfl
      have htext := bytesOf_run hread hchars
        (by simpa using (punctuation_ne_replacement hkind).symm)
      refine ⟨_, _, text, following, by rw [h.pos], rfl, ?_, hstop⟩
      rw [htext]
      exact .punctuation hkind
    next => cases ht

/-- Some text as its tokens, each behind a gap, up to the end of the input. -/
inductive Tiles : (before after : List Nat) → List Token → Prop
  | last {before gap : List Nat} : Trivia True (charsOf gap) →
      Tiles before gap [⟨.eof, "", posAfter (before ++ gap)⟩]
  | token {before gap text after : List Nat} {kind : TokenKind} {lexeme : String}
      {ts : List Token} : Trivia False (charsOf gap) → Spells after kind lexeme text →
      Tiles (before ++ gap ++ text) after ts →
      Tiles before (gap ++ (text ++ after)) (⟨kind, lexeme, posAfter (before ++ gap)⟩ :: ts)

theorem tiles_lexFrom {fuel : Nat} {before after : List Nat} {c : Cursor} {ts : List Token}
    (h : Between before after c) (hfuel : c.rest.length < fuel) (hlex : lexFrom fuel c = .ok ts) :
    Tiles before after ts := by
  induction fuel generalizing before after c ts with
  | zero => exact absurd hfuel (Nat.not_lt_zero _)
  | succ fuel ih =>
    obtain ⟨start, hgap, hlex⟩ := bind_eq_ok.mp hlex
    obtain ⟨run, hrun, htrivia⟩ := skipGap_reads hgap
    obtain ⟨gap, text, rfl, hread, hstart⟩ := h.moves hrun
    rw [← hread] at htrivia
    split at hlex
    next hnil =>
      cases hlex
      have hempty : text = [] := by
        have hnone := hstart.rest
        rw [hnil] at hnone
        have hwidth := Text.width_decode text
        rw [hnone] at hwidth
        exact List.length_eq_zero_iff.mp hwidth.symm
      rw [hempty, List.append_nil, hstart.pos]
      exact .last (by simpa [Gap.Reads, charsOf, hnil] using htrivia)
    next r rest hcons =>
      obtain ⟨⟨t, stop⟩, ht, hlex⟩ := bind_eq_ok.mp hlex
      obtain ⟨ts', hts, hlex⟩ := bind_eq_ok.mp hlex
      cases hlex
      obtain ⟨kind, lexeme, text, following, rfl, rfl, hspells, hstop⟩ := hstart.scanToken hcons ht
      refine .token ?_ hspells (ih hstop ?_ hts)
      · simpa [Gap.Reads, charsOf, hcons] using htrivia
      · have hgap : run.length + start.rest.length = c.rest.length := hrun.length
        obtain ⟨word, hne, hword⟩ := Unguarded.moves_scanToken hcons ht
        have hread := hword.length
        have hpos := List.length_pos_iff.mpr hne
        omega

/-! ## What the tiles say -/

/-! The kinds that words and punctuation can have tell the rules of `Spells` apart. -/

theorem wordKind_mem (word : String) : wordKind word ∈ [TokenKind.ident, .keyword, .bool] := by
  unfold wordKind
  split
  · decide
  split
  · decide
  · decide

theorem punctuation_kind {c : Char} {kind : TokenKind} (h : punctuation c = some kind) :
    kind ∉ [TokenKind.ident, .keyword, .bool, .number, .string, .attr, .eof] := by
  unfold punctuation at h
  split at h <;> cases h <;> decide

theorem bytesOf_ne_nil {s : String} (h : s.toList ≠ []) : bytesOf s ≠ [] := by
  obtain ⟨c, cs, hc⟩ := List.exists_cons_of_ne_nil h
  rw [← String.ofList_toList (s := s), hc, Text.bytesOf_ofList, List.flatMap_cons]
  have hlen : (octets c).length = c.utf8Size := by
    rw [octets, List.length_map, String.length_utf8EncodeChar]
  have hpos := c.utf8Size_pos
  intro hnil
  rw [List.append_eq_nil_iff] at hnil
  rw [hnil.1] at hlen
  exact absurd hpos (by simp [← hlen])

section Spells
variable {following text : List Nat} {kind : TokenKind} {lexeme : String}

theorem Spells.kind_ne_eof (h : Spells following kind lexeme text) : kind ≠ .eof := by
  cases h with
  | word => exact wordKind_ne_eof lexeme
  | number | string | attr => simp
  | punctuation hc => exact punctuation_ne_eof hc

theorem Spells.ne_nil (h : Spells following kind lexeme text) : text ≠ [] := by
  cases h with
  | word hword =>
    obtain ⟨c, rest, hc, -⟩ := hword.1
    exact bytesOf_ne_nil (by simp [hc])
  | number hnumber => exact bytesOf_ne_nil hnumber.1.ne_nil
  | string hquote hchars hquoted =>
    rintro rfl
    cases hchars
  | attr => exact bytesOf_ne_nil (by simp)
  | punctuation => exact bytesOf_ne_nil (by simp)

/-- All but strings and attributes are spelled by their lexemes. -/
theorem Spells.verbatim (h : Spells following kind lexeme text)
    (hkind : kind ≠ .string ∧ kind ≠ .attr) : text = bytesOf lexeme := by
  cases h with
  | word | number | punctuation => rfl
  | string => exact absurd rfl hkind.1
  | attr => exact absurd rfl hkind.2

theorem Spells.attribute (h : Spells following .attr lexeme text) :
    text = bytesOf ("@" ++ lexeme ++ "(") := by
  generalize hkind : TokenKind.attr = kind at h
  cases h with
  | word => exact absurd (wordKind_mem lexeme) (by simp [← hkind])
  | attr => rfl
  | number | string => cases hkind
  | punctuation hc => exact absurd (punctuation_kind hc) (by simp [← hkind])

theorem Spells.longest_word (h : Spells following kind lexeme text)
    (hkind : kind = .ident ∨ kind = .keyword ∨ kind = .bool) :
    Longest IsWord lexeme.toList (charsOf following) := by
  cases h with
  | word hword => exact hword
  | number | string | attr => simp at hkind
  | punctuation hc =>
    refine absurd (punctuation_kind hc) ?_
    rcases hkind with rfl | rfl | rfl <;> decide

theorem Spells.longest_number (h : Spells following .number lexeme text) :
    Longest IsNumeral lexeme.toList (charsOf following) := by
  generalize hkind : TokenKind.number = kind at h
  cases h with
  | number hnumber => exact hnumber
  | word => exact absurd (wordKind_mem lexeme) (by simp [← hkind])
  | string | attr => cases hkind
  | punctuation hc => exact absurd (punctuation_kind hc) (by simp [← hkind])

end Spells

section Tiles
variable {before after : List Nat} {ts : List Token}

theorem Tiles.ends (h : Tiles before after ts) :
    ∃ init, ts = init ++ [⟨.eof, "", posAfter (before ++ after)⟩] ∧
      ∀ t ∈ init, t.kind ≠ .eof := by
  induction h with
  | last => exact ⟨[], rfl, by simp⟩
  | @token before gap text after kind lexeme ts hgap hspells htiles ih =>
    obtain ⟨init, rfl, hinit⟩ := ih
    refine ⟨⟨kind, lexeme, posAfter (before ++ gap)⟩ :: init, ?_,
      List.forall_mem_cons.mpr ⟨hspells.kind_ne_eof, hinit⟩⟩
    simp only [List.append_assoc, List.cons_append]

/-- Every token but the last is spelled at its place. -/
theorem Tiles.spells (h : Tiles before after ts) {t : Token} (ht : t ∈ ts) :
    t = ⟨.eof, "", posAfter (before ++ after)⟩ ∨
      ∃ pre text post, before ++ after = before ++ pre ++ (text ++ post) ∧
        t.pos = posAfter (before ++ pre) ∧ Spells post t.kind t.lexeme text := by
  induction h with
  | last => exact .inl (List.mem_singleton.mp ht)
  | @token before gap text after kind lexeme ts hgap hspells htiles ih =>
    rcases List.mem_cons.mp ht with rfl | ht
    · exact .inr ⟨gap, text, after, by rw [List.append_assoc], rfl, hspells⟩
    · rcases ih ht with rfl | ⟨pre, word, post, hsplit, hpos, hword⟩
      · exact .inl (by simp only [List.append_assoc])
      · refine .inr ⟨gap ++ text ++ pre, word, post, ?_, ?_, hword⟩
        · simpa only [List.append_assoc] using hsplit
        · simpa only [List.append_assoc] using hpos

theorem Tiles.offset_le (h : Tiles before after ts) {t : Token} (ht : t ∈ ts) :
    before.length ≤ t.pos.offset := by
  rcases h.spells ht with rfl | ⟨pre, word, post, -, hpos, -⟩
  · simp [posAfter]
  · simp [hpos, posAfter]

theorem Tiles.ascending (h : Tiles before after ts) :
    ts.Pairwise fun t u => t.pos.offset < u.pos.offset := by
  induction h with
  | last => exact List.pairwise_singleton _ _
  | token hgap hspells htiles ih =>
    refine List.pairwise_cons.mpr ⟨fun u hu => ?_, ih⟩
    have hle := htiles.offset_le hu
    have hpos := List.length_pos_iff.mpr hspells.ne_nil
    simp only [List.length_append, posAfter] at hle ⊢
    omega

end Tiles

/-- How the tokens of a text stand in it. -/
structure Laid (src : List Nat) (ts : List Token) : Prop where
  ends : ∃ init, ts = init ++ [⟨.eof, "", posAfter src⟩] ∧ ∀ t ∈ init, t.kind ≠ .eof
  ascending : ts.Pairwise fun t u => t.pos.offset < u.pos.offset
  located : ∀ t ∈ ts, t.pos = posAfter (src.take t.pos.offset)
  verbatim : ∀ t ∈ ts, t.kind ≠ .string → t.kind ≠ .attr →
    bytesOf t.lexeme <+: src.drop t.pos.offset
  attr : ∀ t ∈ ts, t.kind = .attr → bytesOf ("@" ++ t.lexeme ++ "(") <+: src.drop t.pos.offset
  word : ∀ t ∈ ts, t.kind = .ident ∨ t.kind = .keyword ∨ t.kind = .bool →
    Longest IsWord t.lexeme.toList (charsOf (src.drop (t.pos.offset + (bytesOf t.lexeme).length)))
  number : ∀ t ∈ ts, t.kind = .number →
    Longest IsNumeral t.lexeme.toList
      (charsOf (src.drop (t.pos.offset + (bytesOf t.lexeme).length)))
  tiles : Tiles [] src ts

theorem Tiles.laid {src : List Nat} {ts : List Token} (h : Tiles [] src ts) : Laid src ts := by
  have hplace {t : Token} (ht : t ∈ ts) : t = ⟨.eof, "", posAfter src⟩ ∨
      ∃ pre text post, src = pre ++ (text ++ post) ∧ t.pos = posAfter pre ∧
        Spells post t.kind t.lexeme text := h.spells ht
  -- The bytes at the place of a token, and the bytes behind it.
  have hread {t : Token} (ht : t ∈ ts) (hkind : t.kind ≠ .eof) : ∃ text post,
      src.drop t.pos.offset = text ++ post ∧ Spells post t.kind t.lexeme text := by
    rcases hplace ht with rfl | ⟨pre, text, post, hsrc, hpos, hspells⟩
    · exact absurd rfl hkind
    · exact ⟨text, post, by rw [hpos, hsrc]; exact List.drop_left, hspells⟩
  have hbehind {t : Token} {text post : List Nat} (htext : text = bytesOf t.lexeme)
      (hdrop : src.drop t.pos.offset = text ++ post) :
      src.drop (t.pos.offset + (bytesOf t.lexeme).length) = post := by
    rw [← List.drop_drop, hdrop, htext, List.drop_left]
  refine ⟨h.ends, h.ascending, fun t ht => ?_, fun t ht hstring hattr => ?_, fun t ht hkind => ?_,
    fun t ht hkind => ?_, fun t ht hkind => ?_, h⟩
  · rcases hplace ht with rfl | ⟨pre, text, post, hsrc, hpos, hspells⟩
    · simp [posAfter]
    · have htake : src.take pre.length = pre := by rw [hsrc, List.take_left]
      rw [hpos]
      exact congrArg posAfter htake.symm
  · rcases hplace ht with rfl | ⟨pre, text, post, hsrc, hpos, hspells⟩
    · exact List.nil_prefix
    · rw [hpos, hsrc, hspells.verbatim ⟨hstring, hattr⟩]
      exact ⟨post, List.drop_left.symm⟩
  · obtain ⟨text, post, hdrop, hspells⟩ := hread ht (by simp [hkind])
    rw [hkind] at hspells
    rw [hdrop, hspells.attribute]
    exact List.prefix_append _ _
  · have hne : t.kind ≠ .eof ∧ t.kind ≠ .string ∧ t.kind ≠ .attr := by
      rcases hkind with h | h | h <;> simp [h]
    obtain ⟨text, post, hdrop, hspells⟩ := hread ht hne.1
    rw [hbehind (hspells.verbatim hne.2) hdrop]
    exact hspells.longest_word hkind
  · obtain ⟨text, post, hdrop, hspells⟩ := hread ht (by simp [hkind])
    rw [hbehind (hspells.verbatim (by simp [hkind])) hdrop]
    rw [hkind] at hspells
    exact hspells.longest_number

/-- The tokens of a text, whatever its bytes are, lie in it one behind another: each stands where
its position says, and only blanks and comments stand between them. -/
theorem lex_laid {src : List Nat} {ts : List Token} (h : lex (decode src) = .ok ts) :
    Laid src ts :=
  (tiles_lexFrom (.start src) (Nat.lt_succ_self _) h).laid

/-- A word on the first line, a comment with a byte that is no character, and a number. -/
theorem lex_laid_comment :
    lex (decode (bytesOf "a //" ++ [0xFF] ++ bytesOf "\n 7")) =
      .ok [⟨.ident, "a", ⟨1, 1, 0⟩⟩, ⟨.number, "7", ⟨2, 2, 7⟩⟩, ⟨.eof, "", ⟨2, 3, 8⟩⟩] ∧
    Laid (bytesOf "a //" ++ [0xFF] ++ bytesOf "\n 7")
      [⟨.ident, "a", ⟨1, 1, 0⟩⟩, ⟨.number, "7", ⟨2, 2, 7⟩⟩, ⟨.eof, "", ⟨2, 3, 8⟩⟩] := by
  have hlex : lex (decode (bytesOf "a //" ++ [0xFF] ++ bytesOf "\n 7")) =
      .ok [⟨.ident, "a", ⟨1, 1, 0⟩⟩, ⟨.number, "7", ⟨2, 2, 7⟩⟩, ⟨.eof, "", ⟨2, 3, 8⟩⟩] := by
    decide +kernel
  exact ⟨hlex, lex_laid hlex⟩

end Scaffold.Source
