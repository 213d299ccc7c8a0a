import Scaffold.Proofs.Storage.Pieces
import Scaffold.Proofs.Text.Encoding

/-! # Scripts in bytes

A script of any bytes is cut at semicolons that are read as they are, for no byte of another
character looks like one. What is found has no blanks at its ends and is found again when it is put
on lines of its own, and so is what is put together from quoted names and texts of any bytes. -/
namespace Scaffold.Storage

open Scaffold.Text (Rune decode isBlank trimChars replaceChar)
open Scaffold.Unguarded (width decode_append)

/-! ## Blanks at the ends -/

section

variable {α : Type} {p : α → Bool} {l : List α}

theorem head?_dropBoth : ∀ a ∈ ((l.dropWhile p).rdropWhile p).head?, p a = false := by
  intro a ha
  obtain ⟨more, hcore⟩ := List.head?_eq_some_iff.mp (Option.mem_def.mp ha)
  obtain ⟨rest, hrest⟩ := List.rdropWhile_prefix p (l.dropWhile p)
  have hfirst := List.head?_dropWhile_not p l
  rw [← hrest, hcore] at hfirst
  exact hfirst

theorem getLast?_dropBoth : ∀ a ∈ ((l.dropWhile p).rdropWhile p).getLast?, p a = false := by
  intro a ha
  obtain ⟨hne, rfl⟩ := List.mem_getLast?_eq_getLast ha
  simpa using List.rdropWhile_last_not p (l.dropWhile p) hne

theorem dropBoth_eq_nil (h : (l.dropWhile p).rdropWhile p = []) : ∀ a ∈ l, p a = true := by
  intro a ha
  have hrest := List.rdropWhile_eq_nil_iff.mp h
  rw [← l.takeWhile_append_dropWhile (p := p)] at ha
  rcases List.mem_append.mp ha with ha | ha
  · exact List.mem_takeWhile_imp ha
  · exact hrest a ha

theorem takeWhile_of_head? (h : ∀ a ∈ l.head?, p a = false) : l.takeWhile p = [] := by
  cases l with
  | nil => rfl
  | cons a l => exact List.takeWhile_cons_of_neg (by simp [h a rfl])

theorem dropWhile_of_head? (h : ∀ a ∈ l.head?, p a = false) : l.dropWhile p = l := by
  cases l with
  | nil => rfl
  | cons a l => exact List.dropWhile_cons_of_neg (by simp [h a rfl])

theorem rdropWhile_of_getLast? (h : ∀ a ∈ l.getLast?, p a = false) : l.rdropWhile p = l :=
  List.rdropWhile_eq_self_iff.mpr fun hne => by simp [h _ (List.getLast_mem_getLast? hne)]

end

/-! ## Scripts in bytes -/

/-- How a text in bytes reads. -/
def readingOf (bytes : List UInt8) : List Rune := decode (bytes.map UInt8.toNat)

def isBlankRune (r : Rune) : Bool := isBlank r.char

/-- Bytes that spell nothing but blanks. -/
def Blank (bytes : List UInt8) : Prop := ∀ r ∈ readingOf bytes, isBlankRune r = true

/-- A text in bytes with no blank at either end. -/
structure Trimmed (bytes : List UInt8) : Prop where
  front : ∀ r ∈ (readingOf bytes).head?, isBlankRune r = false
  back : ∀ r ∈ (readingOf bytes).getLast?, isBlankRune r = false

/-- A text in bytes without the blanks at both ends. -/
def trimOctets (bytes : List UInt8) : List UInt8 :=
  let front := (readingOf bytes).takeWhile isBlankRune
  let core := ((readingOf bytes).dropWhile isBlankRune).rdropWhile isBlankRune
  (bytes.drop (width front)).take (width core)

/-- What the reader makes of a text in bytes. -/
def asRead (bytes : List UInt8) : List Char := bytes.map Char.ofUInt8

theorem asRead_append (xs ys : List UInt8) : asRead (xs ++ ys) = asRead xs ++ asRead ys :=
  List.map_append

/-- The statements that the pieces of a script hold. -/
def found (ps : List (List Char)) : List (List UInt8) :=
  (ps.map fun p => trimOctets (p.map Char.toUInt8)).filter (· ≠ [])

/-- The statements of a script in bytes. What cuts a script is ASCII, and such a byte stands for
nothing but its character, so the pieces are found by reading byte for byte. -/
def octetStatements (script : List UInt8) : List (List UInt8) :=
  found (pieces .code [] (asRead script))

/-- Where characters end, bytes can be cut. -/
theorem readingOf_append {bytes : List UInt8} {run rest : List Rune}
    (h : readingOf bytes = run ++ rest) :
    readingOf (bytes.take (width run)) = run ∧ readingOf (bytes.drop (width run)) = rest := by
  obtain ⟨-, htake, hdrop⟩ := decode_append h
  rw [readingOf, readingOf, List.map_take, List.map_drop]
  exact ⟨htake, hdrop⟩

@[simp] theorem readingOf_nil : readingOf [] = [] := rfl

theorem width_readingOf (bytes : List UInt8) : width (readingOf bytes) = bytes.length := by
  rw [readingOf, Text.width_decode, List.length_map]

/-- Trimming leaves out blanks at the ends and nothing else. -/
theorem trimOctets_spec (bytes : List UInt8) : ∃ before after,
    bytes = before ++ trimOctets bytes ++ after ∧ Blank before ∧ Blank after ∧
    Trimmed (trimOctets bytes) ∧ (trimOctets bytes = [] → Blank bytes) := by
  have hfront := (readingOf bytes).takeWhile_append_dropWhile (p := isBlankRune)
  obtain ⟨htake, hdrop⟩ := readingOf_append hfront.symm
  rw [← List.rdropWhile_append_rtakeWhile (p := isBlankRune)
    (l := (readingOf bytes).dropWhile _)] at hdrop
  obtain ⟨hcore, hback⟩ := readingOf_append hdrop
  refine ⟨bytes.take (width ((readingOf bytes).takeWhile isBlankRune)),
    (bytes.drop (width ((readingOf bytes).takeWhile isBlankRune))).drop
      (width (((readingOf bytes).dropWhile isBlankRune).rdropWhile isBlankRune)),
    ?_, fun r hr => ?_, fun r hr => ?_, ⟨?_, ?_⟩, fun hnil => ?_⟩
  · rw [trimOctets, List.append_assoc, List.take_append_drop, List.take_append_drop]
  · rw [htake] at hr
    exact List.mem_takeWhile_imp hr
  · rw [hback] at hr
    exact List.mem_rtakeWhile_imp hr
  · rw [trimOctets, hcore]
    exact head?_dropBoth
  · rw [trimOctets, hcore]
    exact getLast?_dropBoth
  · rw [trimOctets] at hnil
    rw [hnil] at hcore
    exact dropBoth_eq_nil hcore.symm

/-- The bytes of blanks are those of the characters that they read as. -/
theorem Blank.octets {blanks : List UInt8} (h : Blank blanks) :
    ((readingOf blanks).map (·.char)).flatMap Text.octets = blanks.map UInt8.toNat := by
  refine Text.octets_decode rfl fun hmem => ?_
  obtain ⟨r, hr, hchar⟩ := List.mem_map.mp hmem
  have hblank := h r hr
  rw [isBlankRune, hchar] at hblank
  exact absurd hblank (by decide +kernel)

/-- What stands behind blanks is read as it is. -/
theorem Blank.readingOf_append {blanks : List UInt8} (h : Blank blanks) (bytes : List UInt8) :
    readingOf (blanks ++ bytes) = readingOf blanks ++ readingOf bytes := by
  have halone := Text.decode_flatMap_octets ((readingOf blanks).map (·.char)) []
  have hboth := Text.decode_flatMap_octets ((readingOf blanks).map (·.char))
    (bytes.map UInt8.toNat)
  have hnil : decode [] = [] := rfl
  rw [h.octets, hnil, List.append_nil, List.append_nil] at halone
  rw [h.octets, ← halone, ← List.map_append] at hboth
  exact hboth

theorem Blank.nil : Blank [] := List.forall_mem_nil _

theorem Blank.feed : Blank [10] := by
  intro r hr
  cases List.mem_singleton.mp hr
  decide

theorem Blank.append {xs ys : List UInt8} (hx : Blank xs) (hy : Blank ys) : Blank (xs ++ ys) := by
  rw [Blank, hx.readingOf_append]
  exact fun r hr => (List.mem_append.mp hr).elim (hx r) (hy r)

/-- Blanks before a trimmed text are trimmed off, and the text stays. -/
theorem trimOctets_after {blanks bytes : List UInt8} (hblanks : Blank blanks)
    (h : Trimmed bytes) : trimOctets (blanks ++ bytes) = bytes := by
  have hkeep := rdropWhile_of_getLast? h.back
  rw [trimOctets, hblanks.readingOf_append, List.takeWhile_append_of_pos hblanks,
    takeWhile_of_head? h.front, List.append_nil, List.dropWhile_append_of_pos hblanks,
    dropWhile_of_head? h.front, hkeep, width_readingOf, width_readingOf]
  simp

theorem trimOctets_blank {blanks : List UInt8} (h : Blank blanks) : trimOctets blanks = [] := by
  have hnone : Trimmed [] := ⟨by simp, by simp⟩
  have hall := trimOctets_after h hnone
  rwa [List.append_nil] at hall

/-! ## Bytes read one by one -/

@[simp] theorem toUInt8_ofUInt8 (b : UInt8) : (Char.ofUInt8 b).toUInt8 = b :=
  b.toUInt8_toUInt32

theorem toNat_ofUInt8 (b : UInt8) : (Char.ofUInt8 b).toNat = b.toNat := rfl

theorem isPlain_of_le {c : Char} (h : 0x80 ≤ c.toNat) : isPlain c = true := by
  have hne : ∀ d : Char, d.toNat < 0x80 → c ≠ d := by
    rintro d hd rfl
    omega
  simp [isPlain, hne '\'' (by decide), hne '"' (by decide), hne ';' (by decide),
    hne '-' (by decide)]

theorem isPlain_of_isBlank {c : Char} (h : isBlank c = true) : isPlain c = true := by
  have hne : ∀ d : Char, isBlank d = false → c ≠ d := by
    rintro d hd rfl
    rw [h] at hd
    cases hd
  simp [isPlain, hne '\'' (by decide), hne '"' (by decide), hne ';' (by decide),
    hne '-' (by decide)]

/-- A byte of a character is read as the character, or as nothing that cuts a script. -/
theorem ofUInt8_of_mem_octets {c : Char} {b : UInt8} (h : b.toNat ∈ Text.octets c) :
    Char.ofUInt8 b = c ∨ 0x80 ≤ (Char.ofUInt8 b).toNat := by
  by_cases hc : c.toNat < 0x80
  · rw [Text.octets_ascii hc, List.mem_singleton] at h
    exact .inl (Char.toNat_inj.mp h)
  · exact .inr (Text.le_of_mem_octets (by omega) _ h)

/-- Blanks are spelled by bytes that are no character that the reader of scripts looks for. -/
theorem Blank.plain {blanks : List UInt8} (h : Blank blanks) :
    ∀ c ∈ (asRead blanks).reverse, isPlain c = true := by
  intro c hc
  obtain ⟨b, hb, rfl⟩ := List.mem_map.mp (List.mem_reverse.mp hc)
  have hmem : b.toNat ∈ ((readingOf blanks).map (·.char)).flatMap Text.octets :=
    h.octets ▸ List.mem_map_of_mem hb
  obtain ⟨c, hc, hoctet⟩ := List.mem_flatMap.mp hmem
  obtain ⟨r, hr, rfl⟩ := List.mem_map.mp hc
  rcases ofUInt8_of_mem_octets hoctet with heq | hfar
  · exact heq ▸ isPlain_of_isBlank (h r hr)
  · exact isPlain_of_le hfar

/-! ## Statements read again -/

/-- Statements that the reader finds again: trimmed, and each but the last open up to the semicolon
that it ends with. -/
inductive Tidy : List (List UInt8) → Prop
  | nil : Tidy []
  | last {m : ScriptMode} {s : List UInt8} : s ≠ [] → Trimmed s → Open m (asRead s).reverse →
      Tidy [s]
  | more {body : List UInt8} {ss : List (List UInt8)} : Trimmed (body ++ [59]) →
      Open .code (asRead body).reverse → Tidy ss → Tidy ((body ++ [59]) :: ss)

theorem not_blank_closed (text : List UInt8) : ¬ Blank (text ++ [59]) := fun h =>
  absurd (h.plain ';' (by simp [asRead]; exact .inl rfl)) (by decide)

/-- Without blanks at its end a piece is open still. -/
theorem open_trimOctets {m : ScriptMode} {text : List UInt8} (h : Open m (asRead text).reverse) :
    ∃ m', Open m' (asRead (trimOctets text)).reverse := by
  obtain ⟨before, after, htext, hbefore, -⟩ := trimOctets_spec text
  rw [htext, asRead_append, asRead_append, List.reverse_append, List.reverse_append] at h
  obtain ⟨m', h⟩ := h.of_append
  exact ⟨m', h.of_plain hbefore.plain⟩

/-- A piece that ends with a semicolon has blanks at its front only. -/
theorem trimOctets_closed (text : List UInt8) : ∃ before body, Blank before ∧
    text = before ++ body ∧ trimOctets (text ++ [59]) = body ++ [59] := by
  obtain ⟨before, after, htext, hbefore, hafter, -, hblank⟩ := trimOctets_spec (text ++ [59])
  obtain rfl : after = [] := by
    rcases List.eq_nil_or_concat after with rfl | ⟨rest, last, rfl⟩
    · rfl
    · rw [List.concat_eq_append] at htext hafter
      rw [← List.append_assoc] at htext
      obtain ⟨-, hlast⟩ := List.append_inj' htext rfl
      rw [← hlast] at hafter
      exact absurd hafter (not_blank_closed rest)
  rcases List.eq_nil_or_concat (trimOctets (text ++ [59])) with hnil | ⟨body, last, hbody⟩
  · exact absurd (hblank hnil) (not_blank_closed text)
  rw [List.concat_eq_append] at hbody
  rw [hbody, List.append_nil, ← List.append_assoc] at htext
  obtain ⟨hsplit, hlast⟩ := List.append_inj' htext rfl
  exact ⟨before, body, hbefore, hsplit, hlast ▸ hbody⟩

/-- Trimmed and without the blank ones, pieces are statements that are found again. -/
theorem tidy_of_cut {ps : List (List UInt8)} (h : Cut (ps.map asRead)) :
    Tidy ((ps.map trimOctets).filter (· ≠ [])) := by
  generalize hread : ps.map asRead = read at h
  induction h generalizing ps with
  | last hopen =>
    obtain ⟨p, rfl, rfl⟩ := List.map_eq_singleton_iff.mp hread
    obtain ⟨-, -, -, -, -, htrim, -⟩ := trimOctets_spec p
    obtain ⟨m', hopen⟩ := open_trimOctets hopen
    by_cases hnil : trimOctets p = []
    · simpa [hnil] using Tidy.nil
    · simpa [hnil] using Tidy.last hnil htrim hopen
  | more hopen hcut ih =>
    obtain ⟨p, ps, rfl, hp, rfl⟩ := List.map_eq_cons_iff.mp hread
    obtain ⟨text, mark, rfl, rfl, hmark⟩ := List.map_eq_append_iff.mp hp
    obtain ⟨b, rfl, hb⟩ := List.map_eq_singleton_iff.mp hmark
    obtain rfl : b = 59 := (toUInt8_ofUInt8 b).symm.trans (congrArg Char.toUInt8 hb)
    obtain ⟨-, -, -, -, -, htrim, -⟩ := trimOctets_spec (text ++ [59])
    obtain ⟨before, body, hbefore, rfl, hbody⟩ := trimOctets_closed text
    have hchars : (List.map Char.ofUInt8 (before ++ body)).reverse =
        (asRead body).reverse ++ (asRead before).reverse := by
      rw [List.map_append, List.reverse_append]
      rfl
    rw [hchars] at hopen
    replace hopen := hopen.of_plain hbefore.plain
    rw [hbody] at htrim
    rw [List.map_cons, hbody, List.filter_cons_of_pos (by simp)]
    exact .more htrim hopen (ih rfl)

theorem toUInt8_asRead (bytes : List UInt8) : (asRead bytes).map Char.toUInt8 = bytes := by
  simp [asRead, Function.comp_def]

theorem found_cons {blanks s : List UInt8} (hblanks : Blank blanks) (htrim : Trimmed s)
    (hne : s ≠ []) (ps : List (List Char)) :
    found (asRead (blanks ++ s) :: ps) = s :: found ps := by
  rw [found, List.map_cons, toUInt8_asRead, trimOctets_after hblanks htrim,
    List.filter_cons_of_pos (by simpa using hne)]
  rfl

/-- The statements that are found behind what stands in the open piece. -/
def octetStatementsFrom (current text : List UInt8) : List (List UInt8) :=
  found (pieces .code (asRead current).reverse (asRead text))

/-- Blanks go to the open piece. -/
theorem octetStatementsFrom_blanks {blanks : List UInt8} (h : Blank blanks)
    (current text : List UInt8) :
    octetStatementsFrom current (blanks ++ text) =
      octetStatementsFrom (current ++ blanks) text := by
  have hplain : ∀ c ∈ asRead blanks, isPlain c = true := fun c hc =>
    h.plain c (List.mem_reverse.mpr hc)
  rw [octetStatementsFrom, octetStatementsFrom, asRead_append, pieces_plain_run hplain,
    asRead_append, List.reverse_append]

/-- What stands up to a semicolon is found first. -/
theorem octetStatementsFrom_closed {body current : List UInt8} (hcurrent : Blank current)
    (htrim : Trimmed (body ++ [59])) (hopen : Open .code (asRead body).reverse)
    (text : List UInt8) : octetStatementsFrom current (body ++ [59] ++ text) =
      (body ++ [59]) :: octetStatementsFrom [] text := by
  have hread := hopen.pieces_eq (asRead current).reverse (';' :: asRead text) (by simp)
  rw [List.reverse_reverse] at hread
  have htext : asRead (body ++ [59] ++ text) = asRead body ++ ';' :: asRead text := by
    rw [asRead_append, asRead_append, List.append_assoc]
    rfl
  have hfirst : (';' :: ((asRead body).reverse ++ (asRead current).reverse)).reverse =
      asRead (current ++ (body ++ [59])) := by
    rw [asRead_append, asRead_append, List.reverse_cons, List.reverse_append, List.reverse_reverse,
      List.reverse_reverse, List.append_assoc]
    rfl
  rw [octetStatementsFrom, htext, hread, pieces_end, hfirst,
    found_cons hcurrent htrim (by simp)]
  rfl

theorem octetStatementsFrom_blank {current : List UInt8} (h : Blank current) :
    octetStatementsFrom current [] = [] := by
  have hend : pieces .code (asRead current).reverse (asRead []) = [asRead current] := by
    simp [pieces, asRead]
  rw [octetStatementsFrom, hend, found, List.map_singleton, toUInt8_asRead, trimOctets_blank h]
  rfl

/-- Tidy statements are found as they are on lines of their own. -/
theorem octetStatementsFrom_tidy {ss : List (List UInt8)} (h : Tidy ss) {current : List UInt8}
    (hcurrent : Blank current) :
    octetStatementsFrom current ([10].intercalate ss) = ss := by
  induction h generalizing current with
  | nil => exact octetStatementsFrom_blank hcurrent
  | @last m s hne htrim hopen =>
    have hread := hopen.pieces_eq (asRead current).reverse [] (by simp)
    rw [List.reverse_reverse, List.append_nil] at hread
    have hend : pieces m ((asRead s).reverse ++ (asRead current).reverse) [] =
        [asRead (current ++ s)] := by
      simp [pieces, asRead]
    have htext : [10].intercalate [s] = s := by simp
    rw [octetStatementsFrom, htext, hread, hend, found_cons hcurrent htrim hne]
    rfl
  | @more body ss htrim hopen htidy ih =>
    cases ss with
    | nil =>
      have htext : [10].intercalate [body ++ [59]] = body ++ [59] ++ [] := by simp
      rw [htext, octetStatementsFrom_closed hcurrent htrim hopen]
      exact congrArg _ (ih .nil)
    | cons s ss =>
      have htext : [10].intercalate ((body ++ [59]) :: s :: ss) =
          body ++ [59] ++ ([10] ++ [10].intercalate (s :: ss)) := by
        simp [List.intercalate]
      rw [htext, octetStatementsFrom_closed hcurrent htrim hopen,
        octetStatementsFrom_blanks .feed, ih (Blank.nil.append .feed)]

/-! ## What is left out of a script -/

/-- A text that some statements make up in their order, with blanks before, between and behind
them. -/
inductive Strewn : List (List UInt8) → List UInt8 → Prop
  | nil : Strewn [] []
  | blanks {blanks text : List UInt8} {ss : List (List UInt8)} : Blank blanks → Strewn ss text →
      Strewn ss (blanks ++ text)
  | statement {s text : List UInt8} {ss : List (List UInt8)} : Strewn ss text →
      Strewn (s :: ss) (s ++ text)

theorem strewn_trimmed (ps : List (List UInt8)) :
    Strewn ((ps.map trimOctets).filter (· ≠ [])) ps.flatten := by
  induction ps with
  | nil => exact .nil
  | cons p ps ih =>
    obtain ⟨before, after, hp, hbefore, hafter, -, hblank⟩ := trimOctets_spec p
    rw [List.map_cons, List.flatten_cons]
    by_cases hnil : trimOctets p = []
    · rw [List.filter_cons_of_neg (by simpa using hnil)]
      exact .blanks (hblank hnil) ih
    · rw [List.filter_cons_of_pos (by simpa using hnil)]
      conv_rhs => rw [hp, List.append_assoc, List.append_assoc]
      exact .blanks hbefore (.statement (.blanks hafter ih))

/-- A script in bytes without its comments. -/
def octetsWithoutComments (script : List UInt8) : List UInt8 :=
  (withoutComments (asRead script)).map Char.toUInt8

/-- The pieces of a script in bytes. -/
def octetPieces (script : List UInt8) : List (List UInt8) :=
  (pieces .code [] (asRead script)).map (·.map Char.toUInt8)

theorem asRead_toUInt8 (script : List UInt8) {cs : List Char} (h : ∀ c ∈ cs, c ∈ asRead script) :
    asRead (cs.map Char.toUInt8) = cs := by
  rw [asRead, List.map_map]
  refine (List.map_congr_left fun c hc => ?_).trans cs.map_id
  obtain ⟨b, -, rfl⟩ := List.mem_map.mp (h c hc)
  exact congrArg Char.ofUInt8 (toUInt8_ofUInt8 b)

theorem cut_octetPieces (script : List UInt8) : Cut ((octetPieces script).map asRead) := by
  have hsame : (octetPieces script).map asRead = pieces .code [] (asRead script) := by
    rw [octetPieces, List.map_map]
    refine (List.map_congr_left fun p hp =>
      asRead_toUInt8 script fun c hc => ?_).trans (List.map_id _)
    have hmem : c ∈ (pieces .code [] (asRead script)).flatten := List.mem_flatten.mpr ⟨p, hp, hc⟩
    rw [flatten_pieces] at hmem
    exact (withoutComments_sublist _).subset hmem
  rw [hsame]
  exact cut_pieces ⟨.start, by simp⟩

theorem flatten_octetPieces (script : List UInt8) :
    (octetPieces script).flatten = octetsWithoutComments script := by
  rw [octetPieces, ← List.map_flatten, flatten_pieces]
  rfl

/-! ## Texts and their bytes -/

/-- A text in UTF-8. -/
def encoded (text : String) : List UInt8 := text.toUTF8.data.toList

theorem encoded_ofList (cs : List Char) :
    encoded (String.ofList cs) = cs.flatMap String.utf8EncodeChar := by
  rw [encoded, String.toUTF8_eq_toByteArray, String.toByteArray_ofList, List.utf8Encode,
    List.data_toByteArray, List.toList_toArray]

theorem encoded_eq (text : String) : encoded text = text.toList.flatMap String.utf8EncodeChar := by
  rw [← encoded_ofList, String.ofList_toList]

/-- What the bytes of a character are read as, one by one. -/
def spelled (c : Char) : List Char := asRead (String.utf8EncodeChar c)

theorem mem_spelled {c d : Char} (h : d ∈ spelled c) : d = c ∨ 0x80 ≤ d.toNat := by
  obtain ⟨b, hb, rfl⟩ := List.mem_map.mp h
  exact ofUInt8_of_mem_octets (List.mem_map_of_mem hb)

theorem spelled_ascii {c : Char} (h : c.toNat < 0x80) : spelled c = [c] := by
  have hoctets := Text.octets_ascii h
  obtain ⟨b, hb, hc⟩ := List.map_eq_singleton_iff.mp hoctets
  rw [spelled, hb, asRead, List.map_singleton, ← Char.toNat_inj.mp ((toNat_ofUInt8 b).trans hc)]

theorem spelled_far {c : Char} (h : 0x80 ≤ c.toNat) : ∀ d ∈ spelled c, 0x80 ≤ d.toNat := by
  intro d hd
  rcases mem_spelled hd with rfl | hfar
  · exact h
  · exact hfar

theorem toNat_quote {q : Char} (h : IsQuote q) : q.toNat < 0x80 := by
  rcases h with rfl | rfl <;> decide

theorem notMem_spelled {c d : Char} (h : d ≠ c) (hd : d.toNat < 0x80) : d ∉ spelled c := by
  intro hmem
  rcases mem_spelled hmem with heq | hfar
  · exact h heq
  · omega

theorem spelled_ne_nil (c : Char) : spelled c ≠ [] := by
  simp [spelled, asRead, String.utf8EncodeChar_ne_nil]

theorem head?_spelled {cs : List Char} (h : cs.head? ≠ some '-') :
    (cs.flatMap spelled).head? ≠ some '-' := by
  cases cs with
  | nil => simp
  | cons c cs =>
    obtain ⟨d, ds, hc⟩ := List.exists_cons_of_ne_nil (spelled_ne_nil c)
    rw [List.flatMap_cons, hc, List.cons_append, List.head?_cons]
    rintro heq
    cases Option.some.inj heq
    have hmem : '-' ∈ spelled c := hc ▸ .head _
    exact notMem_spelled (fun heq => h (by rw [heq, List.head?_cons])) (by decide) hmem

/-- What is in the open piece, last character first, as it is read byte by byte. -/
def spelledBack (current : List Char) : List Char := (current.reverse.flatMap spelled).reverse

theorem spelledBack_cons (c : Char) (current : List Char) :
    spelledBack (c :: current) = (spelled c).reverse ++ spelledBack current := by
  simp [spelledBack]

/-- Read byte by byte, a script is cut where it is cut as a text. -/
theorem pieces_spelled {m : ScriptMode} (current cs : List Char)
    (hm : ∀ q, m = .quoted q → IsQuote q) :
    pieces m (spelledBack current) (cs.flatMap spelled) =
      (pieces m current cs).map (·.flatMap spelled) := by
  have hcode : ∀ q, ScriptMode.code = .quoted q → IsQuote q := by simp
  have hcomment : ∀ q, ScriptMode.comment = .quoted q → IsQuote q := by simp
  fun_induction pieces m current cs with
  | case1 m current => cases m <;> simp [pieces, spelledBack]
  | case2 current cs ih =>
    rw [List.flatMap_cons, spelled_ascii (by decide), List.singleton_append, pieces, if_pos rfl,
      ← ih hcode, spelledBack_cons, spelled_ascii (by decide)]
    rfl
  | case3 current c cs hc ih =>
    rw [List.flatMap_cons, pieces_comment_run (notMem_spelled (Ne.symm hc) (by decide)),
      ih hcomment]
  | case4 q current c cs ih =>
    have hq := hm q rfl
    by_cases hc : c = q
    · subst hc
      rw [if_pos rfl] at ih ⊢
      rw [List.flatMap_cons, spelled_ascii (toNat_quote hq), List.singleton_append, pieces,
        if_pos rfl, ← ih hcode, spelledBack_cons, spelled_ascii (toNat_quote hq)]
      rfl
    · rw [if_neg hc] at ih ⊢
      rw [List.flatMap_cons, pieces_quoted_run (notMem_spelled (Ne.symm hc) (toNat_quote hq)),
        ← ih hm, spelledBack_cons]
  | case5 current cs ih =>
    rw [List.flatMap_cons, List.flatMap_cons, spelled_ascii (by decide), List.singleton_append,
      List.singleton_append, pieces, ih hcomment]
  | case6 current cs hdash ih =>
    rw [List.flatMap_cons, spelled_ascii (by decide), List.singleton_append, pieces_end,
      List.map_cons, ← ih hcode]
    simp [spelledBack, spelled_ascii (show ';'.toNat < 0x80 by decide)]
  | case7 current c cs hdash hend hc ih =>
    have hquote : IsQuote c := by simpa [IsQuote] using hc
    rw [List.flatMap_cons, spelled_ascii (toNat_quote hquote), List.singleton_append,
      pieces_quote hquote, ← ih (by rintro q hq; cases hq; exact hquote), spelledBack_cons,
      spelled_ascii (toNat_quote hquote)]
    rfl
  | case8 current c cs hdash hend hc ih =>
    rw [← ih hcode, List.flatMap_cons, spelledBack_cons]
    by_cases hascii : c.toNat < 0x80
    · have hquote : ¬ IsQuote c := by simpa [IsQuote] using hc
      have hnext : c = '-' → cs.head? ≠ some '-' := by
        rintro rfl hhead
        obtain ⟨ds, rfl⟩ := List.head?_eq_some_iff.mp hhead
        exact hdash ds rfl rfl
      rw [spelled_ascii hascii]
      exact pieces_char hend hquote (fun hc => head?_spelled (hnext hc)) _
    · exact pieces_plain_run (fun d hd => isPlain_of_le (spelled_far (by omega) d hd)) _ _

/-! ## Blanks in bytes -/

/-- How a text in UTF-8 reads. -/
theorem readingOf_encoded (cs : List Char) :
    readingOf (cs.flatMap String.utf8EncodeChar) =
      cs.map fun c => ⟨c, (Text.octets c).length⟩ := by
  have hread := Text.decode_flatMap_octets cs []
  have hnil : decode [] = [] := rfl
  rw [hnil, List.append_nil, List.append_nil] at hread
  rw [readingOf, List.map_flatMap]
  exact hread

theorem width_encoded (cs : List Char) :
    width (cs.map fun c => ⟨c, (Text.octets c).length⟩) =
      (cs.flatMap String.utf8EncodeChar).length := by
  rw [← readingOf_encoded, width_readingOf]

theorem trimOctets_encoded (cs : List Char) :
    trimOctets (cs.flatMap String.utf8EncodeChar) =
      (trimChars cs).flatMap String.utf8EncodeChar := by
  have hfront := cs.takeWhile_append_dropWhile (p := isBlank)
  have hback : trimChars cs ++ (cs.dropWhile isBlank).rtakeWhile isBlank = cs.dropWhile isBlank :=
    List.rdropWhile_append_rtakeWhile
  rw [← hback] at hfront
  have hbytes := congrArg (List.flatMap String.utf8EncodeChar) hfront
  rw [List.flatMap_append, List.flatMap_append] at hbytes
  have hblank : (isBlankRune ∘ fun c => (⟨c, (Text.octets c).length⟩ : Rune)) = isBlank :=
    rfl
  rw [trimOctets, readingOf_encoded]
  simp only [List.rdropWhile, List.takeWhile_map, List.dropWhile_map, ← List.map_reverse, hblank,
    width_encoded]
  rw [← hbytes, List.drop_left]
  exact List.take_left

theorem toUInt8_spelled (cs : List Char) :
    (cs.flatMap spelled).map Char.toUInt8 = cs.flatMap String.utf8EncodeChar := by
  rw [List.map_flatMap]
  exact congrArg (fun f => cs.flatMap f) (funext fun c => toUInt8_asRead _)

/-- The statements of a text in UTF-8 are those of the text. -/
theorem octetStatements_encoded (text : String) :
    octetStatements (encoded text) = (statements text).map encoded := by
  have hread : asRead (encoded text) = text.toList.flatMap spelled := by
    rw [encoded_eq, asRead, List.map_flatMap]
    rfl
  have htrim : ∀ p : List Char, trimOctets ((p.flatMap spelled).map Char.toUInt8) =
      encoded (String.ofList (trimChars p)) := fun p => by
    rw [toUInt8_spelled, trimOctets_encoded, encoded_ofList]
  have hnil : ∀ cs : List Char, encoded (String.ofList cs) = [] ↔ cs = [] := by
    intro cs
    rw [encoded_ofList]
    cases cs <;> simp [String.utf8EncodeChar_ne_nil]
  have hcode : pieces .code [] (text.toList.flatMap spelled) =
      (pieces .code [] text.toList).map (·.flatMap spelled) :=
    pieces_spelled [] text.toList nofun
  rw [octetStatements, hread, hcode, found, statements, List.map_map, List.map_map,
    List.filter_map, List.filter_map, List.map_map]
  simp only [Function.comp_def, htrim, ne_eq, hnil]

/-! ## Statements split again -/

theorem Tidy.trimmed {ss : List (List UInt8)} (h : Tidy ss) :
    ∀ s ∈ ss, s ≠ [] ∧ Trimmed s := by
  induction h with
  | nil => exact List.forall_mem_nil _
  | last hne htrim => simpa using ⟨hne, htrim⟩
  | more htrim _ _ ih => exact List.forall_mem_cons.mpr ⟨⟨by simp, htrim⟩, ih⟩

theorem Tidy.closed {ss : List (List UInt8)} (h : Tidy ss) :
    ∀ s ∈ ss.dropLast, s.getLast? = some 59 := by
  induction h with
  | nil | last => simp
  | @more body ss _ _ _ ih =>
    cases ss with
    | nil => simp
    | cons s ss =>
      rw [List.dropLast_cons_of_ne_nil (by simp)]
      exact List.forall_mem_cons.mpr ⟨by simp, ih⟩

/-- The statements of any bytes are found again when they are put on lines of their own. None is
blank or has a blank at an end, and each but the last ends with a semicolon. With blanks before,
between and behind them they are the script without its comments. For a text in UTF-8 they are what
the reader of texts finds. -/
theorem octetStatements_again (script : List UInt8) :
    octetStatements ([10].intercalate (octetStatements script)) = octetStatements script ∧
    (∀ s ∈ octetStatements script, s ≠ [] ∧ Trimmed s) ∧
    (∀ s ∈ (octetStatements script).dropLast, s.getLast? = some 59) ∧
    Strewn (octetStatements script) (octetsWithoutComments script) ∧
    ∀ text : String, octetStatements (encoded text) = (statements text).map encoded := by
  have hsame : octetStatements script = ((octetPieces script).map trimOctets).filter (· ≠ []) := by
    rw [octetPieces, List.map_map]
    rfl
  have htidy : Tidy (octetStatements script) := hsame ▸ tidy_of_cut (cut_octetPieces script)
  have hstrewn := strewn_trimmed (octetPieces script)
  rw [← hsame, flatten_octetPieces] at hstrewn
  exact ⟨octetStatementsFrom_tidy htidy .nil, htidy.trimmed, htidy.closed, hstrewn,
    octetStatements_encoded⟩

/-! ## Quoted texts split again -/

/-- A text of any bytes between quotes, with the quotes in it doubled. -/
def quoted (quote : UInt8) (text : List UInt8) : List UInt8 :=
  quote :: (text.flatMap fun b => if b = quote then [quote, quote] else [b]) ++ [quote]

/-- What a statement is put together from: bytes that are written as they are, texts and names. -/
inductive Fragment
  | raw (byte : UInt8)
  | text (bytes : List UInt8)
  | name (bytes : List UInt8)
  deriving DecidableEq

def Fragment.octets : Fragment → List UInt8
  | raw byte => [byte]
  | text bytes => quoted 39 bytes
  | name bytes => quoted 34 bytes

/-- A statement as it is written. -/
def statementOf (fragments : List Fragment) : List UInt8 :=
  fragments.flatMap Fragment.octets ++ [59]

/-- Fragments that make up one statement: it begins with no blank, and what is written as it is
holds no quote, no semicolon and no two dashes in a row. -/
structure IsClause (fragments : List Fragment) : Prop where
  front : ∀ r ∈ (readingOf (statementOf fragments)).head?, isBlankRune r = false
  raw : ∀ b, .raw b ∈ fragments → b ≠ 39 ∧ b ≠ 34 ∧ b ≠ 59
  apart : ¬ [.raw 45, .raw 45] <:+: fragments

/-- What can stand between statements: blanks and comments to the end of their lines. -/
inductive Gap : List UInt8 → Prop
  | nil : Gap []
  | blanks {blanks gap : List UInt8} : Blank blanks → Gap gap → Gap (blanks ++ gap)
  | comment {text gap : List UInt8} : 10 ∉ text → Gap gap → Gap ([45, 45] ++ text ++ [10] ++ gap)

theorem isQuote_ofUInt8 {b : UInt8} (h : b = 39 ∨ b = 34) : IsQuote (Char.ofUInt8 b) := by
  rcases h with rfl | rfl
  · exact .inl rfl
  · exact .inr rfl

theorem ofUInt8_inj {a b : UInt8} : Char.ofUInt8 a = Char.ofUInt8 b ↔ a = b :=
  ⟨fun h => by rw [← toUInt8_ofUInt8 a, h, toUInt8_ofUInt8], congrArg _⟩

theorem head?_quoted (q : UInt8) (text : List UInt8) (cur : List Char) :
    ((asRead (quoted q text)).reverse ++ cur).head? = some (Char.ofUInt8 q) := by
  simp [quoted, asRead]

theorem Open.append_quoted {q : UInt8} (hq : q = 39 ∨ q = 34) {cur : List Char}
    (h : Open .code cur) (text : List UInt8) :
    Open .code ((asRead (quoted q text)).reverse ++ cur) := by
  have hinside : ∀ {cur}, Open (.quoted (Char.ofUInt8 q)) cur → Open (.quoted (Char.ofUInt8 q))
      ((asRead (text.flatMap fun b => if b = q then [q, q] else [b])).reverse ++ cur) := by
    induction text with
    | nil => exact id
    | cons b text ih =>
      intro cur hcur
      rw [List.flatMap_cons, asRead_append, List.reverse_append, List.append_assoc]
      by_cases hb : b = q
      · rw [if_pos hb]
        exact ih (.opening hcur.closing (isQuote_ofUInt8 hq))
      · rw [if_neg hb]
        exact ih (.inside hcur fun heq => hb (ofUInt8_inj.mp heq))
  have hclosed := (hinside (.opening h (isQuote_ofUInt8 hq))).closing
  simpa [quoted, asRead] using hclosed

/-- After the fragments of a statement its piece is open still, outside of quotes. -/
theorem Open.append_fragments {fragments : List Fragment}
    (hraw : ∀ b, .raw b ∈ fragments → b ≠ 39 ∧ b ≠ 34 ∧ b ≠ 59)
    (hapart : ¬ [.raw 45, .raw 45] <:+: fragments) {cur : List Char} (h : Open .code cur)
    (hdash : cur.head? = some '-' → fragments.head? ≠ some (.raw 45)) :
    Open .code ((asRead (fragments.flatMap Fragment.octets)).reverse ++ cur) := by
  induction fragments generalizing cur with
  | nil => exact h
  | cons f fragments ih =>
    have hrest : ¬ [.raw 45, .raw 45] <:+: fragments := fun hin =>
      hapart (hin.trans (List.suffix_cons f fragments).isInfix)
    have ih := @ih (fun b hb => hraw b (.tail _ hb)) hrest
    rw [List.flatMap_cons, asRead_append, List.reverse_append, List.append_assoc]
    cases f with
    | raw b =>
      obtain ⟨hsingle, hdouble, hend⟩ := hraw b (.head _)
      have hquote : ¬ IsQuote (Char.ofUInt8 b) := by
        rintro (heq | heq)
        · exact hsingle (ofUInt8_inj.mp heq)
        · exact hdouble (ofUInt8_inj.mp heq)
      refine ih (.char h (fun heq => hend (ofUInt8_inj.mp heq)) hquote fun heq hcur => ?_)
        fun heq hhead => ?_
      · obtain rfl : b = 45 := ofUInt8_inj.mp heq
        exact hdash hcur rfl
      · obtain ⟨more, rfl⟩ := List.head?_eq_some_iff.mp hhead
        obtain rfl : b = 45 := ofUInt8_inj.mp (Option.some.inj heq)
        exact hapart (List.prefix_append _ more).isInfix
    | text bytes | name bytes =>
      refine ih (h.append_quoted (by decide) bytes) fun heq => ?_
      rw [Fragment.octets, head?_quoted] at heq
      exact absurd heq (by decide)

/-- A text that ends with a semicolon and begins with no blank has none at its ends. -/
theorem trimmed_closed {text : List UInt8}
    (h : ∀ r ∈ (readingOf (text ++ [59])).head?, isBlankRune r = false) :
    Trimmed (text ++ [59]) := by
  obtain ⟨before, body, hbefore, rfl, hbody⟩ := trimOctets_closed text
  have hnone : readingOf before = [] := by
    rw [List.append_assoc, hbefore.readingOf_append] at h
    cases hread : readingOf before with
    | nil => rfl
    | cons r rs =>
      have hfirst := h r (by rw [hread]; rfl)
      rw [hbefore r (by simp [hread])] at hfirst
      cases hfirst
  obtain rfl : before = [] := by
    have hwidth := width_readingOf before
    rw [hnone] at hwidth
    exact List.length_eq_zero_iff.mp hwidth.symm
  obtain ⟨-, -, -, -, -, htrim, -⟩ := trimOctets_spec ([] ++ body ++ [59])
  rwa [hbody] at htrim

/-- Of a comment and the end of its line the line feed goes to the open piece. -/
theorem octetStatementsFrom_comment {line : List UInt8} (h : 10 ∉ line)
    (current text : List UInt8) :
    octetStatementsFrom current ([45, 45] ++ line ++ [10] ++ text) =
      octetStatementsFrom (current ++ [10]) text := by
  have hline : '\n' ∉ asRead line := by
    intro hmem
    obtain ⟨b, hb, hfeed⟩ := List.mem_map.mp hmem
    obtain rfl : b = 10 := ofUInt8_inj.mp hfeed
    exact h hb
  have htext : asRead ([45, 45] ++ line ++ [10] ++ text) =
      '-' :: '-' :: (asRead line ++ '\n' :: asRead text) := by
    rw [asRead_append, asRead_append, asRead_append, List.append_assoc, List.append_assoc]
    rfl
  rw [octetStatementsFrom, octetStatementsFrom, htext, pieces, pieces_comment hline, asRead_append,
    List.reverse_append]
  rfl

/-- In a gap nothing is found. -/
theorem octetStatementsFrom_gap {gap : List UInt8} (h : Gap gap) {current : List UInt8}
    (hcurrent : Blank current) : ∃ current', Blank current' ∧
      ∀ text, octetStatementsFrom current (gap ++ text) = octetStatementsFrom current' text := by
  induction h generalizing current with
  | nil => exact ⟨current, hcurrent, fun _ => rfl⟩
  | blanks hblanks _ ih =>
    obtain ⟨current', hcurrent', hread⟩ := ih (hcurrent.append hblanks)
    refine ⟨current', hcurrent', fun text => ?_⟩
    rw [List.append_assoc, octetStatementsFrom_blanks hblanks, hread]
  | comment hline _ ih =>
    obtain ⟨current', hcurrent', hread⟩ := ih (hcurrent.append .feed)
    refine ⟨current', hcurrent', fun text => ?_⟩
    rw [List.append_assoc, octetStatementsFrom_comment hline, hread]

theorem quoted_encoded {q : UInt8} (hq : q = 39 ∨ q = 34) (s : String) :
    quoted q (encoded s) = encoded (String.ofList [Char.ofUInt8 q] ++
      replaceChar (Char.ofUInt8 q) (String.ofList [Char.ofUInt8 q, Char.ofUInt8 q]) s ++
      String.ofList [Char.ofUInt8 q]) := by
  have hself : String.utf8EncodeChar (Char.ofUInt8 q) = [q] := by
    rcases hq with rfl | rfl <;> decide
  have hchar : ∀ c : Char,
      ((String.utf8EncodeChar c).flatMap fun b => if b = q then [q, q] else [b]) =
        (if c = Char.ofUInt8 q then [Char.ofUInt8 q, Char.ofUInt8 q] else [c]).flatMap
          String.utf8EncodeChar := by
    intro c
    by_cases hc : c = Char.ofUInt8 q
    · simp [hc, hself]
    · have hother : ∀ b ∈ String.utf8EncodeChar c, b ≠ q := by
        rintro b hb rfl
        exact notMem_spelled (Ne.symm hc) (toNat_quote (isQuote_ofUInt8 hq))
          (List.mem_map_of_mem hb)
      rw [if_neg hc, List.flatMap_congr fun b hb => if_neg (hother b hb)]
      simp
  rw [replaceChar, ← String.ofList_append, ← String.ofList_append, encoded_ofList, quoted,
    encoded_eq, List.flatMap_assoc, List.flatMap_append, List.flatMap_append, List.flatMap_assoc]
  simp [hself, hchar]

theorem octetStatementsFrom_clauses {clauses : List (List Fragment × List UInt8)}
    (h : ∀ c ∈ clauses, IsClause c.1 ∧ Gap c.2) {current gap : List UInt8}
    (hcurrent : Blank current) (hgap : Gap gap) :
    octetStatementsFrom current (gap ++ clauses.flatMap fun c => statementOf c.1 ++ c.2) =
      clauses.map fun c => statementOf c.1 := by
  induction clauses generalizing current gap with
  | nil =>
    obtain ⟨current', hcurrent', hread⟩ := octetStatementsFrom_gap hgap hcurrent
    rw [hread]
    exact octetStatementsFrom_blank hcurrent'
  | cons c clauses ih =>
    obtain ⟨⟨hclause, hbehind⟩, hclauses⟩ := List.forall_mem_cons.mp h
    obtain ⟨current', hcurrent', hread⟩ := octetStatementsFrom_gap hgap hcurrent
    have hopen := Open.append_fragments hclause.raw hclause.apart .start (by simp)
    rw [List.append_nil] at hopen
    rw [hread, List.flatMap_cons, List.append_assoc, List.map_cons, statementOf,
      octetStatementsFrom_closed hcurrent' (trimmed_closed hclause.front) hopen,
      ih hclauses .nil hbehind]

/-- Texts and names of any bytes between quotes are taken in whole: a script that is put together
from statements with gaps before, between and behind them is split into these statements, byte for
byte. For texts in UTF-8 the quoting is that of schemas, and the reader that of texts. -/
theorem octetStatements_clauses {clauses : List (List Fragment × List UInt8)} {gap : List UInt8}
    (hclauses : ∀ c ∈ clauses, IsClause c.1 ∧ Gap c.2) (hgap : Gap gap) :
    octetStatements (gap ++ clauses.flatMap fun c => statementOf c.1 ++ c.2) =
      (clauses.map fun c => statementOf c.1) ∧
    ∀ s : String, Fragment.octets (.text (encoded s)) = encoded (sqlText s) ∧
      Fragment.octets (.name (encoded s)) = encoded (sqlName s) ∧
      octetStatements (encoded s) = (statements s).map encoded := by
  refine ⟨octetStatementsFrom_clauses hclauses .nil hgap, fun s => ⟨?_, ?_, ?_⟩⟩
  · exact quoted_encoded (.inl rfl) s
  · exact quoted_encoded (.inr rfl) s
  · exact octetStatements_encoded s

/-- Two statements with quotes, semicolons, dashes and a line feed between their quotes, and a quote
and a semicolon in the comment that parts them. -/
def hardClauses : List (List Fragment × List UInt8) := [
  ([.raw 120, .name [34, 59, 45, 45], .text [39, 45, 45, 10, 59], .raw 45, .text [34]],
    [32, 45, 45, 39, 59, 10]),
  ([.raw 45, .name [], .text [39, 39], .text [128]], [10])]

theorem hardClauses_statements :
    octetStatements ([9] ++ hardClauses.flatMap fun c => statementOf c.1 ++ c.2) =
      hardClauses.map fun c => statementOf c.1 := by
  have hfirst : IsClause hardClauses[0].1 :=
    ⟨by decide, by simp [hardClauses], by decide⟩
  have hsecond : IsClause hardClauses[1].1 :=
    ⟨by decide, by simp [hardClauses], by decide⟩
  have hblank : Blank [32] := by unfold Blank; decide
  have htab : Blank [9] := by unfold Blank; decide
  have hcomment : Gap ([32] ++ ([45, 45] ++ [39, 59] ++ [10] ++ [])) :=
    .blanks hblank (.comment (by decide) .nil)
  refine (octetStatements_clauses (fun c hc => ?_) (.blanks htab .nil)).1
  rcases List.mem_pair.mp hc with rfl | rfl
  · exact ⟨hfirst, hcomment⟩
  · exact ⟨hsecond, .blanks .feed .nil⟩

end Scaffold.Storage
