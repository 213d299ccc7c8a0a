import Mathlib.Data.List.SplitBy
import Scaffold.Proofs.Code.Layout
import Scaffold.Proofs.Code.Numeral
import Scaffold.Proofs.Server.Workflows

/-! # Inputs read back

A literal input of a step is written as a composite value of the code, on a line of its own. Read
by the rules of the code it has the structure of the literal, its texts and its flags; its numbers
are those of the literal as far as none of them is misread. -/
namespace Scaffold.Code

/-! ## Lines -/

/-- A text stands among the texts that are joined to it, with what the separator begins with. -/
theorem infix_intercalate {sep tail s : String} (htail : tail.toList <+: sep.toList)
    {xs : List String} (h : s ∈ xs) :
    (s ++ tail).toList <:+: (sep.intercalate xs ++ tail).toList := by
  induction xs with
  | nil => cases h
  | cons x xs ih =>
    cases xs with
    | nil =>
      obtain rfl := List.mem_singleton.mp h
      simp [List.infix_rfl]
    | cons y ys =>
      simp only [String.intercalate_cons_cons, String.toList_append, List.append_assoc] at ih ⊢
      rcases List.mem_cons.mp h with rfl | h
      · exact ((List.prefix_append_right_inj _).mpr (htail.trans (List.prefix_append _ _))).isInfix
      · exact ((ih h).trans (List.suffix_append _ _).isInfix).trans (List.suffix_append _ _).isInfix

/-- A line of a part stands in the text of the listing. -/
theorem infix_text {l : Listing} {p : Part} (hp : p ∈ l.parts) {line : String}
    (hline : line ∈ p.lines) : (line ++ "\n").toList <:+: l.text.toList := by
  have hpart : (line ++ "\n").toList <:+: ("\n".intercalate p.lines ++ "\n").toList :=
    infix_intercalate List.prefix_rfl hline
  refine hpart.trans (infix_intercalate (by decide) (List.mem_map_of_mem ?_))
  exact List.mem_append_right _ (List.mem_map_of_mem hp)

/-! ## Rows -/

/-- Rows of one length make one run. -/
theorem splitBy_length {rows : List (List String)} {n : Nat} (hne : rows ≠ [])
    (h : ∀ row ∈ rows, row.length = n) :
    rows.splitBy (fun a b => (a.length > 1) == (b.length > 1)) = [rows] :=
  List.splitBy_of_isChain hne (List.Pairwise.isChain
    (List.pairwise_of_forall_mem_list fun a ha b hb => by simp [h a ha, h b hb]))

/-- A column that is the last is not padded. -/
theorem alignColumns_last {rows : List (List String)} (h : ∀ row ∈ rows, row.length = 1)
    (columns : Nat) : alignColumns columns rows = rows.map String.join := by
  cases columns with
  | zero => rfl
  | succ columns =>
    rcases eq_or_ne rows [] with rfl | hne
    · simp [alignColumns]
    · have hshort : rows.any (·.length > 1) = false := by
        simpa using fun row hrow => (h row hrow).le
      rw [alignColumns, splitBy_length hne h, List.flatMap_singleton, hshort]
      rfl

/-- Of two cells the first is padded to the width of its column. -/
theorem aligned_pairs {rows : List (List String)} (h : ∀ row ∈ rows, row.length = 2) :
    aligned rows = rows.map fun row =>
      padded (columnWidth (rows.map (·.headD ""))) (row.headD "") ++ String.join row.tail := by
  rcases rows with _ | ⟨row, rows⟩
  · rfl
  obtain ⟨n, hn⟩ : ∃ n, ((row :: rows).map List.length).foldl max 0 = n + 1 := by
    have hle := (le_foldl_max ((row :: rows).map List.length) 0).2 row.length (by simp)
    have htwo := h row (.head _)
    exact ⟨_, (Nat.sub_add_cancel (by omega)).symm⟩
  have hlong : (row :: rows).any (·.length > 1) = true := by simp [h row (.head _)]
  have htails : ∀ tail ∈ (row :: rows).map List.tail, tail.length = 1 :=
    List.forall_mem_map.mpr fun r hr => by rw [List.length_tail, h r hr]
  rw [aligned, hn, alignColumns, splitBy_length (List.cons_ne_nil _ _) h, List.flatMap_singleton,
    if_pos hlong, alignColumns_last htails, List.map_map, List.zipWith_map_right,
    List.zipWith_self]
  rfl

end Scaffold.Code

namespace Scaffold.Server

open Scaffold.Model Scaffold.Code
open Scaffold.Source (IsNumeral IsSigned)
open Scaffold.Text (quoted)

/-! ## Values of the code -/

/-- A value that code writes down. Texts and keys are kept with their quotes. -/
inductive Datum
  | nil
  | flag (value : Bool)
  | number (value : ℚ)
  | text (quotation : String)
  | list (elems : List Datum)
  | map (members : List (String × Datum))

/-- What follows a fixed text. -/
def skip? (text : String) (cs : List Char) : Option (List Char) :=
  if text.toList.isPrefixOf cs then some (cs.drop text.toList.length) else none

def readQuotation : List Char → Option (String × List Char)
  | '"' :: cs => (scanQuotation '"' cs).map fun (text, rest) => (String.ofList ('"' :: text), rest)
  | _ => none

/-- A number literal, with a sign or without. -/
def readNumber (cs : List Char) : Option (ℚ × List Char) :=
  let sign := if cs.head? = some '-' then ['-'] else []
  let (digits, rest) := scanNumeral (cs.drop sign.length)
  let raw := String.ofList (sign ++ digits)
  if isNumberLiteral raw then some (codeValue raw, rest) else none

/-- Items up to a closing brace, at most as many as the count says. -/
def readItems {α : Type} (item : List Char → Option (α × List Char)) :
    (count : Nat) → List Char → Option (List α × List Char)
  | _, '\x7d' :: rest => some ([], rest)
  | 0, _ => none
  | count + 1, cs =>
    match item cs with
    | some (x, '\x7d' :: rest) => some ([x], rest)
    | some (x, ',' :: ' ' :: cs) => (readItems item count cs).map fun (xs, rest) => (x :: xs, rest)
    | _ => none

/-- A value behind its key. -/
def readMember (item : List Char → Option (Datum × List Char)) (cs : List Char) :
    Option ((String × Datum) × List Char) := do
  let (key, cs) ← readQuotation cs
  let cs ← skip? ": " cs
  let (x, rest) ← item cs
  some ((key, x), rest)

/-- A value at the head of a text. A value is nested no deeper than its text is long. -/
def readDatum : (depth : Nat) → List Char → Option (Datum × List Char)
  | 0, _ => none
  | depth + 1, cs =>
    match cs with
    | 'n' :: _ => (skip? "nil" cs).map (.nil, ·)
    | 't' :: _ => (skip? "true" cs).map (.flag true, ·)
    | 'f' :: _ => (skip? "false" cs).map (.flag false, ·)
    | '"' :: _ => (readQuotation cs).map fun (text, rest) => (.text text, rest)
    | '[' :: _ => (skip? "[]any\x7b" cs).bind fun cs =>
      (readItems (readDatum depth) cs.length cs).map fun (xs, rest) => (.list xs, rest)
    | 'm' :: _ => (skip? "map[string]any\x7b" cs).bind fun cs =>
      (readItems (readMember (readDatum depth)) cs.length cs).map fun (ms, rest) => (.map ms, rest)
    | _ => (readNumber cs).map fun (x, rest) => (.number x, rest)

/-- The value of a text that is nothing else. -/
def datumOf? (text : String) : Option Datum :=
  match readDatum (text.toList.length + 1) text.toList with
  | some (d, []) => some d
  | _ => none

mutual

/-- A literal as a value, given what its numbers stand for. -/
def datum (value : String → ℚ) : Json → Datum
  | .null => .nil
  | .bool b => .flag b
  | .number raw => .number (value raw)
  | .string text => .text (quoted text)
  | .array elems => .list (elemData value elems)
  | .object members => .map (memberData value members)

def elemData (value : String → ℚ) : List Json → List Datum
  | [] => []
  | x :: xs => datum value x :: elemData value xs

def memberData (value : String → ℚ) : List (String × Json) → List (String × Datum)
  | [] => []
  | (k, x) :: ms => (quoted k, datum value x) :: memberData value ms

end

theorem elemData_eq (value : String → ℚ) (xs : List Json) :
    elemData value xs = xs.map (datum value) := by
  induction xs with
  | nil => rfl
  | cons x xs ih => exact congrArg (datum value x :: ·) ih

theorem memberData_eq (value : String → ℚ) (ms : List (String × Json)) :
    memberData value ms = ms.map fun m => (quoted m.1, datum value m.2) := by
  induction ms with
  | nil => rfl
  | cons m ms ih => exact congrArg ((quoted m.1, datum value m.2) :: ·) ih

theorem datum_array (value : String → ℚ) (xs : List Json) :
    datum value (.array xs) = .list (xs.map (datum value)) :=
  congrArg Datum.list (elemData_eq value xs)

theorem datum_object (value : String → ℚ) (ms : List (String × Json)) :
    datum value (.object ms) = .map (ms.map fun m => (quoted m.1, datum value m.2)) :=
  congrArg Datum.map (memberData_eq value ms)

/-- Literals differ as values only by what their numbers stand for. -/
theorem datum_eq_iff (value value' : String → ℚ) (j : Json) :
    datum value j = datum value' j ↔ ∀ raw ∈ j.numbers, value raw = value' raw := by
  induction j using Json.induct with
  | null | bool b | string text => exact iff_of_true rfl (List.forall_mem_nil _)
  | number raw =>
    rw [Json.numbers_number, List.forall_mem_singleton]
    exact Datum.number.injEq _ _ ▸ Iff.rfl
  | array elems ih =>
    rw [datum_array, datum_array, Datum.list.injEq, List.map_inj_left, Json.numbers_array,
      List.forall_mem_flatMap]
    exact forall₂_congr ih
  | object members ih =>
    rw [datum_object, datum_object, Datum.map.injEq, List.map_inj_left, Json.numbers_object,
      List.forall_mem_flatMap]
    exact forall₂_congr fun m hm => by rw [← ih m hm]; simp

/-! ## Reading pieces -/

theorem skip?_append (text : String) (rest : List Char) :
    skip? text (text.toList ++ rest) = some rest := by
  simp [skip?]

theorem toList_quoted (s : String) :
    (quoted s).toList = '"' :: (s.toList.flatMap (Text.escapedChar '"') ++ ['"']) := by
  simp [quoted, Text.quoteWith]

theorem readQuotation_quoted (s : String) (rest : List Char) :
    readQuotation ((quoted s).toList ++ rest) = some (quoted s, rest) := by
  rw [toList_quoted, List.cons_append, List.append_assoc, List.singleton_append, readQuotation,
    scanQuotation_escaped, Option.map_some]
  dsimp only
  rw [← toList_quoted, String.ofList_toList]

theorem readNumber_signed {raw : String} (h : IsSigned raw) (hsound : isNumberLiteral raw = true)
    {rest : List Char} (hends : Ends .operand rest) :
    readNumber (raw.toList ++ rest) = some (codeValue raw, rest) := by
  rcases h with h | ⟨digits, hraw, h⟩
  · have hsign : (raw.toList ++ rest).head? ≠ some '-' := by
      obtain ⟨whole, fraction, hraw, hwhole, -⟩ := h
      obtain ⟨d, ds, rfl⟩ := List.exists_cons_of_ne_nil hwhole.1
      rw [hraw]
      simpa using Json.ne_of_isDigit (hwhole.2 d (.head _)) (by decide)
    simp only [readNumber, if_neg hsign, List.length_nil, List.drop_zero, List.nil_append,
      scanNumeral_numeral h hends, String.ofList_toList, hsound, if_true]
  · have hback : String.ofList ('-' :: digits) = raw := by rw [← hraw, String.ofList_toList]
    simp [readNumber, hraw, scanNumeral_numeral h hends, hback, hsound]

/-! ## Reading literals -/

section Items

variable {α β : Type} {item : List Char → Option (α × List Char)} {text : β → String}
  {value : β → α}

theorem ends_comma {level : Level} (rest : List Char) : Ends level (',' :: rest) :=
  ends_bracket (by decide) rest

theorem ends_brace {level : Level} (rest : List Char) : Ends level ('\x7d' :: rest) :=
  ends_mark (by decide) fun _ => by decide

/-- The next item, when the text does not end here. -/
theorem readItems_succ {cs : List Char} (hcs : cs.head? ≠ some '\x7d') (count : Nat) :
    readItems item (count + 1) cs = match item cs with
      | some (x, '\x7d' :: rest) => some ([x], rest)
      | some (x, ',' :: ' ' :: cs) =>
        (readItems item count cs).map fun (xs, rest) => (x :: xs, rest)
      | _ => none := by
  rw [readItems]
  rintro rest rfl
  exact hcs rfl

/-- Items that can be read one by one can be read in a row. -/
theorem readItems_row {x : β} {xs : List β}
    (hitem : ∀ y ∈ x :: xs, ∀ rest, Ends .operand rest →
      item ((text y).toList ++ rest) = some (value y, rest))
    (hstart : ∀ y ∈ x :: xs, ∀ rest, ((text y).toList ++ rest).head? ≠ some '\x7d') {count : Nat}
    (hcount : xs.length < count) (rest : List Char) :
    readItems item count ((text x).toList ++
      (xs.flatMap (fun y => ',' :: ' ' :: (text y).toList) ++ '\x7d' :: rest)) =
        some ((x :: xs).map value, rest) := by
  obtain ⟨n, rfl⟩ : ∃ n, count = n + 1 := ⟨count - 1, by omega⟩
  rw [readItems_succ (hstart x (.head _) _)]
  induction xs generalizing x n with
  | nil => simp [hitem x (.head _) _ (ends_brace rest)]
  | cons y ys ih =>
    obtain ⟨m, rfl⟩ : ∃ m, n = m + 1 := ⟨n - 1, by simp at hcount; omega⟩
    have hnext := ih (x := y) (fun z hz => hitem z (.tail _ hz))
      (fun z hz => hstart z (.tail _ hz)) m (by simpa using hcount)
    rw [← readItems_succ (hstart y (.tail _ (.head _)) _)] at hnext
    rw [List.flatMap_cons, List.cons_append, List.cons_append, List.cons_append, List.cons_append,
      List.append_assoc, hitem x (.head _) _ (ends_comma _)]
    simp [hnext]

theorem length_le_flatMap {f : β → List Char} (h : ∀ y, f y ≠ []) (xs : List β) :
    xs.length ≤ (xs.flatMap f).length := by
  induction xs with
  | nil => simp
  | cons y ys ih =>
    have hpos := List.length_pos_iff.mpr (h y)
    simp only [List.flatMap_cons, List.length_append, List.length_cons]
    omega

/-- The items between a pair of braces. -/
theorem readItems_all {xs : List β}
    (hitem : ∀ y ∈ xs, ∀ rest, Ends .operand rest →
      item ((text y).toList ++ rest) = some (value y, rest))
    (hstart : ∀ y ∈ xs, ∀ rest, ((text y).toList ++ rest).head? ≠ some '\x7d')
    (rest : List Char) :
    readItems item ((", ".intercalate (xs.map text)).toList ++ '\x7d' :: rest).length
      ((", ".intercalate (xs.map text)).toList ++ '\x7d' :: rest) = some (xs.map value, rest) := by
  cases xs with
  | nil => simp [readItems]
  | cons x xs =>
    rw [List.map_cons, toList_intercalate, List.flatMap_map, List.append_assoc]
    refine readItems_row hitem hstart ?_ rest
    have hmany := length_le_flatMap (f := fun y => ',' :: ' ' :: (text y).toList)
      (fun y => List.cons_ne_nil _ _) xs
    simp only [List.length_append, List.length_cons]
    omega

end Items

/-- A literal is read before whatever does not go on with it. -/
def ReadsBackAs (j : Json) : Prop :=
  ∀ (depth : Nat) (rest : List Char), (literalCode j).toList.length ≤ depth →
    Ends .operand rest → readDatum (depth + 1) ((literalCode j).toList ++ rest) =
      some (datum codeValue j, rest)

/-- The numbers of a literal are numerals of the source and number literals of the code. -/
def IsWritable (j : Json) : Prop := ∀ raw ∈ j.numbers, IsSigned raw ∧ isNumberLiteral raw = true

theorem isWritable_array {xs : List Json} :
    IsWritable (.array xs) ↔ ∀ x ∈ xs, IsWritable x := by
  simp only [IsWritable, Json.numbers_array, List.forall_mem_flatMap]

theorem isWritable_object {ms : List (String × Json)} :
    IsWritable (.object ms) ↔ ∀ m ∈ ms, IsWritable m.2 := by
  simp only [IsWritable, Json.numbers_object, List.forall_mem_flatMap]

theorem areElemsSound_eq (xs : List Json) : areElemsSound xs = xs.all isLiteralSound := by
  induction xs with
  | nil => rfl
  | cons x xs ih => exact congrArg (isLiteralSound x && ·) ih

theorem areMembersSound_eq (ms : List (String × Json)) :
    areMembersSound ms = ms.all (isLiteralSound ·.2) := by
  induction ms with
  | nil => rfl
  | cons m ms ih => exact congrArg (isLiteralSound m.2 && ·) ih

theorem isLiteralSound_iff {j : Json} :
    isLiteralSound j = true ↔ ∀ raw ∈ j.numbers, isNumberLiteral raw = true := by
  induction j using Json.induct with
  | null | bool b | string text => exact iff_of_true rfl (List.forall_mem_nil _)
  | number raw =>
    rw [Json.numbers_number, List.forall_mem_singleton]
    rfl
  | array xs ih =>
    have hsound : isLiteralSound (.array xs) = xs.all isLiteralSound := areElemsSound_eq xs
    rw [hsound, List.all_eq_true, Json.numbers_array, List.forall_mem_flatMap]
    exact forall₂_congr ih
  | object ms ih =>
    have hsound : isLiteralSound (.object ms) = ms.all (isLiteralSound ·.2) := areMembersSound_eq ms
    rw [hsound, List.all_eq_true, Json.numbers_object, List.forall_mem_flatMap]
    exact forall₂_congr ih

theorem head_signed {raw : String} (h : IsSigned raw) :
    ∃ c cs, raw.toList = c :: cs ∧ (c = '-' ∨ Text.isDigit c = true) := by
  rcases h with ⟨whole, fraction, hraw, hwhole, -⟩ | ⟨digits, hraw, -⟩
  · obtain ⟨d, ds, rfl⟩ := List.exists_cons_of_ne_nil hwhole.1
    exact ⟨d, ds ++ fraction, hraw, .inr (hwhole.2 d (.head _))⟩
  · exact ⟨'-', digits, hraw, .inl rfl⟩

theorem literalCode_number (raw : String) : literalCode (.number raw) = raw := rfl

theorem literalCode_string (text : String) : literalCode (.string text) = quoted text := rfl

/-- No literal begins with a closing brace. -/
theorem head_literalCode {j : Json} (h : IsWritable j) (rest : List Char) :
    ((literalCode j).toList ++ rest).head? ≠ some '\x7d' := by
  cases j with
  | null => exact fun h => by cases h
  | bool b => cases b <;> exact fun h => by cases h
  | number raw =>
    obtain ⟨c, cs, hraw, hc⟩ := head_signed (h raw (List.mem_singleton.mpr rfl)).1
    rw [literalCode_number, hraw]
    rintro ⟨⟩
    rcases hc with hc | hc <;> exact absurd hc (by decide)
  | string text => simp [literalCode_string, toList_quoted]
  | array xs => simp [literalCode_array]
  | object ms => simp [literalCode_object]

theorem readDatum_number {raw : String} (h : IsSigned raw) (hsound : isNumberLiteral raw = true)
    (depth : Nat) {rest : List Char} (hends : Ends .operand rest) :
    readDatum (depth + 1) (raw.toList ++ rest) = some (.number (codeValue raw), rest) := by
  have hread := readNumber_signed h hsound hends
  obtain ⟨c, cs, hraw, hc⟩ := head_signed h
  have hnot : c ∉ ['n', 't', 'f', '"', '[', 'm'] := by
    intro hmem
    simp only [List.mem_cons, List.not_mem_nil, or_false] at hmem
    rcases hc with rfl | hc
    · simp at hmem
    · rcases hmem with rfl | rfl | rfl | rfl | rfl | rfl <;> exact absurd hc (by decide)
  rw [hraw, List.cons_append] at hread ⊢
  rw [readDatum, hread, Option.map_some]
  all_goals
    rintro ds ⟨⟩
    simp at hnot

theorem readDatum_bracket (depth : Nat) (cs : List Char) :
    readDatum (depth + 1) ('[' :: cs) = (skip? "[]any\x7b" ('[' :: cs)).bind fun cs =>
      (readItems (readDatum depth) cs.length cs).map fun p => (.list p.1, p.2) := rfl

theorem readDatum_letter (depth : Nat) (cs : List Char) :
    readDatum (depth + 1) ('m' :: cs) = (skip? "map[string]any\x7b" ('m' :: cs)).bind fun cs =>
      (readItems (readMember (readDatum depth)) cs.length cs).map fun p => (.map p.1, p.2) := rfl

theorem readDatum_list (depth : Nat) (cs : List Char) :
    readDatum (depth + 1) ("[]any\x7b".toList ++ cs) =
      (readItems (readDatum depth) cs.length cs).map fun p => (.list p.1, p.2) := by
  have hskip := skip?_append "[]any\x7b" cs
  have hhead : "[]any\x7b".toList ++ cs = '[' :: ("]any\x7b".toList ++ cs) := rfl
  rw [hhead] at hskip ⊢
  rw [readDatum_bracket, hskip, Option.bind_some]

theorem readDatum_map (depth : Nat) (cs : List Char) :
    readDatum (depth + 1) ("map[string]any\x7b".toList ++ cs) =
      (readItems (readMember (readDatum depth)) cs.length cs).map fun p => (.map p.1, p.2) := by
  have hskip := skip?_append "map[string]any\x7b" cs
  have hhead : "map[string]any\x7b".toList ++ cs = 'm' :: ("ap[string]any\x7b".toList ++ cs) := rfl
  rw [hhead] at hskip ⊢
  rw [readDatum_letter, hskip, Option.bind_some]

/-- Text between braces is shorter than the whole. -/
theorem length_braced (opening : String) {texts : List String} {text : String}
    (h : text ∈ texts) :
    text.toList.length < (opening ++ ", ".intercalate texts ++ "\x7d").toList.length := by
  have hle := (@infix_intercalate ", " "" text List.nil_prefix texts h).length_le
  have hclose : "\x7d".toList.length = 1 := rfl
  simp only [String.append_empty] at hle
  simp only [String.toList_append, List.length_append]
  omega

theorem reads_array {xs : List Json} (h : ∀ x ∈ xs, ReadsBackAs x)
    (hwritable : ∀ x ∈ xs, IsWritable x) : ReadsBackAs (.array xs) := by
  intro depth rest hdepth hends
  have htext : (literalCode (.array xs)).toList ++ rest = "[]any\x7b".toList ++
      ((", ".intercalate (xs.map literalCode)).toList ++ '\x7d' :: rest) := by
    simp [literalCode_array, literals_code, -String.toList_intercalate]
  rw [literalCode_array, literals_code] at hdepth
  have hitem : ∀ x ∈ xs, ∀ rest, Ends .operand rest →
      readDatum depth ((literalCode x).toList ++ rest) = some (datum codeValue x, rest) := by
    intro x hx rest hrest
    have hbelow := length_braced "[]any\x7b" (List.mem_map_of_mem (f := literalCode) hx)
    obtain ⟨n, rfl⟩ : ∃ n, depth = n + 1 := ⟨depth - 1, by omega⟩
    exact h x hx n rest (by omega) hrest
  have hitems := readItems_all hitem (fun x hx => head_literalCode (hwritable x hx)) rest
  rw [htext, readDatum_list, hitems, Option.map_some, datum_array]

theorem readMember_code {item : List Char → Option (Datum × List Char)} (k : String) {j : Json}
    {d : Datum} {rest : List Char}
    (h : item ((literalCode j).toList ++ rest) = some (d, rest)) :
    readMember item ((quoted k ++ ": " ++ literalCode j).toList ++ rest) =
      some ((quoted k, d), rest) := by
  have htext : (quoted k ++ ": " ++ literalCode j).toList ++ rest =
      (quoted k).toList ++ (": ".toList ++ ((literalCode j).toList ++ rest)) := by simp
  simp only [readMember, htext, readQuotation_quoted, Option.bind_eq_bind, Option.bind_some,
    skip?_append, h]

theorem reads_object {ms : List (String × Json)} (h : ∀ m ∈ ms, ReadsBackAs m.2) :
    ReadsBackAs (.object ms) := by
  intro depth rest hdepth hends
  let text (m : String × Json) : String := quoted m.1 ++ ": " ++ literalCode m.2
  have htext : (literalCode (.object ms)).toList ++ rest = "map[string]any\x7b".toList ++
      ((", ".intercalate (ms.map text)).toList ++ '\x7d' :: rest) := by
    simp [literalCode_object, members_code, text, -String.toList_intercalate]
  have hbraced : ("map[string]any\x7b" ++ ", ".intercalate (ms.map text) ++
      "\x7d").toList.length ≤ depth := by
    rwa [literalCode_object, members_code] at hdepth
  have hitem : ∀ m ∈ ms, ∀ rest, Ends .operand rest →
      readMember (readDatum depth) ((text m).toList ++ rest) =
        some ((quoted m.1, datum codeValue m.2), rest) := by
    intro m hm rest hrest
    have hbelow := length_braced "map[string]any\x7b" (List.mem_map_of_mem (f := text) hm)
    have hvalue : (literalCode m.2).toList.length ≤ (text m).toList.length := by
      simp only [text, String.toList_append, List.length_append]
      omega
    obtain ⟨n, rfl⟩ : ∃ n, depth = n + 1 := ⟨depth - 1, by omega⟩
    exact readMember_code m.1 (h m hm n rest (by omega) hrest)
  have hitems := readItems_all hitem (fun m _ rest => by simp [text, toList_quoted]) rest
  rw [htext, readDatum_map, hitems, Option.map_some, datum_object]

/-- A word that stands for a value. -/
theorem reads_word (word : String) {c : Char} {cs : List Char} (hword : word.toList = c :: cs)
    {depth : Nat} {d : Datum}
    (hc : ∀ rest, readDatum (depth + 1) (c :: rest) = (skip? word (c :: rest)).map (d, ·))
    (rest : List Char) : readDatum (depth + 1) (word.toList ++ rest) = some (d, rest) := by
  have hskip := skip?_append word rest
  rw [hword, List.cons_append] at hskip ⊢
  rw [hc, hskip, Option.map_some]

/-- Every literal is read back: by induction on the literal. -/
theorem readsBackAs {j : Json} (h : IsWritable j) : ReadsBackAs j := by
  induction j using Json.induct with
  | null => exact fun depth rest _ _ => reads_word "nil" rfl (fun rest => rfl) rest
  | bool b =>
    cases b with
    | false => exact fun depth rest _ _ => reads_word "false" rfl (fun rest => rfl) rest
    | true => exact fun depth rest _ _ => reads_word "true" rfl (fun rest => rfl) rest
  | number raw =>
    obtain ⟨hsigned, hsound⟩ := h raw (List.mem_singleton.mpr rfl)
    exact fun depth rest _ hends => readDatum_number hsigned hsound depth hends
  | string text =>
    intro depth rest _ _
    have hread := readQuotation_quoted text rest
    rw [literalCode_string]
    rw [toList_quoted, List.cons_append] at hread ⊢
    change (readQuotation _).map _ = _
    rw [hread]
    rfl
  | array xs ih =>
    rw [isWritable_array] at h
    exact reads_array (fun x hx => ih x hx (h x hx)) h
  | object ms ih =>
    rw [isWritable_object] at h
    exact reads_object fun m hm => ih m hm (h m hm)

/-- The code of a literal is read as the literal, its numbers as the code has them. -/
theorem datumOf?_literalCode {j : Json} (h : IsWritable j) :
    datumOf? (literalCode j) = some (datum codeValue j) := by
  have hread := readsBackAs h (literalCode j).toList.length [] le_rfl (by simp [Ends])
  rw [List.append_nil] at hread
  rw [datumOf?, hread]

/-- It is the literal of the source unless a number of it is misread. -/
theorem datum_codeValue_iff {j : Json} (h : IsWritable j) :
    datum codeValue j = datum decimalValue j ↔ ∀ raw ∈ j.numbers, isMisread raw = false := by
  rw [datum_eq_iff]
  exact forall₂_congr fun raw hraw => codeValue_eq_iff (h raw hraw).2

/-! ## Where an input stands -/

/-- A line of a key and a value, with blanks between them. -/
def entryLine (key value : String) (blanks : Nat) : String :=
  key ++ ":" ++ String.ofList (List.replicate blanks ' ') ++ value ++ ","

/-- Every key has a line with its value. -/
theorem exists_entryLine {entries : List (String × String)} {key value : String}
    (h : (key, value) ∈ entries) : ∃ blanks, entryLine key value blanks ∈ entryLines entries := by
  unfold entryLines
  split
  next key' value' =>
    cases List.mem_singleton.mp h
    refine ⟨1, List.mem_singleton.mpr ?_⟩
    simp [entryLine, String.append_assoc]
  next =>
    have hall := flatten_sections [] entries
    have hrow : [key ++ ":", value ++ ","] ∈ (sections [] entries).flatten :=
      hall ▸ List.mem_map_of_mem h
    obtain ⟨rows, hrows, hrow⟩ := List.mem_flatten.mp hrow
    have htwo : ∀ row ∈ rows, row.length = 2 := fun row hr => by
      have hmem := List.mem_flatten_of_mem hrows hr
      rw [hall] at hmem
      obtain ⟨e, -, rfl⟩ := List.mem_map.mp hmem
      rfl
    let width := columnWidth (rows.map (·.headD ""))
    have hline : padded width (key ++ ":") ++ String.join [value ++ ","] =
        entryLine key value (width - (key ++ ":").length) := by
      simp [entryLine, padded, String.append_assoc]
    have hmem : entryLine key value (width - (key ++ ":").length) ∈ aligned rows := by
      rw [aligned_pairs htwo, ← hline]
      exact List.mem_map.mpr ⟨_, hrow, rfl⟩
    exact ⟨_, List.mem_flatMap_of_mem hrows hmem⟩

/-- An input of a step stands in the handlers, on a line of its own. -/
theorem infix_workflows {a : Application} {w : Workflow} (hw : w ∈ a.workflows) {s : WorkflowStep}
    (hs : s ∈ w.steps) {i : Input} (hi : i ∈ s.inputs) :
    ∃ blanks, ("\t\t\t" ++ entryLine (quoted i.key) (inputCode i.value) blanks ++ "\n").toList <:+:
      (workflowListing a).text.toList := by
  obtain ⟨n, hn⟩ : ∃ n, (s, n) ∈ w.steps.zipIdx := by
    obtain ⟨n, hn, rfl⟩ := List.mem_iff_getElem.mp hs
    exact ⟨n, List.mem_zipIdx_iff_getElem?.mpr (List.getElem?_eq_getElem hn)⟩
  obtain ⟨blanks, hline⟩ := exists_entryLine
    (List.mem_map_of_mem (f := fun i => (quoted i.key, inputCode i.value)) hi)
  have hstep : "\t\t\t" ++ entryLine (quoted i.key) (inputCode i.value) blanks ∈
      stepLines w n s := by
    have hfilled : (s.inputs.map fun i => (quoted i.key, inputCode i.value)).isEmpty = false := by
      simp [List.ne_nil_of_mem hi]
    simp only [stepLines, hfilled, Bool.false_eq_true, if_false, List.mem_append]
    exact .inl (.inr (.inl (.inr (List.mem_map_of_mem hline))))
  refine ⟨blanks, infix_text (p := handlerPart w) ?_ ?_⟩
  · exact List.mem_append_left _ (List.mem_append_right _ (List.mem_map_of_mem hw))
  · exact List.mem_append_left _ (List.mem_append_right _ (List.mem_flatMap.mpr ⟨_, hn, hstep⟩))

end Scaffold.Server
