import Scaffold.Proofs.Code.Reading

/-! # Terms laid out and read

A term is laid out with blanks around its operators or, where it is nested, without them. Whichever
way it is written, its text is one expression: operations are operands only in parentheses, and no
sign meets another one. -/
namespace Scaffold.Code

open Scaffold.Source (Operator IsNumeral IsSigned)
open Scaffold.Text (quoted)

/-! ## Layouts -/

/-- A text of a term. The blanks around an operator may be left out where no signs meet. -/
inductive Layout : Term → List Char → Prop
  | field (name : String) : Layout (.field name) ('r' :: '.' :: name.toList)
  | number (raw : String) : Layout (.number raw) raw.toList
  | text (value : String) : Layout (.text value) (quoted value).toList
  | call {arg : Term} {cs : List Char} (function : String) (more : List String) : Layout arg cs →
    Layout (.call function arg more) (function.toList ++
      '(' :: (cs ++ more.flatMap (fun m => ',' :: ' ' :: m.toList) ++ [')']))
  | method {target : Term} {cs : List Char} (name arg : String) : Layout target cs →
    Layout (.method target name arg)
      (cs ++ '.' :: name.toList ++ '(' :: (arg.toList ++ [')']))
  | parens {inner : Term} {cs : List Char} : Layout inner cs →
    Layout (.parens inner) ('(' :: (cs ++ [')']))
  | binary {op : Operator} {left right : Term} {cs ds blank : List Char} :
    blank = [' '] ∨ blank = [] ∧ Term.signsMeet op right = false →
    Layout left cs → Layout right ds →
    Layout (.binary op left right) (cs ++ (blank ++ opChar op :: (blank ++ ds)))

theorem toList_intercalate (s : String) (more : List String) :
    (", ".intercalate (s :: more)).toList =
      s.toList ++ more.flatMap fun m => ',' :: ' ' :: m.toList := by
  induction more generalizing s with
  | nil => simp
  | cons m more ih =>
    rw [String.intercalate_cons_cons]
    simp [ih]

theorem toList_symbol (op : Operator) : op.symbol.toList = [opChar op] := by
  cases op <;> rfl

theorem layout_print (t : Term) (depth : Nat) : Layout t (t.print depth).toList := by
  induction t generalizing depth with
  | field name => simpa [Term.print] using Layout.field name
  | number raw => exact .number raw
  | text value => exact .text value
  | call function arg more ih =>
    have h := Layout.call function more (ih (if more.isEmpty then depth else depth + 1))
    simpa [Term.print, toList_intercalate, -String.toList_intercalate] using h
  | method target name arg ih =>
    have h := Layout.method name arg (ih depth)
    simpa [Term.print] using h
  | parens inner ih =>
    have h := Layout.parens (ih (max 1 (depth - 1)))
    simpa [Term.print] using h
  | binary op left right ihl ihr =>
    have h (blank : List Char) (hblank) :=
      @Layout.binary op left right _ _ blank hblank (ihl (depth + 1)) (ihr (depth + 1))
    rw [Term.print]
    split
    · simpa [toList_symbol] using h [' '] (.inl rfl)
    next hmeet =>
      have hsigns : Term.signsMeet op right = false := by simp_all
      simpa [toList_symbol] using h [] (.inr ⟨rfl, hsigns⟩)

/-! ## Terms that read as an expression -/

/-- A term reads as an expression of a level, however it is laid out. -/
def Stands (level : Level) (t : Term) (c : Expression) : Prop :=
  ∀ cs, Layout t cs → Shows level cs c

/-- A term that goes into any place. -/
structure IsAtom (t : Term) (c : Expression) : Prop where
  stands : Stands .primary t c
  head : ∀ cs, Layout t cs → ∃ d more, cs = d :: more ∧ d ∉ ['+', '-', '*', '/']

/-- A term that goes beside an operator. Where no blank stands between them, its first character
does not meet the operator. -/
structure IsOperand (t : Term) (c : Expression) : Prop where
  stands : Stands .operand t c
  head : ∀ cs, Layout t cs → ∃ d more, cs = d :: more ∧
    ∀ op, Term.signsMeet op t = false → meet (opChar op) d = false

theorem meet_opChar {d : Char} (h : d ∉ ['+', '-', '*', '/']) (op : Operator) :
    meet (opChar op) d = false := by
  simp only [List.mem_cons, List.not_mem_nil, or_false, not_or] at h
  cases op <;> simp [meet, opChar, h]

section Terms

variable {t : Term} {c : Expression}

theorem IsAtom.operand (h : IsAtom t c) : IsOperand t c where
  stands := fun cs hcs => (h.stands cs hcs).unsigned
  head := by
    intro cs hcs
    obtain ⟨d, more, rfl, hd⟩ := h.head cs hcs
    exact ⟨d, more, rfl, fun op _ => meet_opChar hd op⟩

theorem IsOperand.sum (h : IsOperand t c) : Stands .sum t c :=
  fun cs hcs => (h.stands cs hcs).factor.term

theorem isAtom_field {name : String} (h : isIdentifier name = true) :
    IsAtom (.field name) (.select (.name "r") name) := by
  constructor
  · rintro _ ⟨⟩
    exact (shows_name (s := "r") (by decide)).select h
  · rintro _ ⟨⟩
    exact ⟨'r', _, rfl, by decide⟩

theorem isAtom_text (value : String) : IsAtom (.text value) (.literal (quoted value)) := by
  constructor
  · rintro _ ⟨⟩
    exact shows_quoted value
  · rintro _ ⟨⟩
    have hquoted : (quoted value).toList =
        '"' :: (value.toList.flatMap (Text.escapedChar '"') ++ ['"']) := by
      rw [quoted, Text.quoteWith, String.toList_ofList, List.cons_append]
    exact ⟨'"', _, hquoted, by decide⟩

theorem isOperand_number {raw : String} (h : IsSigned raw) :
    IsOperand (.number raw) (.literal raw) := by
  constructor
  · rintro _ ⟨⟩
    exact shows_number h
  rintro _ ⟨⟩
  rcases h with ⟨whole, fraction, hraw, hwhole, -⟩ | ⟨digits, hraw, -⟩
  · obtain ⟨d, ds, rfl⟩ := List.exists_cons_of_ne_nil hwhole.1
    refine ⟨d, ds ++ fraction, hraw, fun op _ => meet_opChar (fun hd => ?_) op⟩
    have hdigit := hwhole.2 d List.mem_cons_self
    simp only [List.mem_cons, List.not_mem_nil, or_false] at hd
    rcases hd with rfl | rfl | rfl | rfl <;> exact absurd hdigit (by decide)
  · refine ⟨'-', digits, hraw, fun op hop => ?_⟩
    cases op with
    | sub =>
      have hstart : raw.startsWith "-" = true := by
        rw [String.startsWith_string_iff, hraw]
        exact ⟨digits, rfl⟩
      rw [Term.signsMeet, hstart] at hop
      cases hop
    | _ => rfl

theorem isAtom_parens (h : Stands .sum t c) : IsAtom (.parens t) c := by
  constructor
  · intro _ hlayout
    cases hlayout with
    | parens hcs => exact (h _ hcs).parens
  · rintro _ ⟨⟩
    exact ⟨'(', _, rfl, by decide⟩

theorem stands_binary (op : Operator) {left right : Term} {l r : Expression}
    (hl : IsOperand left l) (hr : IsOperand right r) :
    Stands .sum (.binary op left right) (.binary op l r) := by
  intro _ hlayout
  cases hlayout with
  | binary hblank hcs hds =>
    refine (hl.stands _ hcs).binary op (hr.stands _ hds) (hblank.imp_right ?_)
    rintro ⟨rfl, hmeet⟩
    obtain ⟨d, more, rfl, hhead⟩ := hr.head _ hds
    exact ⟨rfl, d, more, rfl, hhead op hmeet⟩

end Terms

/-! ## Conversions -/

/-- The conversions of a value. -/
inductive Conversion
  | float | text | int | decimal | time

def Conversion.apply (c : Expression) : Conversion → Expression
  | .float => .call (.name "float64") [c]
  | .text => .call (.name "string") [c]
  | .int => .call (.select (.name "strconv") "FormatInt") [c, .literal "10"]
  | .decimal => .call (.select (.name "strconv") "FormatFloat")
    [c, .literal "'f'", .literal "-1", .literal "64"]
  | .time => .call (.select c "Format") [.select (.name "time") "RFC3339"]

section Conversions

variable {t : Term} {c : Expression}

/-- A literal that goes into a place beside the term. -/
def IsArgument (m : String) : Prop := Shows .sum m.toList (.literal m)

theorem showsArguments_literals {cs : List Char} {more : List String}
    (hmore : ∀ m ∈ more, IsArgument m) (h : Shows .sum cs c) :
    ShowsArguments (cs ++ more.flatMap fun m => ',' :: ' ' :: m.toList)
      (c :: more.map .literal) := by
  induction more generalizing cs c with
  | nil => simpa using showsArguments_last h
  | cons m more ih =>
    obtain ⟨hm, hmore⟩ := List.forall_mem_cons.mp hmore
    simpa using showsArguments_more h (ih hmore hm)

theorem isAtom_call {function : String} {f : Expression} {d : Char} {ds : List Char}
    (hf : Shows .primary function.toList f) (hd : function.toList = d :: ds)
    (hhead : d ∉ ['+', '-', '*', '/']) {more : List String} (hmore : ∀ m ∈ more, IsArgument m)
    (h : Stands .sum t c) :
    IsAtom (.call function t more) (.call f (c :: more.map .literal)) := by
  constructor
  · intro _ hlayout
    cases hlayout with
    | call function more hcs => exact hf.call (showsArguments_literals hmore (h _ hcs))
  · rintro _ ⟨⟩
    exact ⟨d, _, by rw [hd, List.cons_append], hhead⟩

theorem shows_package {package function name : String} (hname : package ++ "." ++ function = name)
    (hpackage : isIdentifier package = true) (hfunction : isIdentifier function = true) :
    Shows .primary name.toList (.select (.name package) function) := by
  subst hname
  simpa using (shows_name hpackage).select hfunction

theorem isArgument_number {cs : List Char} (hne : cs ≠ []) (h : cs.all Text.isDigit = true) :
    IsArgument (String.ofList cs) ∧ IsArgument (String.ofList ('-' :: cs)) := by
  have hcs : IsNumeral cs :=
    ⟨cs, [], (List.append_nil cs).symm, ⟨hne, List.all_eq_true.mp h⟩, .inl rfl⟩
  constructor
  · exact (shows_number (.inl (by rwa [String.toList_ofList]))).factor.term
  · exact (shows_number (.inr ⟨cs, String.toList_ofList, hcs⟩)).factor.term

theorem isArgument_format : IsArgument "'f'" := by
  have h : Shows .primary "'f'".toList (.literal "'f'") :=
    ⟨[.quotation "'f'"], .quotation _, fun rest _ _ hrest => Lexes.cons rfl hrest⟩
  exact h.unsigned.factor.term

theorem isAtom_float (h : Stands .sum t c) :
    IsAtom (.call "float64" t []) (Conversion.float.apply c) :=
  isAtom_call (shows_name (by decide)) (d := 'f') rfl (by decide) (by simp) h

theorem isAtom_string (h : Stands .sum t c) :
    IsAtom (.call "string" t []) (Conversion.text.apply c) :=
  isAtom_call (shows_name (by decide)) (d := 's') rfl (by decide) (by simp) h

theorem isAtom_formatInt (h : Stands .sum t c) :
    IsAtom (.call "strconv.FormatInt" t ["10"]) (Conversion.int.apply c) := by
  have hfunction : Shows .primary "strconv.FormatInt".toList
      (.select (.name "strconv") "FormatInt") := shows_package (by decide) (by decide) (by decide)
  have hbase : IsArgument "10" := (isArgument_number (List.cons_ne_nil '1' ['0']) (by decide)).1
  exact isAtom_call hfunction (d := 's') rfl (by decide) (List.forall_mem_singleton.mpr hbase) h

theorem isAtom_formatFloat (h : Stands .sum t c) :
    IsAtom (.call "strconv.FormatFloat" t ["'f'", "-1", "64"]) (Conversion.decimal.apply c) := by
  have hfunction : Shows .primary "strconv.FormatFloat".toList
      (.select (.name "strconv") "FormatFloat") := shows_package (by decide) (by decide) (by decide)
  have hshortest : IsArgument "-1" := (isArgument_number (List.cons_ne_nil '1' []) (by decide)).2
  have hbits : IsArgument "64" := (isArgument_number (List.cons_ne_nil '6' ['4']) (by decide)).1
  refine isAtom_call hfunction (d := 's') rfl (by decide) ?_ h
  simp only [List.forall_mem_cons]
  exact ⟨isArgument_format, hshortest, hbits, by simp⟩

theorem isAtom_time (h : IsAtom t c) :
    IsAtom (.method t "Format" "time.RFC3339") (Conversion.time.apply c) := by
  have htime : Shows .primary "time.RFC3339".toList (.select (.name "time") "RFC3339") :=
    shows_package (by decide) (by decide) (by decide)
  constructor
  · intro _ hlayout
    cases hlayout with
    | @method _ cs name arg hcs =>
      have hformat : Shows .primary (cs ++ '.' :: "Format".toList) (.select c "Format") :=
        (h.stands _ hcs).select (by decide)
      exact hformat.call (showsArguments_last htime.unsigned.factor.term)
  · intro _ hlayout
    cases hlayout with
    | method name arg hcs =>
      obtain ⟨d, more, rfl, hd⟩ := h.head _ hcs
      exact ⟨d, _, rfl, hd⟩

end Conversions

end Scaffold.Code
