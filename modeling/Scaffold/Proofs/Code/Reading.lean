import Mathlib.Data.List.TakeWhile
import Scaffold.Proofs.Source.Values
import Scaffold.Proofs.Text.Words
import Scaffold.Code.Term

/-! # Reading expressions of generated code

A text of generated code is cut into lexemes, and these derive an expression by the usual rules:
calls and selections before products, products before sums, and operators of one level from left to
right. Literals are taken as they are written; a sign belongs to its number. A machine that reads
the lexemes once, with a stack of what stands open, shows that no text derives two expressions. -/
namespace Scaffold.Text

/-- Whether two ascending lists of spans have nothing in common. What lies below a span of the
first lies below those behind it, so the second is gone through once. -/
def apart : List Span → List Span → Bool
  | [], _ => true
  | t :: ts, spans =>
    let rest := spans.dropWhile fun s => Nat.blt s.hi t.lo
    rest.head?.all (fun s => Nat.blt t.hi s.lo) && apart ts rest

theorem inSpans_apart {others spans : List Span} (h : apart others spans = true)
    (hothers : others.Pairwise fun s t => s.lo ≤ t.lo)
    (hspans : spans.Pairwise fun s t => s.lo ≤ t.lo) {n : Nat}
    (hn : inSpans others n = true) : inSpans spans n = false := by
  induction others generalizing spans with
  | nil => cases hn
  | cons t ts ih =>
    obtain ⟨hhead, hrest⟩ := Bool.and_eq_true_iff.mp h
    obtain ⟨ht, hts⟩ := List.pairwise_cons.mp hothers
    have hn : t.contains n = true ∨ inSpans ts n = true := by simpa [inSpans] using hn
    have hlo : t.lo ≤ n := by
      simp only [inSpans, List.any_eq_true, Span.contains, Bool.and_eq_true,
        decide_eq_true_eq] at hn
      rcases hn with hn | ⟨u, hu, hun⟩
      · exact hn.1.1
      · exact Nat.le_trans (ht u hu) hun.1.1
    rw [← spans.takeWhile_append_dropWhile (p := fun s => Nat.blt s.hi t.lo), inSpans,
      List.any_append, Bool.or_eq_false_iff]
    constructor
    · refine List.any_eq_false.mpr fun s hs hsn => ?_
      have hbelow : s.hi < t.lo := by simpa using List.mem_takeWhile_imp hs
      simp only [Span.contains, Bool.and_eq_true, decide_eq_true_eq] at hsn
      omega
    · have hlater := hspans.sublist (List.dropWhile_sublist fun s => Nat.blt s.hi t.lo)
      rcases hn with hn | hn
      · generalize spans.dropWhile _ = rest at hhead hlater
        refine List.any_eq_false.mpr fun s hs hsn => ?_
        cases rest with
        | nil => cases hs
        | cons first rest =>
          have hfirst : t.hi < first.lo := by simpa using hhead
          have hs : first.lo ≤ s.lo := by
            rcases List.mem_cons.mp hs with rfl | hs
            · exact Nat.le_refl _
            · exact (List.pairwise_cons.mp hlater).1 s hs
          simp only [Span.contains, Bool.and_eq_true, decide_eq_true_eq] at hn hsn
          omega
      · exact ih hrest hts hlater hn

theorem letters_apart : apart digitSpans letterSpans = true := by decide +kernel

/-- The spans of a table ascend. -/
theorem spans_ascend : digitSpans.Pairwise (fun s t => s.lo ≤ t.lo) ∧
    letterSpans.Pairwise fun s t => s.lo ≤ t.lo := by
  rw [← List.isChain_iff_pairwise, ← List.isChain_iff_pairwise]
  decide +kernel

theorem not_isLetter_of_isDigit {c : Char} (h : isDigit c = true) : isLetter c = false := by
  unfold isDigit at h
  unfold isLetter
  split
  next hascii =>
    rw [if_pos hascii] at h
    exact of_ascii (p := fun c => c.isDigit = true → c.isAlpha = false) (by decide) hascii h
  next hascii =>
    rw [if_neg hascii] at h
    exact inSpans_apart letters_apart spans_ascend.1 spans_ascend.2 h

end Scaffold.Text

namespace Scaffold.Code

open Scaffold.Source (Operator IsNumeral IsSigned)
open Scaffold.Text (isDigit quoted escapedChar)

/-! ## Lexemes -/

inductive Lexeme
  | name (text : String)
  | number (text : String)
  /-- A string or a character, with its quotes. -/
  | quotation (text : String)
  | mark (c : Char)
  deriving DecidableEq, Repr

def isNameChar (c : Char) : Bool := isIdentifierStart c || isDigit c

/-- Digits, and perhaps a point and more of them. -/
def scanNumeral (cs : List Char) : List Char × List Char :=
  let whole := cs.takeWhile isDigit
  match cs.dropWhile isDigit with
  | '.' :: more => (whole ++ '.' :: more.takeWhile isDigit, more.dropWhile isDigit)
  | rest => (whole, rest)

/-- A quotation up to its closing quote. A backslash takes the character behind it along. -/
def scanQuotation (quote : Char) : List Char → Option (List Char × List Char)
  | [] => none
  | '\\' :: c :: cs => (scanQuotation quote cs).map fun (text, rest) => ('\\' :: c :: text, rest)
  | c :: cs =>
    if c = quote then some ([c], cs)
    else if c = '\n' then none
    else (scanQuotation quote cs).map fun (text, rest) => (c :: text, rest)

def marks : List Char := ['(', ')', ',', '.', '+', '-', '*', '/']

/-- Marks that are another sign side by side, or open a comment. -/
def meet (c d : Char) : Bool :=
  (c = '+' && d = '+') || (c = '-' && d = '-') || (c = '/' && (d = '/' || d = '*'))

/-- The first lexeme of a text, and what follows it. -/
def lexeme? : List Char → Option (Lexeme × List Char)
  | [] => none
  | c :: cs =>
    if isIdentifierStart c then
      some (.name (String.ofList (c :: cs.takeWhile isNameChar)), cs.dropWhile isNameChar)
    else if isDigit c || (c = '.' && cs.head?.any isDigit) then
      some (.number (String.ofList (scanNumeral (c :: cs)).1), (scanNumeral (c :: cs)).2)
    else if c = '"' || c = '\'' then
      (scanQuotation c cs).map fun (text, rest) => (.quotation (String.ofList (c :: text)), rest)
    else if c ∈ marks && !cs.head?.any (meet c) then some (.mark c, cs)
    else none

/-- The lexemes of a text, blanks between them left out. -/
inductive Lexes : List Char → List Lexeme → Prop
  | nil : Lexes [] []
  | blank {cs : List Char} {ls : List Lexeme} : Lexes cs ls → Lexes (' ' :: cs) ls
  | cons {cs rest : List Char} {l : Lexeme} {ls : List Lexeme} :
    lexeme? cs = some (l, rest) → Lexes rest ls → Lexes cs (l :: ls)

theorem lexeme?_blank (cs : List Char) : lexeme? (' ' :: cs) = none := by
  simp [lexeme?, show isIdentifierStart ' ' = false by decide, show isDigit ' ' = false by decide,
    marks]

theorem Lexes.unique {cs : List Char} {ls ls' : List Lexeme} (h : Lexes cs ls)
    (h' : Lexes cs ls') : ls = ls' := by
  induction h generalizing ls' with
  | nil =>
    cases h' with
    | nil => rfl
    | cons hl => cases hl
  | blank h ih =>
    cases h' with
    | blank h' => exact ih h'
    | cons hl => rw [lexeme?_blank] at hl; cases hl
  | cons hl h ih =>
    cases h' with
    | nil => cases hl
    | blank => rw [lexeme?_blank] at hl; cases hl
    | cons hl' h' =>
      rw [hl] at hl'
      cases hl'
      rw [ih h']

/-! ## Derivations -/

inductive Expression
  | name (text : String)
  | literal (text : String)
  | select (target : Expression) (member : String)
  | call (function : Expression) (args : List Expression)
  | binary (op : Operator) (left right : Expression)

def opChar : Operator → Char
  | .add => '+'
  | .sub => '-'
  | .mul => '*'
  | .div => '/'

def opMark (op : Operator) : Lexeme := .mark (opChar op)

/-- Whether an operator binds its operands before the others do. -/
def tight : Operator → Bool
  | .mul | .div => true
  | .add | .sub => false

inductive Level
  | primary | operand | product | sum
  deriving DecidableEq

mutual

/-- Lexemes derive an expression of a level. -/
inductive Derives : Level → List Lexeme → Expression → Prop
  | name (text : String) : Derives .primary [.name text] (.name text)
  | number (text : String) : Derives .primary [.number text] (.literal text)
  | quotation (text : String) : Derives .primary [.quotation text] (.literal text)
  | parens {ls : List Lexeme} {c : Expression} : Derives .sum ls c →
    Derives .primary (.mark '(' :: (ls ++ [.mark ')'])) c
  | select {ls : List Lexeme} {c : Expression} (member : String) : Derives .primary ls c →
    Derives .primary (ls ++ [.mark '.', .name member]) (.select c member)
  | call {ls ms : List Lexeme} {f : Expression} {args : List Expression} : Derives .primary ls f →
    Arguments ms args → Derives .primary (ls ++ .mark '(' :: (ms ++ [.mark ')'])) (.call f args)
  | signed (text : String) : Derives .operand [.mark '-', .number text] (.literal ("-" ++ text))
  | unsigned {ls : List Lexeme} {c : Expression} : Derives .primary ls c → Derives .operand ls c
  | factor {ls : List Lexeme} {c : Expression} : Derives .operand ls c → Derives .product ls c
  | multiply {ls ms : List Lexeme} {op : Operator} {l r : Expression} : tight op = true →
    Derives .product ls l → Derives .operand ms r →
    Derives .product (ls ++ opMark op :: ms) (.binary op l r)
  | term {ls : List Lexeme} {c : Expression} : Derives .product ls c → Derives .sum ls c
  | add {ls ms : List Lexeme} {op : Operator} {l r : Expression} : tight op = false →
    Derives .sum ls l → Derives .product ms r →
    Derives .sum (ls ++ opMark op :: ms) (.binary op l r)

/-- The arguments of a call. -/
inductive Arguments : List Lexeme → List Expression → Prop
  | last {ls : List Lexeme} {c : Expression} : Derives .sum ls c → Arguments ls [c]
  | more {ls ms : List Lexeme} {c : Expression} {cs : List Expression} : Derives .sum ls c →
    Arguments ms cs → Arguments (ls ++ .mark ',' :: ms) (c :: cs)

end

/-- A text is an expression of generated code. -/
def Reads (text : String) (c : Expression) : Prop :=
  ∃ ls, Lexes text.toList ls ∧ Derives .sum ls c

/-! ## Reading with a stack -/

/-- What stands open before the place that is read. -/
inductive Frame
  | left (op : Operator) (left : Expression)
  | parens
  | call (function : Expression) (args : List Expression)

/-- What the place that is read may hold: an operand, the number behind a sign, what goes on behind
an operand, or the member behind a point. -/
inductive Mode
  | want
  | signed
  | held (c : Expression)
  | point (c : Expression)

def closeProduct : Expression → List Frame → Expression × List Frame
  | r, .left op l :: stack => if tight op then (.binary op l r, stack) else (r, .left op l :: stack)
  | r, stack => (r, stack)

/-- Finish the operations that stand open. -/
def closeSum (r : Expression) (stack : List Frame) : Expression × List Frame :=
  match closeProduct r stack with
  | (r, .left op l :: stack) => (.binary op l r, stack)
  | done => done

def operator? : Char → Option Operator
  | '+' => some .add
  | '-' => some .sub
  | '*' => some .mul
  | '/' => some .div
  | _ => none

def step : Mode × List Frame → Lexeme → Option (Mode × List Frame)
  | (.want, stack), .name text => some (.held (.name text), stack)
  | (.want, stack), .number text => some (.held (.literal text), stack)
  | (.want, stack), .quotation text => some (.held (.literal text), stack)
  | (.want, stack), .mark '(' => some (.want, .parens :: stack)
  | (.want, stack), .mark '-' => some (.signed, stack)
  | (.signed, stack), .number text => some (.held (.literal ("-" ++ text)), stack)
  | (.point c, stack), .name text => some (.held (.select c text), stack)
  | (.held c, stack), .mark '.' => some (.point c, stack)
  | (.held c, stack), .mark '(' => some (.want, .call c [] :: stack)
  | (.held c, stack), .mark ',' =>
    match closeSum c stack with
    | (c, .call f args :: stack) => some (.want, .call f (args ++ [c]) :: stack)
    | _ => none
  | (.held c, stack), .mark ')' =>
    match closeSum c stack with
    | (c, .parens :: stack) => some (.held c, stack)
    | (c, .call f args :: stack) => some (.held (.call f (args ++ [c])), stack)
    | _ => none
  | (.held c, stack), .mark m => do
    let op ← operator? m
    let (c, stack) := if tight op then closeProduct c stack else closeSum c stack
    some (.want, .left op c :: stack)
  | _, _ => none

def run (ls : List Lexeme) (s : Mode × List Frame) : Option (Mode × List Frame) := ls.foldlM step s

/-- No operation stands open. -/
def Settled : List Frame → Prop
  | .left .. :: _ => False
  | _ => True

/-- No product stands open. -/
def Loose : List Frame → Prop
  | .left op _ :: _ => tight op = false
  | _ => True

theorem Settled.loose {stack : List Frame} (h : Settled stack) : Loose stack := by
  rcases stack with _ | ⟨_ | _ | _, stack⟩ <;> trivial

theorem closeProduct_loose {stack : List Frame} (h : Loose stack) (c : Expression) :
    closeProduct c stack = (c, stack) := by
  rcases stack with _ | ⟨_ | _ | _, stack⟩ <;> first | rfl | simp_all [closeProduct, Loose]

theorem closeSum_of_product {c r : Expression} {stack rest : List Frame}
    (h : closeProduct c stack = (r, rest)) (hrest : Settled rest) :
    closeSum c stack = (r, rest) := by
  rw [closeSum, h]
  rcases rest with _ | ⟨_ | _ | _, rest⟩ <;> first | rfl | exact hrest.elim

/-- What reading an expression of a level leads to, before any stack that does not go on with it. -/
def Level.Runs (ls : List Lexeme) (c : Expression) : Level → Prop
  | .primary | .operand => ∀ stack, run ls (.want, stack) = some (.held c, stack)
  | .product => ∀ stack, Loose stack → ∃ r rest,
      run ls (.want, stack) = some (.held r, rest) ∧ closeProduct r rest = (c, stack)
  | .sum => ∀ stack, Settled stack → ∃ r rest,
      run ls (.want, stack) = some (.held r, rest) ∧ closeSum r rest = (c, stack)

/-- Reading arguments leaves the last one open. -/
def ArgumentsRun (ls : List Lexeme) (args : List Expression) : Prop :=
  ∀ f before stack, ∃ r rest init last, args = init ++ [last] ∧
    run ls (.want, .call f before :: stack) = some (.held r, rest) ∧
    closeSum r rest = (last, .call f (before ++ init) :: stack)

theorem run_append (ls ms : List Lexeme) (s : Mode × List Frame) :
    run (ls ++ ms) s = (run ls s).bind (run ms) := by
  rw [run, List.foldlM_append]
  rfl

theorem step_op (op : Operator) (c : Expression) (stack : List Frame) :
    step (.held c, stack) (opMark op) = some (.want,
      .left op (if tight op then closeProduct c stack else closeSum c stack).1 ::
        (if tight op then closeProduct c stack else closeSum c stack).2) := by
  cases op <;> rfl

section Rules

variable {ls ms : List Lexeme} {c f l r : Expression} {cs : List Expression} {op : Operator}

theorem runs_parens (h : Level.sum.Runs ls c) :
    Level.primary.Runs (.mark '(' :: (ls ++ [.mark ')'])) c := by
  intro stack
  obtain ⟨r, rest, hrun, hclose⟩ := h (.parens :: stack) trivial
  have hopen : run (.mark '(' :: (ls ++ [.mark ')'])) (.want, stack) =
      run (ls ++ [.mark ')']) (.want, .parens :: stack) := rfl
  rw [hopen, run_append, hrun]
  simp [run, step, hclose]

theorem runs_select (member : String) (h : Level.primary.Runs ls c) :
    Level.primary.Runs (ls ++ [.mark '.', .name member]) (.select c member) := by
  intro stack
  rw [run_append, h stack]
  rfl

theorem runs_call (h : Level.primary.Runs ls f) (hargs : ArgumentsRun ms cs) :
    Level.primary.Runs (ls ++ .mark '(' :: (ms ++ [.mark ')'])) (.call f cs) := by
  intro stack
  obtain ⟨r, rest, init, last, rfl, hrun, hclose⟩ := hargs f [] stack
  have hopen : run (.mark '(' :: (ms ++ [.mark ')'])) (.held f, stack) =
      run (ms ++ [.mark ')']) (.want, .call f [] :: stack) := rfl
  rw [run_append, h stack, Option.bind_some, hopen, run_append, hrun]
  simp [run, step, hclose]

theorem runs_factor (h : Level.operand.Runs ls c) : Level.product.Runs ls c :=
  fun stack hstack => ⟨c, stack, h stack, closeProduct_loose hstack c⟩

theorem runs_multiply (htight : tight op = true) (hl : Level.product.Runs ls l)
    (hr : Level.operand.Runs ms r) :
    Level.product.Runs (ls ++ opMark op :: ms) (.binary op l r) := by
  intro stack hstack
  obtain ⟨x, rest, hrun, hclose⟩ := hl stack hstack
  have hop : run (opMark op :: ms) (.held x, rest) = run ms (.want, .left op l :: stack) := by
    rw [run, List.foldlM_cons, step_op, if_pos htight, hclose]
    rfl
  refine ⟨r, .left op l :: stack, ?_, ?_⟩
  · rw [run_append, hrun, Option.bind_some, hop, hr]
  · rw [closeProduct, if_pos htight]

theorem runs_term (h : Level.product.Runs ls c) : Level.sum.Runs ls c := by
  intro stack hstack
  obtain ⟨x, rest, hrun, hclose⟩ := h stack hstack.loose
  exact ⟨x, rest, hrun, closeSum_of_product hclose hstack⟩

theorem runs_add (htight : tight op = false) (hl : Level.sum.Runs ls l)
    (hr : Level.product.Runs ms r) : Level.sum.Runs (ls ++ opMark op :: ms) (.binary op l r) := by
  intro stack hstack
  obtain ⟨x, rest, hrun, hclose⟩ := hl stack hstack
  obtain ⟨y, rest', hrun', hclose'⟩ := hr (.left op l :: stack) htight
  have hop : run (opMark op :: ms) (.held x, rest) = run ms (.want, .left op l :: stack) := by
    rw [run, List.foldlM_cons, step_op, htight, hclose]
    rfl
  refine ⟨y, rest', ?_, ?_⟩
  · rw [run_append, hrun, Option.bind_some, hop, hrun']
  · rw [closeSum, hclose']

theorem argumentsRun_last (h : Level.sum.Runs ls c) : ArgumentsRun ls [c] := by
  intro f before stack
  obtain ⟨r, rest, hrun, hclose⟩ := h (.call f before :: stack) trivial
  exact ⟨r, rest, [], c, rfl, hrun, by rw [hclose, List.append_nil]⟩

theorem argumentsRun_more (h : Level.sum.Runs ls c) (hmore : ArgumentsRun ms cs) :
    ArgumentsRun (ls ++ .mark ',' :: ms) (c :: cs) := by
  intro f before stack
  obtain ⟨r, rest, hrun, hclose⟩ := h (.call f before :: stack) trivial
  obtain ⟨x, rest', init, last, rfl, hrun', hclose'⟩ := hmore f (before ++ [c]) stack
  have hcomma : run (.mark ',' :: ms) (.held r, rest) =
      run ms (.want, .call f (before ++ [c]) :: stack) := by
    rw [run, List.foldlM_cons, step, hclose]
    rfl
  refine ⟨x, rest', c :: init, last, rfl, ?_, ?_⟩
  · rw [run_append, hrun, Option.bind_some, hcomma, hrun']
  · rw [hclose', List.append_assoc, List.singleton_append]

end Rules

/-- The machine reads whatever is derived: by induction on the derivation, one lemma for a rule. -/
theorem runs_of_derives {level : Level} {ls : List Lexeme} {c : Expression}
    (h : Derives level ls c) : level.Runs ls c :=
  @Derives.rec (fun level ls c _ => level.Runs ls c) (fun ls args _ => ArgumentsRun ls args)
    (fun _ _ => rfl) (fun _ _ => rfl) (fun _ _ => rfl)
    (fun _ => runs_parens) (fun member _ => runs_select member) (fun _ _ => runs_call)
    (fun _ _ => rfl) (fun _ h => h) (fun _ => runs_factor)
    (fun htight _ _ => runs_multiply htight) (fun _ => runs_term)
    (fun htight _ _ => runs_add htight) (fun _ => argumentsRun_last)
    (fun _ _ => argumentsRun_more) level ls c h

theorem derives_unique {ls : List Lexeme} {c c' : Expression} (h : Derives .sum ls c)
    (h' : Derives .sum ls c') : c = c' := by
  obtain ⟨r, rest, hrun, hclose⟩ := runs_of_derives h [] trivial
  obtain ⟨r', rest', hrun', hclose'⟩ := runs_of_derives h' [] trivial
  rw [hrun] at hrun'
  cases hrun'
  rw [hclose] at hclose'
  cases hclose'
  rfl

/-- A text is one expression at most. -/
theorem Reads.unique {text : String} {c c' : Expression} (h : Reads text c) (h' : Reads text c') :
    c = c' := by
  obtain ⟨ls, hls, hc⟩ := h
  obtain ⟨ls', hls', hc'⟩ := h'
  rw [hls.unique hls'] at hc
  exact derives_unique hc hc'

/-! ## Texts that show an expression -/

/-- Where an expression of a level may end: before a character that goes on with no name and no
number. Only a number goes on with a point. -/
def Ends (level : Level) (rest : List Char) : Prop :=
  ∀ d ∈ rest.head?, isNameChar d = false ∧ (level ≠ .primary → d ≠ '.')

/-- A text is an expression of a level, whatever follows where it may end. -/
def Shows (level : Level) (cs : List Char) (c : Expression) : Prop :=
  ∃ ls, Derives level ls c ∧
    ∀ rest ms, Ends level rest → Lexes rest ms → Lexes (cs ++ rest) (ls ++ ms)

def ShowsArguments (cs : List Char) (args : List Expression) : Prop :=
  ∃ ls, Arguments ls args ∧
    ∀ rest ms, Ends .sum rest → Lexes rest ms → Lexes (cs ++ rest) (ls ++ ms)

theorem Shows.reads {s : String} {c : Expression} (h : Shows .sum s.toList c) : Reads s c := by
  obtain ⟨ls, hls, hlex⟩ := h
  have hall := hlex [] [] (by simp [Ends]) .nil
  rw [List.append_nil, List.append_nil] at hall
  exact ⟨ls, hall, hls⟩

theorem ends_mark {level : Level} {d : Char} {rest : List Char} (hd : isNameChar d = false)
    (hpoint : level ≠ .primary → d ≠ '.') : Ends level (d :: rest) := by
  simp only [Ends, List.head?_cons, Option.mem_some_iff, forall_eq']
  exact ⟨hd, hpoint⟩

theorem Ends.primary {level : Level} {rest : List Char} (h : Ends level rest) :
    Ends .primary rest :=
  fun d hd => ⟨(h d hd).1, fun hne => absurd rfl hne⟩

theorem Ends.of_ne {level other : Level} (hlevel : level ≠ .primary) {rest : List Char}
    (h : Ends level rest) : Ends other rest :=
  fun d hd => ⟨(h d hd).1, fun _ => (h d hd).2 hlevel⟩

theorem Shows.unsigned {cs : List Char} {c : Expression} (h : Shows .primary cs c) :
    Shows .operand cs c := by
  obtain ⟨ls, hls, hlex⟩ := h
  exact ⟨ls, .unsigned hls, fun rest ms hends => hlex rest ms hends.primary⟩

theorem Shows.factor {cs : List Char} {c : Expression} (h : Shows .operand cs c) :
    Shows .product cs c := by
  obtain ⟨ls, hls, hlex⟩ := h
  exact ⟨ls, .factor hls, fun rest ms hends => hlex rest ms (hends.of_ne (by decide))⟩

theorem Shows.term {cs : List Char} {c : Expression} (h : Shows .product cs c) :
    Shows .sum cs c := by
  obtain ⟨ls, hls, hlex⟩ := h
  exact ⟨ls, .term hls, fun rest ms hends => hlex rest ms (hends.of_ne (by decide))⟩

/-- A mark that does not meet the next one is a lexeme. -/
theorem Lexes.mark {c : Char} {cs : List Char} {ls : List Lexeme} (hc : c ∈ marks)
    (hmeet : cs.head?.any (meet c) = false) (hpoint : c = '.' → cs.head?.any isDigit = false)
    (h : Lexes cs ls) : Lexes (c :: cs) (.mark c :: ls) := by
  refine Lexes.cons ?_ h
  obtain ⟨hstart, hdigit, hquote, hquote'⟩ :
      isIdentifierStart c = false ∧ isDigit c = false ∧ c ≠ '"' ∧ c ≠ '\'' := by
    simp only [marks, List.mem_cons, List.not_mem_nil, or_false] at hc
    rcases hc with rfl | rfl | rfl | rfl | rfl | rfl | rfl | rfl <;> decide
  have hnumber : (decide (c = '.') && cs.head?.any isDigit) = false := by
    by_cases h : c = '.'
    · simp [hpoint h]
    · simp [h]
  simp [lexeme?, hstart, hdigit, hquote, hquote', hc, hmeet, hnumber]

theorem takeWhile_ends {p : Char → Bool} {cs rest : List Char} (hcs : ∀ c ∈ cs, p c = true)
    (hrest : ∀ d ∈ rest.head?, p d = false) :
    (cs ++ rest).takeWhile p = cs ∧ (cs ++ rest).dropWhile p = rest := by
  have hstop : rest.takeWhile p = [] ∧ rest.dropWhile p = rest := by
    cases rest with
    | nil => exact ⟨rfl, rfl⟩
    | cons d ds => simp [hrest d rfl]
  rw [List.takeWhile_append_of_pos hcs, List.dropWhile_append_of_pos hcs, hstop.1, hstop.2,
    List.append_nil]
  exact ⟨rfl, rfl⟩

theorem Lexes.name {s : String} {rest : List Char} {ms : List Lexeme} (h : isIdentifier s = true)
    (hends : Ends .primary rest) (hrest : Lexes rest ms) :
    Lexes (s.toList ++ rest) (.name s :: ms) := by
  refine Lexes.cons ?_ hrest
  unfold isIdentifier at h
  split at h
  · cases h
  next c cs hs =>
    obtain ⟨hc, hcs⟩ := Bool.and_eq_true_iff.mp h
    have hall : ∀ d ∈ cs, isNameChar d = true := List.all_eq_true.mp hcs
    obtain ⟨htake, hdrop⟩ := takeWhile_ends hall fun d hd => (hends d hd).1
    rw [hs, List.cons_append, lexeme?, if_pos hc, htake, hdrop, ← hs, String.ofList_toList]

theorem shows_name {s : String} (h : isIdentifier s = true) : Shows .primary s.toList (.name s) :=
  ⟨[.name s], .name s, fun _ _ => .name h⟩

/-- Names begin with no digit. -/
theorem isDigit_head {s : String} (h : isIdentifier s = true) (rest : List Char) :
    (s.toList ++ rest).head?.any isDigit = false := by
  unfold isIdentifier at h
  split at h
  · cases h
  next c cs hs =>
    have hc := (Bool.and_eq_true_iff.mp h).1
    rw [hs, List.cons_append, List.head?_cons, Option.any_some, Bool.eq_false_iff]
    intro hdigit
    rw [isIdentifierStart, Text.not_isLetter_of_isDigit hdigit, Bool.false_or, beq_iff_eq] at hc
    rw [hc] at hdigit
    exact absurd hdigit (by decide)

theorem isDigit_of_not_isNameChar {d : Char} (h : isNameChar d = false) : isDigit d = false :=
  (Bool.or_eq_false_iff.mp h).2

theorem scanNumeral_numeral {cs rest : List Char} (h : IsNumeral cs) (hrest : Ends .operand rest) :
    scanNumeral (cs ++ rest) = (cs, rest) := by
  obtain ⟨whole, fraction, rfl, hwhole, hfraction⟩ := h
  have hdigit : ∀ d ∈ rest.head?, isDigit d = false := fun d hd =>
    isDigit_of_not_isNameChar (hrest d hd).1
  rcases hfraction with rfl | ⟨digits, rfl, hdigits⟩
  · rw [List.append_nil, scanNumeral, (takeWhile_ends hwhole.2 hdigit).1,
      (takeWhile_ends hwhole.2 hdigit).2]
    cases rest with
    | nil => rfl
    | cons d ds =>
      have hne : d ≠ '.' := (hrest d rfl).2 (by decide)
      simp [hne]
  · have hpoint : ∀ d ∈ ('.' :: (digits ++ rest)).head?, isDigit d = false := by
      simp only [List.head?_cons, Option.mem_some_iff, forall_eq']
      decide
    rw [List.append_assoc, List.cons_append, scanNumeral, (takeWhile_ends hwhole.2 hpoint).1,
      (takeWhile_ends hwhole.2 hpoint).2]
    simp only [(takeWhile_ends hdigits.2 hdigit).1, (takeWhile_ends hdigits.2 hdigit).2]

theorem Lexes.numeral {cs rest : List Char} {ms : List Lexeme} (h : IsNumeral cs)
    (hends : Ends .operand rest) (hrest : Lexes rest ms) :
    Lexes (cs ++ rest) (.number (String.ofList cs) :: ms) := by
  refine Lexes.cons ?_ hrest
  obtain ⟨d, ds, hd, hdigit⟩ : ∃ d ds, cs = d :: ds ∧ isDigit d = true := by
    obtain ⟨whole, fraction, rfl, hwhole, -⟩ := h
    obtain ⟨d, ds, rfl⟩ := List.exists_cons_of_ne_nil hwhole.1
    exact ⟨d, ds ++ fraction, rfl, hwhole.2 d List.mem_cons_self⟩
  have hstart : isIdentifierStart d = false := by
    rw [isIdentifierStart, Text.not_isLetter_of_isDigit hdigit, Bool.false_or, beq_eq_false_iff_ne]
    rintro rfl
    exact absurd hdigit (by decide)
  have hscan := scanNumeral_numeral h hends
  rw [hd, List.cons_append] at hscan ⊢
  simp [lexeme?, hstart, hdigit, hscan]

/-- A number, with a sign or without. -/
theorem shows_number {raw : String} (h : IsSigned raw) :
    Shows .operand raw.toList (.literal raw) := by
  rcases h with h | ⟨digits, hraw, h⟩
  · refine ⟨[.number raw], .unsigned (.number raw), fun rest ms hends hrest => ?_⟩
    have hlex := Lexes.numeral h hends hrest
    rwa [String.ofList_toList] at hlex
  · have hsigned : raw = "-" ++ String.ofList digits := by
      simp [← String.toList_inj, hraw]
    refine ⟨[.mark '-', .number (String.ofList digits)], hsigned ▸ .signed _,
      fun rest ms hends hrest => ?_⟩
    rw [hraw]
    refine .mark (by decide) ?_ (fun hpoint => absurd hpoint (by decide)) (.numeral h hends hrest)
    obtain ⟨whole, fraction, rfl, hwhole, -⟩ := h
    obtain ⟨d, ds, rfl⟩ := List.exists_cons_of_ne_nil hwhole.1
    have hdigit := hwhole.2 d List.mem_cons_self
    have hne : d ≠ '-' := by
      rintro rfl
      exact absurd hdigit (by decide)
    simp [meet, hne]

/-- A character that a quotation takes as it is. -/
def IsInside (c : Char) : Prop := c ≠ '"' ∧ c ≠ '\\' ∧ c ≠ '\n'

instance (c : Char) : Decidable (IsInside c) := inferInstanceAs (Decidable (_ ∧ _))

theorem scanQuotation_inside {c : Char} (hc : IsInside c) (cs : List Char) :
    scanQuotation '"' (c :: cs) = (scanQuotation '"' cs).map fun p => (c :: p.1, p.2) := by
  rw [scanQuotation.eq_3 _ _ _ fun d ds h _ => hc.2.1 h]
  simp [hc.1, hc.2.2]

theorem scanQuotation_run {run : List Char} (hrun : ∀ c ∈ run, IsInside c) (cs : List Char) :
    scanQuotation '"' (run ++ cs) = (scanQuotation '"' cs).map fun p => (run ++ p.1, p.2) := by
  induction run with
  | nil => simp
  | cons c run ih =>
    obtain ⟨hc, hrun⟩ := List.forall_mem_cons.mp hrun
    rw [List.cons_append, scanQuotation_inside hc, ih hrun, Option.map_map]
    rfl

theorem inside_hexDigits (width n : Nat) : ∀ c ∈ Text.hexDigits width n, IsInside c := by
  have hdigit : ∀ d < 16, IsInside (Text.hexDigit d) := by decide
  induction width generalizing n with
  | zero => simp [Text.hexDigits]
  | succ width ih =>
    rw [Text.hexDigits, List.forall_mem_append]
    exact ⟨ih _, List.forall_mem_singleton.mpr (hdigit _ (Nat.mod_lt _ (by decide)))⟩

/-- A character stands for itself or is escaped behind a backslash. -/
theorem escapedChar_cases (c : Char) :
    (escapedChar '"' c = [c] ∧ IsInside c) ∨
      ∃ d ds, escapedChar '"' c = '\\' :: d :: ds ∧ ∀ e ∈ ds, IsInside e := by
  unfold escapedChar
  split
  · exact .inr ⟨c, [], rfl, by simp⟩
  next hc =>
    simp only [Bool.or_eq_true, decide_eq_true_eq, not_or] at hc
    split
    next hprint =>
      refine .inl ⟨rfl, hc.1, hc.2, ?_⟩
      rintro rfl
      exact absurd hprint (by decide)
    split
    next letter _ => exact .inr ⟨letter, [], rfl, by simp⟩
    split
    · exact .inr ⟨'x', _, rfl, inside_hexDigits _ _⟩
    split
    · exact .inr ⟨'u', _, rfl, inside_hexDigits _ _⟩
    · exact .inr ⟨'U', _, rfl, inside_hexDigits _ _⟩

theorem scanQuotation_escaped (cs rest : List Char) :
    scanQuotation '"' (cs.flatMap (escapedChar '"') ++ '"' :: rest) =
      some (cs.flatMap (escapedChar '"') ++ ['"'], rest) := by
  induction cs with
  | nil => rfl
  | cons c cs ih =>
    rw [List.flatMap_cons, List.append_assoc]
    rcases escapedChar_cases c with ⟨heq, hc⟩ | ⟨d, ds, heq, hds⟩
    · rw [heq, List.singleton_append, scanQuotation_inside hc, ih]
      rfl
    · rw [heq, List.cons_append, List.cons_append, scanQuotation, scanQuotation_run hds, ih]
      simp

theorem shows_quoted (s : String) : Shows .primary (quoted s).toList (.literal (quoted s)) := by
  have hquoted : (quoted s).toList = '"' :: (s.toList.flatMap (escapedChar '"') ++ ['"']) := by
    simp [quoted, Text.quoteWith]
  refine ⟨[.quotation (quoted s)], .quotation _, fun rest ms hends hrest => Lexes.cons ?_ hrest⟩
  rw [hquoted, List.cons_append, List.append_assoc, List.singleton_append, lexeme?,
    if_neg (by decide), if_neg (by simp; decide), if_pos (by decide), scanQuotation_escaped,
    Option.map_some]
  simp only [← hquoted, String.ofList_toList]

/-- Most marks meet no other. -/
theorem meet_eq_false {c : Char} (hc : c ∉ ['+', '-', '/']) (o : Option Char) :
    o.any (meet c) = false := by
  simp only [List.mem_cons, List.not_mem_nil, or_false, not_or] at hc
  cases o <;> simp [meet, hc]

theorem Lexes.bracket {c : Char} {cs : List Char} {ls : List Lexeme} (hc : c ∈ ['(', ')', ','])
    (h : Lexes cs ls) : Lexes (c :: cs) (.mark c :: ls) := by
  obtain ⟨hmark, hmeet, hpoint⟩ : c ∈ marks ∧ c ∉ ['+', '-', '/'] ∧ c ≠ '.' := by
    simp only [List.mem_cons, List.not_mem_nil, or_false] at hc
    rcases hc with rfl | rfl | rfl <;> decide
  exact .mark hmark (meet_eq_false hmeet _) (fun h => absurd h hpoint) h

theorem ends_bracket {level : Level} {c : Char} (hc : c ∈ ['(', ')', ',']) (rest : List Char) :
    Ends level (c :: rest) := by
  simp only [List.mem_cons, List.not_mem_nil, or_false] at hc
  rcases hc with rfl | rfl | rfl <;> exact ends_mark (by decide) fun _ => by decide

theorem Shows.select {cs : List Char} {c : Expression} (h : Shows .primary cs c) {member : String}
    (hmember : isIdentifier member = true) :
    Shows .primary (cs ++ '.' :: member.toList) (.select c member) := by
  obtain ⟨ls, hls, hlex⟩ := h
  refine ⟨_, .select member hls, fun rest ms hends hrest => ?_⟩
  rw [List.append_assoc, List.append_assoc]
  refine hlex _ _ (ends_mark (by decide) fun h => absurd rfl h) ?_
  exact .mark (by decide) (meet_eq_false (by decide) _) (fun _ => isDigit_head hmember rest)
    (.name hmember hends hrest)

theorem Shows.call {fs cs : List Char} {f : Expression} {args : List Expression}
    (hf : Shows .primary fs f) (hargs : ShowsArguments cs args) :
    Shows .primary (fs ++ '(' :: (cs ++ [')'])) (.call f args) := by
  obtain ⟨ls, hls, hlex⟩ := hf
  obtain ⟨ms, hms, hlex'⟩ := hargs
  refine ⟨_, .call hls hms, fun rest ns hends hrest => ?_⟩
  simp only [List.append_assoc, List.cons_append, List.nil_append]
  refine hlex _ _ (ends_bracket (by decide) _) (.bracket (by decide) ?_)
  exact hlex' _ _ (ends_bracket (by decide) _) (.bracket (by decide) hrest)

theorem showsArguments_last {cs : List Char} {c : Expression} (h : Shows .sum cs c) :
    ShowsArguments cs [c] := by
  obtain ⟨ls, hls, hlex⟩ := h
  exact ⟨ls, .last hls, hlex⟩

theorem showsArguments_more {cs ds : List Char} {c : Expression} {args : List Expression}
    (h : Shows .sum cs c) (hmore : ShowsArguments ds args) :
    ShowsArguments (cs ++ ',' :: ' ' :: ds) (c :: args) := by
  obtain ⟨ls, hls, hlex⟩ := h
  obtain ⟨ms, hms, hlex'⟩ := hmore
  refine ⟨_, .more hls hms, fun rest ns hends hrest => ?_⟩
  simp only [List.append_assoc, List.cons_append]
  refine hlex _ _ (ends_bracket (by decide) _) (.bracket (by decide) ?_)
  exact .blank (hlex' _ _ hends hrest)

theorem Shows.parens {cs : List Char} {c : Expression} (h : Shows .sum cs c) :
    Shows .primary ('(' :: (cs ++ [')'])) c := by
  obtain ⟨ls, hls, hlex⟩ := h
  refine ⟨_, .parens hls, fun rest ms hends hrest => ?_⟩
  simp only [List.append_assoc, List.cons_append, List.nil_append]
  exact .bracket (by decide) (hlex _ _ (ends_bracket (by decide) _) (.bracket (by decide) hrest))

theorem derives_binary {ls ms : List Lexeme} {l r : Expression} (op : Operator)
    (hl : Derives .operand ls l) (hr : Derives .operand ms r) :
    Derives .sum (ls ++ opMark op :: ms) (.binary op l r) := by
  cases htight : tight op with
  | true => exact .term (.multiply htight (.factor hl) hr)
  | false => exact .add htight (.term (.factor hl)) (.factor hr)

/-- An operation between operands, with a blank around its operator or none. -/
theorem Shows.binary {cs ds : List Char} {l r : Expression} (op : Operator)
    (hl : Shows .operand cs l) (hr : Shows .operand ds r) {blank : List Char}
    (hblank : blank = [' '] ∨ blank = [] ∧ ∃ d more, ds = d :: more ∧ meet (opChar op) d = false) :
    Shows .sum (cs ++ (blank ++ opChar op :: (blank ++ ds))) (.binary op l r) := by
  obtain ⟨ls, hls, hlex⟩ := hl
  obtain ⟨ms, hms, hlex'⟩ := hr
  have hmark : opChar op ∈ marks ∧ opChar op ≠ '.' ∧ isNameChar (opChar op) = false := by
    cases op <;> decide
  refine ⟨_, derives_binary op hls hms, fun rest ns hends hrest => ?_⟩
  have hright := hlex' rest ns (hends.of_ne (by decide)) hrest
  simp only [List.append_assoc, List.cons_append]
  rcases hblank with rfl | ⟨rfl, d, more, rfl, hmeet⟩
  · refine hlex _ _ (ends_mark (by decide) fun _ => by decide) (.blank ?_)
    refine .mark hmark.1 ?_ (fun h => absurd h hmark.2.1) (.blank hright)
    cases op <;> rfl
  · refine hlex _ _ (ends_mark hmark.2.2 fun _ => hmark.2.1) ?_
    exact .mark hmark.1 (by simpa using hmeet) (fun h => absurd h hmark.2.1) hright

end Scaffold.Code
