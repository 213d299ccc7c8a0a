import Scaffold.Proofs.Lists
import Scaffold.Proofs.Source.Progress
import Scaffold.Proofs.Source.Values

/-! # The grammar of formulas

A sum is a chain of products, a product a chain of operands, and an operand a literal, a name, a
sum in parentheses or a minus before another operand. A derivation is a tree over the tokens of a
formula; what it stands for is read off it with chains grouped to the left. -/
namespace Scaffold.Source.Grammar

/-! ## Derivations -/

/-- A token that is read as an operator of one level. -/
structure OpToken (level : TokenKind → Option Operator) where
  token : Token
  op : Operator
  reads : level token.kind = some op

mutual

inductive SumTree
  | mk (first : ProductTree) (rest : SumRest)

inductive SumRest
  | nil
  | cons (op : OpToken additiveOp) (term : ProductTree) (rest : SumRest)

inductive ProductTree
  | mk (first : OperandTree) (rest : ProductRest)

inductive ProductRest
  | nil
  | cons (op : OpToken multiplicativeOp) (factor : OperandTree) (rest : ProductRest)

inductive OperandTree
  | string (t : Terminal .string)
  | number (t : Terminal .number)
  | field (t : Name)
  | parens (opening : Terminal .lparen) (inner : SumTree) (closing : Terminal .rparen)
  | negated (sign : Terminal .minus) (operand : OperandTree)

end

mutual

def SumTree.tokens : SumTree → List Token
  | .mk first rest => first.tokens ++ rest.tokens

def SumRest.tokens : SumRest → List Token
  | .nil => []
  | .cons op term rest => op.token :: (term.tokens ++ rest.tokens)

def ProductTree.tokens : ProductTree → List Token
  | .mk first rest => first.tokens ++ rest.tokens

def ProductRest.tokens : ProductRest → List Token
  | .nil => []
  | .cons op factor rest => op.token :: (factor.tokens ++ rest.tokens)

def OperandTree.tokens : OperandTree → List Token
  | .string t => [t.1]
  | .number t => [t.1]
  | .field t => [t.1]
  | .parens opening inner closing => opening.1 :: (inner.tokens ++ [closing.1])
  | .negated sign operand => sign.1 :: operand.tokens

end

/-- The operand as a bare number. -/
def OperandTree.numeral? : OperandTree → Option (Terminal .number)
  | .number t => some t
  | _ => none

mutual

def SumTree.formula : SumTree → Formula
  | .mk first rest => rest.after first.formula

/-- A sum that goes on after its left part. -/
def SumRest.after (left : Formula) : SumRest → Formula
  | .nil => left
  | .cons op term rest => rest.after (.binary op.op left term.formula op.token.pos)

def ProductTree.formula : ProductTree → Formula
  | .mk first rest => rest.after first.formula

/-- A product that goes on after its left part. -/
def ProductRest.after (left : Formula) : ProductRest → Formula
  | .nil => left
  | .cons op factor rest => rest.after (.binary op.op left factor.formula op.token.pos)

/-- A minus before a number makes a negative number, before anything else a difference. -/
def OperandTree.formula : OperandTree → Formula
  | .string t => .string t.1.lexeme t.1.pos
  | .number t => .number t.1.lexeme t.1.pos
  | .field t => .field t.1.lexeme t.1.pos
  | .parens _ inner _ => inner.formula
  | .negated sign operand =>
    match operand.numeral? with
    | some t => .number ("-" ++ t.1.lexeme) sign.1.pos
    | none => .binary .sub (.number "0" sign.1.pos) operand.formula sign.1.pos

end

theorem numeral?_eq_some {o : OperandTree} {t : Terminal .number} :
    o.numeral? = some t ↔ o = .number t := by
  cases o <;> simp [OperandTree.numeral?]

/-! ## What may follow -/

/-- A product ends before a token that does not multiply or divide. -/
def EndsProduct (ts : List Token) : Prop := Starts (fun t => multiplicativeOp t.kind = none) ts

/-- A sum ends before a token that is no operator. -/
def EndsSum (ts : List Token) : Prop :=
  Starts (fun t => additiveOp t.kind = none ∧ multiplicativeOp t.kind = none) ts

theorem EndsSum.endsProduct {ts : List Token} (h : EndsSum ts) : EndsProduct ts :=
  h.imp fun _ ht => ht.2

theorem multiplicativeOp_additive (op : OpToken additiveOp) :
    multiplicativeOp op.token.kind = none := by
  have h := op.reads
  cases hk : op.token.kind <;> rw [hk] at h <;> first | rfl | cases h

/-- Where a sum ends or goes on, its last product has ended. -/
theorem endsProduct_rest (d : SumRest) {r : List Token} (hr : EndsSum r) :
    EndsProduct (d.tokens ++ r) := by
  cases d with
  | nil => exact hr.endsProduct
  | cons op term rest => exact starts_cons.mpr (multiplicativeOp_additive op)

theorem endsSum_closing (closing : Terminal .rparen) (r : List Token) :
    EndsSum (closing.1 :: r) :=
  starts_cons.mpr (by rw [closing.2]; exact ⟨rfl, rfl⟩)

theorem endsSum_eof {last : Token} (h : last.kind = .eof) : EndsSum [last] :=
  starts_cons.mpr (by rw [h]; exact ⟨rfl, rfl⟩)

/-! ## Derivations are unique -/

/-- The forms of an operand. -/
inductive OperandForm
  | string | number | field | parens | negated

def OperandTree.form : OperandTree → OperandForm
  | .string _ => .string
  | .number _ => .number
  | .field _ => .field
  | .parens .. => .parens
  | .negated .. => .negated

/-- The form that the first token of an operand announces. -/
def operandForm : TokenKind → Option OperandForm
  | .string => some .string
  | .number => some .number
  | .ident | .keyword => some .field
  | .lparen => some .parens
  | .minus => some .negated
  | _ => none

theorem operandForm_tokens (o : OperandTree) (r : List Token) :
    (o.tokens ++ r).head?.bind (fun t => operandForm t.kind) = some o.form := by
  cases o with
  | string t => simp [OperandTree.tokens, operandForm, OperandTree.form, t.2]
  | number t => simp [OperandTree.tokens, operandForm, OperandTree.form, t.2]
  | field t =>
    rcases isName_iff.mp t.2 with h | h <;>
      simp [OperandTree.tokens, operandForm, OperandTree.form, h]
  | parens opening inner closing =>
    simp [OperandTree.tokens, operandForm, OperandTree.form, opening.2]
  | negated sign operand => simp [OperandTree.tokens, operandForm, OperandTree.form, sign.2]

theorem opToken_ext {level : TokenKind → Option Operator} {op op' : OpToken level}
    (h : op.token = op'.token) : op = op' := by
  obtain ⟨token, op, reads⟩ := op
  obtain ⟨token', op', reads'⟩ := op'
  obtain rfl : token = token' := h
  obtain rfl : op = op' := Option.some.inj (reads.symm.trans reads')
  rfl

theorem form_eq {o o' : OperandTree} {r r' : List Token} (h : o.tokens ++ r = o'.tokens ++ r') :
    o.form = o'.form := by
  have hf := operandForm_tokens o r
  rw [h, operandForm_tokens o' r'] at hf
  exact (Option.some.inj hf).symm

mutual

theorem sum_reads : ∀ d : SumTree, Reads SumTree.tokens EndsSum d
  | .mk first rest => by
    rintro ⟨first', rest'⟩ r r' hr hr' h
    simp only [SumTree.tokens, List.append_assoc] at h
    obtain ⟨rfl, hrest⟩ := product_reads first first' _ _ (endsProduct_rest rest hr)
      (endsProduct_rest rest' hr') h
    obtain ⟨rfl, hr⟩ := sumRest_reads rest rest' r r' hr hr' hrest
    exact ⟨rfl, hr⟩

/-- No operator stands where a sum ends, so both go on or neither does. -/
theorem sumRest_reads : ∀ d : SumRest, Reads SumRest.tokens EndsSum d
  | .nil => by
    intro d' r r' hr hr' h
    cases d' with
    | nil => exact ⟨rfl, h⟩
    | cons op term rest =>
      obtain rfl : r = op.token :: (term.tokens ++ rest.tokens) ++ r' := h
      exact absurd ((starts_cons.mp hr).1.symm.trans op.reads) nofun
  | .cons op term rest => by
    intro d' r r' hr hr' h
    cases d' with
    | nil =>
      obtain rfl : op.token :: (term.tokens ++ rest.tokens) ++ r = r' := h
      exact absurd ((starts_cons.mp hr').1.symm.trans op.reads) nofun
    | cons op' term' rest' =>
      simp only [SumRest.tokens, List.cons_append, List.append_assoc, List.cons.injEq] at h
      obtain rfl := opToken_ext h.1
      obtain ⟨rfl, hrest⟩ := product_reads term term' _ _ (endsProduct_rest rest hr)
        (endsProduct_rest rest' hr') h.2
      obtain ⟨rfl, hr⟩ := sumRest_reads rest rest' r r' hr hr' hrest
      exact ⟨rfl, hr⟩

theorem product_reads : ∀ d : ProductTree, Reads ProductTree.tokens EndsProduct d
  | .mk first rest => by
    rintro ⟨first', rest'⟩ r r' hr hr' h
    simp only [ProductTree.tokens, List.append_assoc] at h
    obtain ⟨rfl, hrest⟩ := operand_reads first first' _ _ trivial trivial h
    obtain ⟨rfl, hr⟩ := productRest_reads rest rest' r r' hr hr' hrest
    exact ⟨rfl, hr⟩

theorem productRest_reads : ∀ d : ProductRest, Reads ProductRest.tokens EndsProduct d
  | .nil => by
    intro d' r r' hr hr' h
    cases d' with
    | nil => exact ⟨rfl, h⟩
    | cons op factor rest =>
      obtain rfl : r = op.token :: (factor.tokens ++ rest.tokens) ++ r' := h
      exact absurd ((starts_cons.mp hr).symm.trans op.reads) nofun
  | .cons op factor rest => by
    intro d' r r' hr hr' h
    cases d' with
    | nil =>
      obtain rfl : op.token :: (factor.tokens ++ rest.tokens) ++ r = r' := h
      exact absurd ((starts_cons.mp hr').symm.trans op.reads) nofun
    | cons op' factor' rest' =>
      simp only [ProductRest.tokens, List.cons_append, List.append_assoc, List.cons.injEq] at h
      obtain rfl := opToken_ext h.1
      obtain ⟨rfl, hrest⟩ := operand_reads factor factor' _ _ trivial trivial h.2
      obtain ⟨rfl, hr⟩ := productRest_reads rest rest' r r' hr hr' hrest
      exact ⟨rfl, hr⟩

/-- An operand shows its own end. -/
theorem operand_reads : ∀ o : OperandTree, Reads OperandTree.tokens (fun _ => True) o
  | .string t => by
    intro o' r r' _ _ h
    have hform := form_eq h
    cases o' with
    | string t' =>
      obtain ⟨ht, hr⟩ := List.cons.inj h
      exact ⟨by rw [Subtype.ext ht], hr⟩
    | _ => cases hform
  | .number t => by
    intro o' r r' _ _ h
    have hform := form_eq h
    cases o' with
    | number t' =>
      obtain ⟨ht, hr⟩ := List.cons.inj h
      exact ⟨by rw [Subtype.ext ht], hr⟩
    | _ => cases hform
  | .field t => by
    intro o' r r' _ _ h
    have hform := form_eq h
    cases o' with
    | field t' =>
      obtain ⟨ht, hr⟩ := List.cons.inj h
      exact ⟨by rw [Subtype.ext ht], hr⟩
    | _ => cases hform
  | .parens opening inner closing => by
    intro o' r r' _ _ h
    have hform := form_eq h
    cases o' with
    | parens opening' inner' closing' =>
      simp only [OperandTree.tokens, List.cons_append, List.append_assoc, List.nil_append,
        List.cons.injEq] at h
      obtain ⟨rfl, hclosing⟩ := sum_reads inner inner' _ _ (endsSum_closing closing r)
        (endsSum_closing closing' r') h.2
      obtain ⟨hclose, hr⟩ := List.cons.inj hclosing
      exact ⟨by rw [Subtype.ext h.1, Subtype.ext hclose], hr⟩
    | _ => cases hform
  | .negated sign operand => by
    intro o' r r' _ _ h
    have hform := form_eq h
    cases o' with
    | negated sign' operand' =>
      simp only [OperandTree.tokens, List.cons_append, List.cons.injEq] at h
      obtain ⟨rfl, hr⟩ := operand_reads operand operand' r r' trivial trivial h.2
      exact ⟨by rw [Subtype.ext h.1], hr⟩
    | _ => cases hform

end

/-- No two derivations have the same tokens. -/
theorem sumTokens_injective : Function.Injective SumTree.tokens := by
  intro d d' h
  have hends : EndsSum [Token.none] := endsSum_eof rfl
  exact (sum_reads d d' _ _ hends hends (by rw [h])).1

/-! ## Every derivation is accepted -/

/-- With three units of fuel for each token every derivation is followed; a sum and a product take
one more. -/
structure FormulasAccepted (fuel : Nat) : Prop where
  sum : ∀ (d : SumTree) {rest : List Token} (last : Token), 3 * d.tokens.length + 2 < fuel →
    EndsSum rest → parseSum fuel ⟨d.tokens ++ rest, last⟩ = .ok (d.formula, ⟨rest, last⟩)
  sumTail : ∀ (d : SumRest) (left : Formula) {rest : List Token} (last : Token),
    3 * d.tokens.length < fuel → EndsSum rest →
      parseSumTail fuel left ⟨d.tokens ++ rest, last⟩ = .ok (d.after left, ⟨rest, last⟩)
  product : ∀ (d : ProductTree) {rest : List Token} (last : Token),
    3 * d.tokens.length + 1 < fuel → EndsProduct rest →
      parseProduct fuel ⟨d.tokens ++ rest, last⟩ = .ok (d.formula, ⟨rest, last⟩)
  productTail : ∀ (d : ProductRest) (left : Formula) {rest : List Token} (last : Token),
    3 * d.tokens.length < fuel → EndsProduct rest →
      parseProductTail fuel left ⟨d.tokens ++ rest, last⟩ = .ok (d.after left, ⟨rest, last⟩)
  operand : ∀ (o : OperandTree) (rest : List Token) (last : Token), 3 * o.tokens.length < fuel →
    parseOperand fuel ⟨o.tokens ++ rest, last⟩ = .ok (o.formula, ⟨rest, last⟩)

section Accepted

variable {fuel : Nat}

theorem parseSum_accepts (ih : FormulasAccepted fuel) (d : SumTree) {rest : List Token}
    (last : Token) (hf : 3 * d.tokens.length + 2 < fuel + 1) (hr : EndsSum rest) :
    parseSum (fuel + 1) ⟨d.tokens ++ rest, last⟩ = .ok (d.formula, ⟨rest, last⟩) := by
  obtain ⟨first, tail⟩ := d
  simp only [SumTree.tokens, List.length_append] at hf
  have hfirst := ih.product first last (by omega) (endsProduct_rest tail hr)
  have htail := ih.sumTail tail first.formula last (by omega) hr
  simp only [parseSum, SumTree.tokens, List.append_assoc, hfirst, ok_bind, htail,
    SumTree.formula]

theorem parseSumTail_accepts (ih : FormulasAccepted fuel) (d : SumRest) (left : Formula)
    {rest : List Token} (last : Token) (hf : 3 * d.tokens.length < fuel + 1)
    (hr : EndsSum rest) :
    parseSumTail (fuel + 1) left ⟨d.tokens ++ rest, last⟩ =
      .ok (d.after left, ⟨rest, last⟩) := by
  cases d with
  | nil =>
    obtain ⟨t, ts, rfl, ht, -⟩ := hr
    simp [parseSumTail, SumRest.tokens, SumRest.after, ht]
  | cons op term tail =>
    simp only [SumRest.tokens, List.length_cons, List.length_append] at hf
    have hterm := ih.product term last (by omega) (endsProduct_rest tail hr)
    have htail := ih.sumTail tail (.binary op.op left term.formula op.token.pos) last
      (by omega) hr
    simp [parseSumTail, SumRest.tokens, SumRest.after, op.reads, hterm, htail, ok_bind]

theorem parseProduct_accepts (ih : FormulasAccepted fuel) (d : ProductTree) {rest : List Token}
    (last : Token) (hf : 3 * d.tokens.length + 1 < fuel + 1) (hr : EndsProduct rest) :
    parseProduct (fuel + 1) ⟨d.tokens ++ rest, last⟩ = .ok (d.formula, ⟨rest, last⟩) := by
  obtain ⟨first, tail⟩ := d
  simp only [ProductTree.tokens, List.length_append] at hf
  have hfirst := ih.operand first (tail.tokens ++ rest) last (by omega)
  have htail := ih.productTail tail first.formula last (by omega) hr
  simp only [parseProduct, ProductTree.tokens, List.append_assoc, hfirst, ok_bind, htail,
    ProductTree.formula]

theorem parseProductTail_accepts (ih : FormulasAccepted fuel) (d : ProductRest) (left : Formula)
    {rest : List Token} (last : Token) (hf : 3 * d.tokens.length < fuel + 1)
    (hr : EndsProduct rest) :
    parseProductTail (fuel + 1) left ⟨d.tokens ++ rest, last⟩ =
      .ok (d.after left, ⟨rest, last⟩) := by
  cases d with
  | nil =>
    obtain ⟨t, ts, rfl, ht⟩ := hr
    simp [parseProductTail, ProductRest.tokens, ProductRest.after, ht]
  | cons op factor tail =>
    simp only [ProductRest.tokens, List.length_cons, List.length_append] at hf
    have hfactor := ih.operand factor (tail.tokens ++ rest) last (by omega)
    have htail := ih.productTail tail (.binary op.op left factor.formula op.token.pos) last
      (by omega) hr
    simp [parseProductTail, ProductRest.tokens, ProductRest.after, op.reads, hfactor, htail,
      ok_bind]

/-- Only a number begins with a number. -/
theorem kind_ne_number {o : OperandTree} (h : o.numeral? = none) (rest : List Token)
    (last : Token) : (Tokens.mk (o.tokens ++ rest) last).kind ≠ .number := by
  cases o with
  | string t => simp [OperandTree.tokens, t.2]
  | number t => cases h
  | field t => rcases isName_iff.mp t.2 with ht | ht <;> simp [OperandTree.tokens, ht]
  | parens opening inner closing => simp [OperandTree.tokens, opening.2]
  | negated sign operand => simp [OperandTree.tokens, sign.2]

theorem parseOperand_accepts (ih : FormulasAccepted fuel) (o : OperandTree) (rest : List Token)
    (last : Token) (hf : 3 * o.tokens.length < fuel + 1) :
    parseOperand (fuel + 1) ⟨o.tokens ++ rest, last⟩ = .ok (o.formula, ⟨rest, last⟩) := by
  cases o with
  | string t => simp [parseOperand, OperandTree.tokens, OperandTree.formula, t.2]
  | number t => simp [parseOperand, OperandTree.tokens, OperandTree.formula, t.2]
  | field t =>
    rcases isName_iff.mp t.2 with ht | ht <;>
      simp [parseOperand, OperandTree.tokens, OperandTree.formula, ht]
  | parens opening inner closing =>
    simp only [OperandTree.tokens, List.length_cons, List.length_append] at hf
    have hinner := ih.sum inner last (by omega) (endsSum_closing closing rest)
    simp [parseOperand, OperandTree.tokens, OperandTree.formula, opening.2, hinner, ok_bind,
      expect_cons closing.2]
  | negated sign operand =>
    simp only [OperandTree.tokens, List.length_cons] at hf
    cases hnum : operand.numeral? with
    | some t =>
      obtain rfl := numeral?_eq_some.mp hnum
      simp [parseOperand, OperandTree.tokens, OperandTree.formula, hnum, sign.2, t.2]
    | none =>
      have hoperand := ih.operand operand rest last (by omega)
      simp [parseOperand, OperandTree.tokens, OperandTree.formula, hnum, sign.2,
        kind_ne_number hnum, hoperand, ok_bind]

theorem formulas_accepted (fuel : Nat) : FormulasAccepted fuel := by
  induction fuel with
  | zero => constructor <;> (intros; omega)
  | succ fuel ih =>
    exact ⟨parseSum_accepts ih, parseSumTail_accepts ih, parseProduct_accepts ih,
      parseProductTail_accepts ih, parseOperand_accepts ih⟩

end Accepted

/-- A sum begins with an operand, which is there. -/
theorem kind_ne_eof (d : SumTree) (rest : List Token) (last : Token) :
    (Tokens.mk (d.tokens ++ rest) last).kind ≠ .eof := by
  obtain ⟨⟨first, factors⟩, terms⟩ := d
  have hform := operandForm_tokens first (factors.tokens ++ (terms.tokens ++ rest))
  simp only [SumTree.tokens, ProductTree.tokens, List.append_assoc]
  intro hk
  cases hts : first.tokens ++ (factors.tokens ++ (terms.tokens ++ rest)) with
  | nil =>
    rw [hts] at hform
    cases hform
  | cons t ts =>
    rw [hts] at hform hk
    have ht : t.kind = .eof := hk
    simp [operandForm, ht] at hform

theorem formula_of_derivation (d : SumTree) {last : Token} (hlast : last.kind = .eof) :
    formulaOfTokens (d.tokens ++ [last]) = .ok d.formula := by
  have hfuel : 3 * d.tokens.length + 2 < formulaFuel (d.tokens ++ [last]).length := by
    simp only [formulaFuel, List.length_append, List.length_singleton]
    omega
  have hsum := (formulas_accepted _).sum d last hfuel (endsSum_eof hlast)
  have hend : (Tokens.mk [last] last).kind = .eof := hlast
  simp only [formulaOfTokens, Tokens.ofList, List.getLastD_concat, if_neg (kind_ne_eof d _ last),
    hsum, ok_bind, if_pos hend]

/-! ## Everything accepted has a derivation -/

/-- What each of the five readers takes is a derivation of what it returns. -/
structure FormulasDerived (fuel : Nat) : Prop where
  sum : ∀ {c d : Tokens} {e : Formula}, c.last.kind = .eof → parseSum fuel c = .ok (e, d) →
    ∃ tree : SumTree, tree.formula = e ∧ Took c tree.tokens d
  sumTail : ∀ {c d : Tokens} {left e : Formula}, c.last.kind = .eof →
    parseSumTail fuel left c = .ok (e, d) →
      ∃ tree : SumRest, tree.after left = e ∧ Took c tree.tokens d
  product : ∀ {c d : Tokens} {e : Formula}, c.last.kind = .eof →
    parseProduct fuel c = .ok (e, d) → ∃ tree : ProductTree, tree.formula = e ∧ Took c tree.tokens d
  productTail : ∀ {c d : Tokens} {left e : Formula}, c.last.kind = .eof →
    parseProductTail fuel left c = .ok (e, d) →
      ∃ tree : ProductRest, tree.after left = e ∧ Took c tree.tokens d
  operand : ∀ {c d : Tokens} {e : Formula}, c.last.kind = .eof →
    parseOperand fuel c = .ok (e, d) → ∃ tree : OperandTree, tree.formula = e ∧ Took c tree.tokens d

section Derived

variable {fuel : Nat} {c d : Tokens} {left e : Formula}

theorem parseSum_derived (ih : FormulasDerived fuel) (hc : c.last.kind = .eof)
    (h : parseSum (fuel + 1) c = .ok (e, d)) :
    ∃ tree : SumTree, tree.formula = e ∧ Took c tree.tokens d := by
  obtain ⟨⟨left, c₁⟩, h₁, h⟩ := bind_eq_ok.mp h
  obtain ⟨first, rfl, hfirst⟩ := ih.product hc h₁
  obtain ⟨rest, rfl, hrest⟩ := ih.sumTail hfirst.ended h
  refine ⟨.mk first rest, by simp [SumTree.formula], ?_⟩
  simpa [SumTree.tokens] using hfirst.trans hrest

theorem parseSumTail_derived (ih : FormulasDerived fuel) (hc : c.last.kind = .eof)
    (h : parseSumTail (fuel + 1) left c = .ok (e, d)) :
    ∃ tree : SumRest, tree.after left = e ∧ Took c tree.tokens d := by
  unfold parseSumTail at h
  split at h
  next =>
    cases h
    exact ⟨.nil, by simp [SumRest.after], by simpa [SumRest.tokens] using Took.none hc⟩
  next op hop =>
    obtain ⟨⟨right, c₁⟩, h₁, h⟩ := bind_eq_ok.mp h
    have hsign := took_advance hc rfl (kind_ne_eof_of_additiveOp hop)
    obtain ⟨term, rfl, hterm⟩ := ih.product hsign.ended h₁
    obtain ⟨rest, rfl, hrest⟩ := ih.sumTail hterm.ended h
    refine ⟨.cons ⟨c.peek, op, hop⟩ term rest, by simp [SumRest.after], ?_⟩
    simpa [SumRest.tokens] using (hsign.trans hterm).trans hrest

theorem parseProduct_derived (ih : FormulasDerived fuel) (hc : c.last.kind = .eof)
    (h : parseProduct (fuel + 1) c = .ok (e, d)) :
    ∃ tree : ProductTree, tree.formula = e ∧ Took c tree.tokens d := by
  obtain ⟨⟨left, c₁⟩, h₁, h⟩ := bind_eq_ok.mp h
  obtain ⟨first, rfl, hfirst⟩ := ih.operand hc h₁
  obtain ⟨rest, rfl, hrest⟩ := ih.productTail hfirst.ended h
  refine ⟨.mk first rest, by simp [ProductTree.formula], ?_⟩
  simpa [ProductTree.tokens] using hfirst.trans hrest

theorem parseProductTail_derived (ih : FormulasDerived fuel) (hc : c.last.kind = .eof)
    (h : parseProductTail (fuel + 1) left c = .ok (e, d)) :
    ∃ tree : ProductRest, tree.after left = e ∧ Took c tree.tokens d := by
  unfold parseProductTail at h
  split at h
  next =>
    cases h
    exact ⟨.nil, by simp [ProductRest.after], by simpa [ProductRest.tokens] using Took.none hc⟩
  next op hop =>
    obtain ⟨⟨right, c₁⟩, h₁, h⟩ := bind_eq_ok.mp h
    have hsign := took_advance hc rfl (kind_ne_eof_of_multiplicativeOp hop)
    obtain ⟨factor, rfl, hfactor⟩ := ih.operand hsign.ended h₁
    obtain ⟨rest, rfl, hrest⟩ := ih.productTail hfactor.ended h
    refine ⟨.cons ⟨c.peek, op, hop⟩ factor rest, by simp [ProductRest.after], ?_⟩
    simpa [ProductRest.tokens] using (hsign.trans hfactor).trans hrest

/-- After a minus that no number follows stands another operand than a number. -/
theorem numeral?_of_took {o : OperandTree} (h : Took c o.tokens d) (hk : c.kind ≠ .number) :
    o.numeral? = none := by
  cases o with
  | number t =>
    refine absurd ?_ hk
    have hrest : c.rest = t.1 :: d.rest := h.rest
    simp [Tokens.kind, Tokens.peek, hrest, t.2]
  | _ => rfl

theorem parseOperand_derived (ih : FormulasDerived fuel) (hc : c.last.kind = .eof)
    (h : parseOperand (fuel + 1) c = .ok (e, d)) :
    ∃ tree : OperandTree, tree.formula = e ∧ Took c tree.tokens d := by
  have hname (hn : c.peek.isName = true) :
      ∃ tree : OperandTree, tree.formula = .field c.peek.lexeme c.peek.pos ∧
        Took c tree.tokens c.advance :=
    ⟨.field ⟨c.peek, hn⟩, by simp [OperandTree.formula], by
      simpa [OperandTree.tokens] using took_name hc hn⟩
  unfold parseOperand at h
  simp only at h
  split at h
  case h_1 hk =>
    cases h
    refine ⟨.string ⟨c.peek, hk⟩, by simp [OperandTree.formula], ?_⟩
    simpa [OperandTree.tokens] using took_advance hc hk (by decide)
  case h_2 hk =>
    cases h
    refine ⟨.number ⟨c.peek, hk⟩, by simp [OperandTree.formula], ?_⟩
    simpa [OperandTree.tokens] using took_advance hc hk (by decide)
  case h_3 hk =>
    cases h
    exact hname (isName_iff.mpr (.inl hk))
  case h_4 hk =>
    cases h
    exact hname (isName_iff.mpr (.inr hk))
  case h_5 hk =>
    obtain ⟨⟨e, c₁⟩, h₁, h⟩ := bind_eq_ok.mp h
    obtain ⟨⟨close, c₂⟩, h₂, h⟩ := bind_eq_ok.mp h
    cases h
    have hopen := took_advance hc hk (by decide)
    obtain ⟨inner, rfl, hinner⟩ := ih.sum hopen.ended h₁
    obtain ⟨hclose, ht⟩ := expect_took hinner.ended h₂ (by decide)
    refine ⟨.parens ⟨c.peek, hk⟩ inner ⟨close, hclose⟩, by simp [OperandTree.formula], ?_⟩
    simpa [OperandTree.tokens] using (hopen.trans hinner).trans ht
  case h_6 hk =>
    have hsign := took_advance hc hk (by decide)
    split at h
    next hnum =>
      cases h
      refine ⟨.negated ⟨c.peek, hk⟩ (.number ⟨c.advance.peek, hnum⟩), ?_, ?_⟩
      · simp [OperandTree.formula, OperandTree.numeral?]
      · simpa [OperandTree.tokens] using hsign.trans (took_advance hsign.ended hnum (by decide))
    next hnum =>
      obtain ⟨⟨operand, c₁⟩, h₁, h⟩ := bind_eq_ok.mp h
      cases h
      obtain ⟨o, rfl, ho⟩ := ih.operand hsign.ended h₁
      refine ⟨.negated ⟨c.peek, hk⟩ o, ?_, ?_⟩
      · simp [OperandTree.formula, numeral?_of_took ho hnum]
      · simpa [OperandTree.tokens] using hsign.trans ho
  case h_7 => cases h

theorem formulas_derived (fuel : Nat) : FormulasDerived fuel := by
  induction fuel with
  | zero =>
    constructor <;> (intros; rename_i h; cases h)
  | succ fuel ih =>
    exact ⟨parseSum_derived ih, parseSumTail_derived ih, parseProduct_derived ih,
      parseProductTail_derived ih, parseOperand_derived ih⟩

end Derived

theorem derivation_of_formula {tokens : List Token} {e : Formula} (hends : EndsOnce tokens)
    (h : formulaOfTokens tokens = .ok e) :
    ∃ (d : SumTree) (last : Token),
      tokens = d.tokens ++ [last] ∧ last.kind = .eof ∧ d.formula = e := by
  have hc := ofList_ended hends
  obtain ⟨body, last, rfl, hlast, hbody⟩ := hends
  unfold formulaOfTokens at h
  simp only at h
  split at h
  · cases h
  · obtain ⟨⟨e', c⟩, hsum, h⟩ := bind_eq_ok.mp h
    simp only at h
    split at h
    next hk =>
      cases h
      obtain ⟨tree, rfl, ht⟩ := (formulas_derived _).sum hc hsum
      have hrest := rest_of_took rfl hlast hbody ht hk
      have htokens : body ++ [last] = tree.tokens ++ c.rest := ht.rest
      exact ⟨tree, last, by rw [htokens, hrest], hlast, rfl⟩
    next => cases h

/-! ## Mentions -/

/-- The names among tokens, with their positions. -/
def namesIn (ts : List Token) : List (String × Pos) :=
  (ts.filter Token.isName).map fun t => (t.lexeme, t.pos)

@[simp] theorem namesIn_append (ts us : List Token) :
    namesIn (ts ++ us) = namesIn ts ++ namesIn us := by
  simp [namesIn]

theorem namesIn_cons {t : Token} (ht : t.isName = false) (ts : List Token) :
    namesIn (t :: ts) = namesIn ts := by
  simp [namesIn, ht]

theorem isName_terminal {k : TokenKind} (hk : k ≠ .ident ∧ k ≠ .keyword) (t : Terminal k) :
    t.1.isName = false := by
  rw [Token.isName, t.2]
  simp [hk]

theorem isName_opToken {level : TokenKind → Option Operator}
    (hlevel : level .ident = none ∧ level .keyword = none) (op : OpToken level) :
    op.token.isName = false := by
  have hreads := op.reads
  rw [Bool.eq_false_iff]
  intro hn
  rcases isName_iff.mp hn with hk | hk
  · rw [hk, hlevel.1] at hreads
    cases hreads
  · rw [hk, hlevel.2] at hreads
    cases hreads

mutual

theorem sum_mentions : ∀ d : SumTree, d.formula.mentions = namesIn d.tokens
  | .mk first rest => by
    rw [SumTree.formula, SumTree.tokens, namesIn_append, sumRest_mentions rest,
      product_mentions first]

theorem sumRest_mentions : ∀ (d : SumRest) {left : Formula},
    (d.after left).mentions = left.mentions ++ namesIn d.tokens
  | .nil, left => by simp [SumRest.after, SumRest.tokens, namesIn]
  | .cons op term rest, left => by
    rw [SumRest.after, sumRest_mentions rest, Formula.mentions, product_mentions term,
      SumRest.tokens, namesIn_cons (isName_opToken ⟨rfl, rfl⟩ op), namesIn_append,
      List.append_assoc]

theorem product_mentions : ∀ d : ProductTree, d.formula.mentions = namesIn d.tokens
  | .mk first rest => by
    rw [ProductTree.formula, ProductTree.tokens, namesIn_append, productRest_mentions rest,
      operand_mentions first]

theorem productRest_mentions : ∀ (d : ProductRest) {left : Formula},
    (d.after left).mentions = left.mentions ++ namesIn d.tokens
  | .nil, left => by simp [ProductRest.after, ProductRest.tokens, namesIn]
  | .cons op factor rest, left => by
    rw [ProductRest.after, productRest_mentions rest, Formula.mentions, operand_mentions factor,
      ProductRest.tokens, namesIn_cons (isName_opToken ⟨rfl, rfl⟩ op), namesIn_append,
      List.append_assoc]

theorem operand_mentions : ∀ o : OperandTree, o.formula.mentions = namesIn o.tokens
  | .string t => by
    rw [OperandTree.tokens, namesIn_cons (isName_terminal (by decide) t)]
    simp [OperandTree.formula, Formula.mentions, namesIn]
  | .number t => by
    rw [OperandTree.tokens, namesIn_cons (isName_terminal (by decide) t)]
    simp [OperandTree.formula, Formula.mentions, namesIn]
  | .field t => by simp [OperandTree.formula, OperandTree.tokens, Formula.mentions, namesIn, t.2]
  | .parens opening inner closing => by
    rw [OperandTree.formula, OperandTree.tokens,
      namesIn_cons (isName_terminal (by decide) opening), namesIn_append,
      namesIn_cons (isName_terminal (by decide) closing), sum_mentions inner]
    simp [namesIn]
  | .negated sign operand => by
    rw [OperandTree.formula, OperandTree.tokens,
      namesIn_cons (isName_terminal (by decide) sign), ← operand_mentions operand]
    split
    next t ht =>
      obtain rfl := numeral?_eq_some.mp ht
      simp [Formula.mentions, OperandTree.formula]
    next => simp [Formula.mentions]

end

/-- A formula refers to each name once, in order of first appearance. -/
theorem names_refs (f : Formula) : f.refs.map (·.1) = (f.mentions.map (·.1)).eraseDups := by
  simpa [Formula.refs, keepFirst] using keepFirst_keys Prod.fst [] f.mentions

theorem refs_formula (d : SumTree) :
    d.formula.refs.map (·.1) = ((d.tokens.filter Token.isName).map Token.lexeme).eraseDups := by
  rw [names_refs, sum_mentions, namesIn, List.map_map]
  rfl

/-! ## Numbers -/

/-- All numbers of a formula are numerals, behind a minus or without. -/
def AllSigned : Formula → Prop
  | .number raw _ => IsSigned raw
  | .binary _ left right _ => AllSigned left ∧ AllSigned right
  | _ => True

theorem isSigned_zero : IsSigned "0" :=
  .inl ⟨['0'], [], rfl, ⟨List.cons_ne_nil _ _, List.forall_mem_singleton.mpr (by decide)⟩, .inl rfl⟩

mutual

theorem allSigned_sum : ∀ d : SumTree, (∀ t ∈ d.tokens, t.IsSpelled) → AllSigned d.formula
  | .mk first rest, h => by
    rw [SumTree.tokens, List.forall_mem_append] at h
    exact allSigned_sumRest rest (allSigned_product first h.1) h.2

theorem allSigned_sumRest : ∀ (d : SumRest) {left : Formula}, AllSigned left →
    (∀ t ∈ d.tokens, t.IsSpelled) → AllSigned (d.after left)
  | .nil, _, hleft, _ => hleft
  | .cons op term rest, _, hleft, h => by
    rw [SumRest.tokens, List.forall_mem_cons, List.forall_mem_append] at h
    exact allSigned_sumRest rest ⟨hleft, allSigned_product term h.2.1⟩ h.2.2

theorem allSigned_product : ∀ d : ProductTree, (∀ t ∈ d.tokens, t.IsSpelled) → AllSigned d.formula
  | .mk first rest, h => by
    rw [ProductTree.tokens, List.forall_mem_append] at h
    exact allSigned_productRest rest (allSigned_operand first h.1) h.2

theorem allSigned_productRest : ∀ (d : ProductRest) {left : Formula}, AllSigned left →
    (∀ t ∈ d.tokens, t.IsSpelled) → AllSigned (d.after left)
  | .nil, _, hleft, _ => hleft
  | .cons op factor rest, _, hleft, h => by
    rw [ProductRest.tokens, List.forall_mem_cons, List.forall_mem_append] at h
    exact allSigned_productRest rest ⟨hleft, allSigned_operand factor h.2.1⟩ h.2.2

theorem allSigned_operand : ∀ o : OperandTree, (∀ t ∈ o.tokens, t.IsSpelled) → AllSigned o.formula
  | .string _, _ => trivial
  | .number t, h => .inl ((h t.1 (List.mem_singleton.mpr rfl)).number t.2)
  | .field _, _ => trivial
  | .parens _ inner _, h => by
    rw [OperandTree.tokens, List.forall_mem_cons, List.forall_mem_append] at h
    exact allSigned_sum inner h.2.1
  | .negated sign operand, h => by
    rw [OperandTree.tokens, List.forall_mem_cons] at h
    rw [OperandTree.formula]
    split
    next t ht =>
      obtain rfl := numeral?_eq_some.mp ht
      have hdigits := (h.2 t.1 (List.mem_singleton.mpr rfl)).number t.2
      exact .inr ⟨t.1.lexeme.toList, by simp, hdigits⟩
    next => exact ⟨isSigned_zero, allSigned_operand operand h.2⟩

end

/-- A formula that is read off a text has a derivation from its tokens. -/
theorem exists_derivation {source : List Text.Rune} {e : Formula}
    (h : parseFormula source = .ok e) :
    ∃ (tokens : List Token) (last : Token), lex source = .ok (tokens ++ [last]) ∧
      last.kind = .eof ∧ ∃ d : SumTree, d.tokens = tokens ∧ d.formula = e := by
  unfold parseFormula at h
  split at h
  · cases h
  next tokens hl =>
    split at h
    · cases h
    next f hf =>
      cases h
      obtain ⟨d, last, rfl, hlast, rfl⟩ := derivation_of_formula (lexFrom_spelled hl).1 hf
      exact ⟨d.tokens, last, hl, hlast, d, rfl, rfl⟩

theorem allSigned_parseFormula {source : List Text.Rune} {e : Formula}
    (h : parseFormula source = .ok e) : AllSigned e := by
  obtain ⟨_, last, hl, -, d, rfl, rfl⟩ := exists_derivation h
  exact allSigned_sum d fun t ht => lexFrom_isSpelled hl t (List.mem_append_left _ ht)

/-- A text is read as a formula exactly where its tokens, up to the end of input, have a
derivation. There is one at most, it tells the formula, and the formula refers to the names among
the tokens, each where it first appears. -/
theorem parseFormula_iff_derivation (source : List Text.Rune) :
    (∀ e : Formula, parseFormula source = .ok e ↔
      ∃ (tokens : List Token) (last : Token), lex source = .ok (tokens ++ [last]) ∧
        last.kind = .eof ∧ ∃ d : SumTree, d.tokens = tokens ∧ d.formula = e) ∧
      Function.Injective SumTree.tokens ∧
      ∀ d : SumTree, d.formula.refs.map (·.1) =
        ((d.tokens.filter Token.isName).map Token.lexeme).eraseDups := by
  refine ⟨fun e => ⟨exists_derivation, ?_⟩, sumTokens_injective, refs_formula⟩
  rintro ⟨_, last, hl, hlast, d, rfl, rfl⟩
  simp [parseFormula, hl, formula_of_derivation d hlast]

end Scaffold.Source.Grammar
