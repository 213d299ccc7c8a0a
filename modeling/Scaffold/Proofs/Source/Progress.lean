import Scaffold.Proofs.Source.Spelling
import Scaffold.Source.Formula

/-! # Parsing ends

A parser that succeeds has taken tokens, so the fuel that is supplied for a list of tokens is never
used up: no source text makes the parser stall. -/
namespace Scaffold.Source

/-- A parser does not stall, and what it succeeds with leaves `n` tokens less at least. -/
def Takes {α : Type} (n : Nat) (c : Tokens) : Except ParseError (α × Tokens) → Prop
  | .error e => e ≠ .stalled
  | .ok (_, d) => d.last.kind = .eof ∧ d.rest.length + n ≤ c.rest.length

section Takes

variable {α β : Type} {n : Nat} {c : Tokens}

theorem Takes.after {d : Tokens} {r : Except ParseError (α × Tokens)}
    (hle : d.rest.length + n ≤ c.rest.length) (h : Takes 0 d r) : Takes n c r := by
  match r with
  | .error e => exact h
  | .ok (x, e) => exact ⟨h.1, Nat.le_trans (Nat.add_le_add_right h.2 n) hle⟩

theorem Takes.zero {r : Except ParseError (α × Tokens)} (h : Takes n c r) : Takes 0 c r := by
  match r with
  | .error e => exact h
  | .ok (x, d) => exact ⟨h.1, Nat.le_trans (Nat.le_add_right _ _) h.2⟩

/-- Parsers in sequence take what the first of them takes. -/
theorem Takes.bind {r : Except ParseError (α × Tokens)}
    {f : α × Tokens → Except ParseError (β × Tokens)} (h : Takes n c r)
    (hf : ∀ x d, d.last.kind = .eof → d.rest.length + n ≤ c.rest.length → Takes 0 d (f (x, d))) :
    Takes n c (r >>= f) := by
  match r with
  | .error e => exact h
  | .ok (x, d) => exact .after h.2 (hf x d h.1 h.2)

theorem Takes.andThen {r : Except ParseError (α × Tokens)}
    {f : α × Tokens → Except ParseError (β × Tokens)} (h : Takes n c r)
    (hf : ∀ x d, d.last.kind = .eof → d.rest.length + n ≤ c.rest.length → Takes 0 d (f (x, d))) :
    Takes 0 c (r >>= f) := (h.bind hf).zero

theorem takes_here (hc : c.last.kind = .eof) (x : α) : Takes 0 c (.ok (x, c)) :=
  ⟨hc, Nat.le_refl _⟩

theorem takes_mismatch (what : Expected) (d : Tokens) :
    Takes (α := α) n c (mismatch what d) := ParseError.noConfusion

/-- Only a token that is still there has another kind than the end of input. -/
theorem Takes.advance {k : TokenKind} {r : Except ParseError (α × Tokens)}
    (hc : c.last.kind = .eof) (hk : c.kind = k) (hne : k ≠ .eof)
    (h : c.advance.last.kind = .eof → c.advance.rest.length + 1 ≤ c.rest.length →
      Takes 0 c.advance r) : Takes 1 c r := by
  have hlen : c.advance.rest.length + 1 ≤ c.rest.length := by
    subst hk
    obtain ⟨rest, last⟩ := c
    cases rest with
    | nil => exact absurd hc hne
    | cons t rest => exact Nat.le_refl _
  exact .after hlen (h hc hlen)

theorem takes_advance {k : TokenKind} (hc : c.last.kind = .eof) (hk : c.kind = k)
    (hne : k ≠ .eof) (x : α) : Takes 1 c (.ok (x, c.advance)) :=
  .advance hc hk hne fun ha _ => takes_here ha x

theorem takes_expect {k : TokenKind} (hc : c.last.kind = .eof) (hne : k ≠ .eof) :
    Takes 1 c (expect k c) := by
  unfold expect
  split
  next hk => exact takes_advance hc hk hne _
  next => exact takes_mismatch _ _

theorem kind_ne_eof_of_isName (h : c.peek.isName = true) : c.kind ≠ .eof := by
  rcases Grammar.isName_iff.mp h with hk | hk <;> simp [Tokens.kind, hk]

theorem takes_expectName (what : Expected) (hc : c.last.kind = .eof) :
    Takes 1 c (expectName what c) := by
  unfold expectName
  split
  next hn => exact takes_advance hc rfl (kind_ne_eof_of_isName hn) _
  next => exact takes_mismatch _ _

end Takes

/-! ## Values -/

theorem pathTail_takes {fuel : Nat} {c : Tokens} (hc : c.last.kind = .eof)
    (h : c.rest.length < fuel) : Takes 0 c (pathTail fuel c) := by
  induction fuel generalizing c with
  | zero => exact absurd h (Nat.not_lt_zero _)
  | succ fuel ih =>
    unfold pathTail
    split
    next hk =>
      refine .zero (.advance hc hk (by decide) fun ha hlen => ?_)
      refine (takes_expectName .nameAfterDot ha).andThen fun seg d hd hle => ?_
      exact (ih hd (by omega)).andThen fun segs e he _ => takes_here he _
    next => exact takes_here hc _

/-- A bracket takes two units of fuel: one for itself, one for the items between. -/
structure ValuesTake (fuel : Nat) : Prop where
  value : ∀ {c : Tokens}, c.last.kind = .eof → 2 * c.rest.length < fuel →
    Takes 1 c (parseValue fuel c)
  items : ∀ {k : TokenKind} (separator : Expected) {c : Tokens}, k ≠ .eof →
    c.last.kind = .eof → 2 * c.rest.length + 1 < fuel → Takes 1 c (parseItems fuel k separator c)
  props : ∀ {c : Tokens}, c.last.kind = .eof → 2 * c.rest.length + 1 < fuel →
    Takes 1 c (parseProps fuel c)
  prop : ∀ {c : Tokens}, c.last.kind = .eof → 2 * c.rest.length < fuel →
    Takes 1 c (parseProp fuel c)

section Values

variable {fuel : Nat} {c : Tokens}

/-- A word is a call, an environment variable or a path. -/
theorem parseNamed_takes (ih : ValuesTake fuel) (hc : c.last.kind = .eof) (hne : c.kind ≠ .eof)
    (h : 2 * c.rest.length < fuel + 1) : Takes 1 c
      (if (c.peekAt 1).kind = .lparen then
        if c.peek.lexeme = "env" then do
          let (v, c') ← expectName .envVariable c.advance.advance
          let (_, c') ← expect .rparen c'
          .ok (Value.env v.lexeme c.peek.pos, c')
        else do
          let (args, c') ← parseItems fuel .rparen .commaOrParen c.advance.advance
          .ok (Value.call c.peek.lexeme args c.peek.pos, c')
      else do
        let (segs, c') ← pathTail fuel c.advance
        .ok (Value.ident (c.peek.lexeme :: segs) c.peek.pos, c')) := by
  refine .advance hc rfl hne fun ha hlen => ?_
  split
  next hparen =>
    rw [Grammar.peekAt_one_eq] at hparen
    refine .zero (.advance ha hparen (by decide) fun hb hlen' => ?_)
    split
    · refine (takes_expectName .envVariable hb).andThen fun v d hd _ => ?_
      exact (takes_expect hd (by decide)).andThen fun _ e he _ => takes_here he _
    · exact (ih.items .commaOrParen (by decide) hb (by omega)).andThen
        fun args d hd _ => takes_here hd _
  next => exact (pathTail_takes ha (by omega)).andThen fun segs d hd _ => takes_here hd _

theorem parseValue_takes (ih : ValuesTake fuel) (hc : c.last.kind = .eof)
    (h : 2 * c.rest.length < fuel + 1) : Takes 1 c (parseValue (fuel + 1) c) := by
  unfold parseValue
  dsimp only
  split
  next hk => exact takes_advance hc hk (by decide) _
  next hk => exact takes_advance hc hk (by decide) _
  next hk =>
    refine .advance hc hk (by decide) fun ha _ => ?_
    exact (takes_expect ha (by decide)).andThen fun n d hd _ => takes_here hd _
  next hk => exact takes_advance hc hk (by decide) _
  next hk =>
    refine .advance hc hk (by decide) fun ha hlen => ?_
    exact (ih.items .commaOrBracket (by decide) ha (by omega)).andThen
      fun elems d hd _ => takes_here hd _
  next hk =>
    refine .advance hc hk (by decide) fun ha hlen => ?_
    exact (ih.props ha (by omega)).andThen fun props d hd _ => takes_here hd _
  next hk => exact parseNamed_takes ih hc (by simp [Tokens.kind, hk]) h
  next hk => exact parseNamed_takes ih hc (by simp [Tokens.kind, hk]) h
  next => exact takes_mismatch _ _

theorem parseItems_takes (ih : ValuesTake fuel) {k : TokenKind} (separator : Expected)
    (hne : k ≠ .eof) (hc : c.last.kind = .eof) (h : 2 * c.rest.length + 1 < fuel + 1) :
    Takes 1 c (parseItems (fuel + 1) k separator c) := by
  unfold parseItems
  split
  next hk => exact takes_advance hc hk hne _
  next =>
    refine (ih.value hc (by omega)).bind fun v d hd hle => ?_
    dsimp only
    split
    next hk =>
      refine .zero (.advance hd hk (by decide) fun ha hlen => ?_)
      exact (ih.items separator hne ha (by omega)).andThen fun vs e he _ => takes_here he _
    next =>
      split
      next hk => exact .zero (takes_advance hd hk hne _)
      next => exact takes_mismatch _ _

theorem parseProps_takes (ih : ValuesTake fuel) (hc : c.last.kind = .eof)
    (h : 2 * c.rest.length + 1 < fuel + 1) : Takes 1 c (parseProps (fuel + 1) c) := by
  unfold parseProps
  split
  next hk => exact takes_advance hc hk (by decide) _
  next hk => exact .advance hc hk (by decide) fun ha hlen => .zero (ih.props ha (by omega))
  next =>
    refine (ih.prop hc (by omega)).bind fun p d hd hle => ?_
    exact (ih.props hd (by omega)).andThen fun ps e he _ => takes_here he _

theorem parseProp_takes (ih : ValuesTake fuel) (hc : c.last.kind = .eof)
    (h : 2 * c.rest.length < fuel + 1) : Takes 1 c (parseProp (fuel + 1) c) := by
  unfold parseProp
  refine (takes_expectName .propertyName hc).bind fun key d hd hle => ?_
  refine (takes_expect hd (by decide)).andThen fun _ e he hle' => ?_
  exact (ih.value he (by omega)).andThen fun v g hg _ => takes_here hg _

theorem values_take (fuel : Nat) : ValuesTake fuel := by
  induction fuel with
  | zero => constructor <;> (intros; omega)
  | succ fuel ih =>
    exact ⟨parseValue_takes ih, fun separator => parseItems_takes ih separator,
      parseProps_takes ih, parseProp_takes ih⟩

theorem parseBody_takes (hc : c.last.kind = .eof) (h : 2 * c.rest.length < fuel) :
    Takes 1 c (parseBody fuel c) := by
  unfold parseBody
  refine (takes_expect hc (by decide)).bind fun _ d hd hle => ?_
  exact .zero ((values_take fuel).props hd (by omega))

end Values

/-! ## Fields -/

section Fields

variable {fuel : Nat} {c : Tokens}

theorem attributeArgs_takes (hc : c.last.kind = .eof) (h : 2 * c.rest.length + 1 < fuel) :
    Takes 1 c (attributeArgs fuel c) := by
  induction fuel generalizing c with
  | zero => exact absurd h (Nat.not_lt_zero _)
  | succ fuel ih =>
    unfold attributeArgs
    refine ((values_take fuel).prop hc (by omega)).bind fun p d hd hle => ?_
    dsimp only
    split
    next hk =>
      refine .zero (.advance hd hk (by decide) fun ha hlen => ?_)
      exact (ih ha (by omega)).andThen fun ps e he _ => takes_here he _
    next hk => exact .zero (takes_advance hd hk (by decide) _)
    next => exact takes_mismatch _ _

theorem parseAttribute_takes (hc : c.last.kind = .eof) (hk : c.kind = .attr)
    (h : 2 * c.rest.length < fuel + 1) : Takes 1 c (parseAttribute fuel c) := by
  refine .advance hc hk (by decide) fun ha hlen => ?_
  unfold parseAttribute
  dsimp only
  split
  next hclose => exact .zero (takes_advance ha hclose (by decide) _)
  next => exact (attributeArgs_takes ha (by omega)).andThen fun args d hd _ => takes_here hd _

/-- Nothing is taken only where there is no modifier. -/
theorem parseModifier_takes (hc : c.last.kind = .eof) (h : 2 * c.rest.length < fuel + 1) :
    parseModifier fuel c = .ok (none, c) ∨ Takes 1 c (parseModifier fuel c) := by
  unfold parseModifier
  dsimp only
  split
  next m hm =>
    have hk : c.kind = .ident := by
      split at hm
      next hcond => exact of_decide_eq_true (Bool.and_eq_true_iff.mp hcond).1
      next => cases hm
    exact .inr (takes_advance hc hk (by decide) _)
  next =>
    split
    next hcond =>
      simp only [Bool.and_eq_true, decide_eq_true_eq] at hcond
      obtain ⟨⟨hk, -⟩, hparen⟩ := hcond
      rw [Grammar.peekAt_one_eq] at hparen
      refine .inr (.advance hc hk (by decide) fun ha hlen => ?_)
      refine .zero (.advance ha hparen (by decide) fun hb hlen' => ?_)
      refine ((values_take fuel).value hb (by omega)).andThen fun v d hd hle => ?_
      exact (takes_expect hd (by decide)).andThen fun _ e he _ => takes_here he _
    next =>
      split
      next hk =>
        exact .inr ((parseAttribute_takes hc hk h).bind fun a d hd _ => takes_here hd _)
      next =>
        split
        next => exact .inl rfl
        next => exact .inr (takes_mismatch _ _)

theorem parseModifiers_takes (hc : c.last.kind = .eof) (h : 2 * c.rest.length + 1 < fuel) :
    Takes 0 c (parseModifiers fuel c) := by
  induction fuel generalizing c with
  | zero => exact absurd h (Nat.not_lt_zero _)
  | succ fuel ih =>
    unfold parseModifiers
    rcases @parseModifier_takes fuel c hc (by omega) with hnone | htakes
    · rw [hnone]
      exact takes_here hc _
    · refine htakes.andThen fun m d hd hle => ?_
      cases m with
      | none => exact takes_here hd _
      | some m => exact (ih hd (by omega)).andThen fun ms e he _ => takes_here he _

theorem parseTypeRef_takes (hc : c.last.kind = .eof) : Takes 1 c (parseTypeRef c) := by
  unfold parseTypeRef
  refine (takes_expectName .fieldType hc).bind fun t d hd _ => ?_
  dsimp only
  split
  next hk =>
    refine .zero (.advance hd hk (by decide) fun ha _ => ?_)
    exact (takes_expect ha (by decide)).andThen fun _ e he _ => takes_here he _
  next => exact takes_here hd _

theorem parseField_takes (hc : c.last.kind = .eof) (h : 2 * c.rest.length < fuel) :
    Takes 1 c (parseField fuel c) := by
  unfold parseField
  refine (takes_expectName .fieldNameOrBrace hc).bind fun name d hd hle => ?_
  refine (takes_expect hd (by decide)).andThen fun _ e he hle' => ?_
  refine (parseTypeRef_takes he).andThen fun t g hg hle'' => ?_
  exact (parseModifiers_takes hg (by omega)).andThen fun ms k hk _ => takes_here hk _

theorem parseFields_takes (hc : c.last.kind = .eof) (h : 2 * c.rest.length + 1 < fuel) :
    Takes 1 c (parseFields fuel c) := by
  induction fuel generalizing c with
  | zero => exact absurd h (Nat.not_lt_zero _)
  | succ fuel ih =>
    unfold parseFields
    split
    next hk => exact takes_advance hc hk (by decide) _
    next hk => exact .advance hc hk (by decide) fun ha hlen => .zero (ih ha (by omega))
    next =>
      refine (parseField_takes hc (by omega)).bind fun f d hd hle => ?_
      exact (ih hd (by omega)).andThen fun fs e he _ => takes_here he _

end Fields

/-! ## Blocks -/

section Blocks

variable {fuel : Nat} {c : Tokens}

/-- A value of an enum is one token, and the others follow it. -/
theorem takes_enumValue {k : TokenKind} (hc : c.last.kind = .eof) (hk : c.kind = k) (hne : k ≠ .eof)
    (hrest : c.advance.last.kind = .eof → c.advance.rest.length + 1 ≤ c.rest.length →
      Takes 1 c.advance (parseEnumValues fuel c.advance)) :
    Takes 1 c (do
      let (vs, c') ← parseEnumValues fuel c.advance
      .ok (⟨c.peek.lexeme, c.peek.pos⟩ :: vs, c')) := by
  refine .advance hc hk hne fun ha hlen => ?_
  exact (hrest ha hlen).andThen fun vs d hd _ => takes_here hd _

theorem parseEnumValues_takes (hc : c.last.kind = .eof) (h : c.rest.length < fuel) :
    Takes 1 c (parseEnumValues fuel c) := by
  induction fuel generalizing c with
  | zero => exact absurd h (Nat.not_lt_zero _)
  | succ fuel ih =>
    unfold parseEnumValues
    split
    next hk => exact takes_advance hc hk (by decide) _
    next hk => exact .advance hc hk (by decide) fun ha hlen => .zero (ih ha (by omega))
    next hk => exact takes_enumValue hc hk (by decide) fun ha hlen => ih ha (by omega)
    next hk => exact takes_enumValue hc hk (by decide) fun ha hlen => ih ha (by omega)
    next => exact takes_mismatch _ _

theorem parseWorkflowItems_takes (hc : c.last.kind = .eof) (h : 2 * c.rest.length + 1 < fuel) :
    Takes 1 c (parseWorkflowItems fuel c) := by
  induction fuel generalizing c with
  | zero => exact absurd h (Nat.not_lt_zero _)
  | succ fuel ih =>
    unfold parseWorkflowItems
    split
    next hk => exact takes_advance hc hk (by decide) _
    next hk => exact .advance hc hk (by decide) fun ha hlen => .zero (ih ha (by omega))
    next =>
      dsimp only
      split
      next hcond =>
        simp only [Bool.and_eq_true, decide_eq_true_eq] at hcond
        obtain ⟨⟨⟨hk, -⟩, hname⟩, -⟩ := hcond
        rw [Grammar.peekAt_one_eq] at hname
        refine .advance hc hk (by decide) fun ha hlen => ?_
        refine .zero (.advance ha rfl (kind_ne_eof_of_isName hname) fun hb hlen' => ?_)
        refine (parseBody_takes hb (by omega)).andThen fun inputs d hd hle => ?_
        exact (ih hd (by omega)).andThen fun items e he _ => takes_here he _
      next =>
        refine ((values_take fuel).prop hc (by omega)).bind fun p d hd hle => ?_
        exact (ih hd (by omega)).andThen fun items e he _ => takes_here he _

theorem parseNamedBlock_takes (file : String) (what : Expected) (hc : c.last.kind = .eof)
    (hk : c.kind = .keyword) (h : 2 * c.rest.length < fuel) :
    Takes 1 c (parseNamedBlock fuel file what c) := by
  unfold parseNamedBlock
  refine .advance hc hk (by decide) fun ha hlen => ?_
  refine (takes_expectName what ha).andThen fun name d hd hle => ?_
  exact (parseBody_takes hd (by omega)).andThen fun props e he _ => takes_here he _

theorem parseDecl_takes (file : String) (hc : c.last.kind = .eof) (h : 2 * c.rest.length < fuel) :
    Takes 1 c (parseDecl fuel file c) := by
  have hkeyword (hk : ¬ c.peek.kind ≠ .keyword) : c.kind = .keyword := Decidable.of_not_not hk
  fun_cases parseDecl fuel file c with
  | case1 | case8 => exact takes_mismatch _ _
  | case2 t hk =>
    refine .advance hc (hkeyword hk) (by decide) fun ha hlen => ?_
    refine (takes_expectName .entityName ha).andThen fun name d hd hle => ?_
    refine (takes_expect hd (by decide)).andThen fun _ e he hle' => ?_
    exact (parseFields_takes he (by omega)).andThen fun fs g hg _ => takes_here hg _
  | case3 t hk =>
    refine .advance hc (hkeyword hk) (by decide) fun ha hlen => ?_
    refine (takes_expectName .enumName ha).andThen fun name d hd hle => ?_
    refine (takes_expect hd (by decide)).andThen fun _ e he hle' => ?_
    exact (parseEnumValues_takes he (by omega)).andThen fun vs g hg _ => takes_here hg _
  | case4 t hk | case5 t hk =>
    exact (parseNamedBlock_takes file _ hc (hkeyword hk) h).bind fun d e he _ => takes_here he _
  | case6 t hk =>
    refine .advance hc (hkeyword hk) (by decide) fun ha hlen => ?_
    refine (takes_expectName .workflowName ha).andThen fun name d hd hle => ?_
    refine (takes_expect hd (by decide)).andThen fun _ e he hle' => ?_
    exact (parseWorkflowItems_takes he (by omega)).andThen fun items g hg _ => takes_here hg _
  | case7 t hk _ _ _ _ _ _ first name c₁ hfirst =>
    refine .advance hc (hkeyword hk) (by decide) fun ha hlen => ?_
    -- The name of a configuration may be missing.
    split at hfirst <;> cases hfirst
    next hn =>
      refine .zero (.advance ha rfl (kind_ne_eof_of_isName hn) fun hb hlen' => ?_)
      exact (parseBody_takes hb (by omega)).andThen fun props d hd _ => takes_here hd _
    next hn => exact (parseBody_takes ha (by omega)).andThen fun props d hd _ => takes_here hd _

theorem parseDecls_takes (file : String) (hc : c.last.kind = .eof)
    (h : 2 * c.rest.length + 1 < fuel) : Takes 0 c (parseDecls fuel file c) := by
  induction fuel generalizing c with
  | zero => exact absurd h (Nat.not_lt_zero _)
  | succ fuel ih =>
    unfold parseDecls
    split
    next => exact takes_here hc _
    next =>
      refine (parseDecl_takes file hc (by omega)).andThen fun d e he hle => ?_
      exact (ih he (by omega)).andThen fun ds g hg _ => takes_here hg _

end Blocks

/-! ## Formulas -/

/-- A parenthesis takes three units of fuel: for a sum, a product and an operand. -/
structure FormulasTake (fuel : Nat) : Prop where
  sum : ∀ {c : Tokens}, c.last.kind = .eof → 3 * c.rest.length + 2 < fuel →
    Takes 1 c (parseSum fuel c)
  sumTail : ∀ (left : Formula) {c : Tokens}, c.last.kind = .eof → 3 * c.rest.length < fuel →
    Takes 0 c (parseSumTail fuel left c)
  product : ∀ {c : Tokens}, c.last.kind = .eof → 3 * c.rest.length + 1 < fuel →
    Takes 1 c (parseProduct fuel c)
  productTail : ∀ (left : Formula) {c : Tokens}, c.last.kind = .eof → 3 * c.rest.length < fuel →
    Takes 0 c (parseProductTail fuel left c)
  operand : ∀ {c : Tokens}, c.last.kind = .eof → 3 * c.rest.length < fuel →
    Takes 1 c (parseOperand fuel c)

section Formulas

variable {fuel : Nat} {c : Tokens}

theorem kind_ne_eof_of_additiveOp {op : Operator} (h : additiveOp c.kind = some op) :
    c.kind ≠ .eof := by
  intro hk
  rw [hk] at h
  cases h

theorem kind_ne_eof_of_multiplicativeOp {op : Operator} (h : multiplicativeOp c.kind = some op) :
    c.kind ≠ .eof := by
  intro hk
  rw [hk] at h
  cases h

theorem parseSumTail_takes (ih : FormulasTake fuel) (left : Formula) (hc : c.last.kind = .eof)
    (h : 3 * c.rest.length < fuel + 1) : Takes 0 c (parseSumTail (fuel + 1) left c) := by
  unfold parseSumTail
  split
  next => exact takes_here hc _
  next op hop =>
    refine .zero (.advance hc rfl (kind_ne_eof_of_additiveOp hop) fun ha hlen => ?_)
    exact (ih.product ha (by omega)).andThen fun right d hd hle => ih.sumTail _ hd (by omega)

theorem parseProductTail_takes (ih : FormulasTake fuel) (left : Formula) (hc : c.last.kind = .eof)
    (h : 3 * c.rest.length < fuel + 1) : Takes 0 c (parseProductTail (fuel + 1) left c) := by
  unfold parseProductTail
  split
  next => exact takes_here hc _
  next op hop =>
    refine .zero (.advance hc rfl (kind_ne_eof_of_multiplicativeOp hop) fun ha hlen => ?_)
    exact (ih.operand ha (by omega)).andThen fun right d hd hle => ih.productTail _ hd (by omega)

theorem parseOperand_takes (ih : FormulasTake fuel) (hc : c.last.kind = .eof)
    (h : 3 * c.rest.length < fuel + 1) : Takes 1 c (parseOperand (fuel + 1) c) := by
  unfold parseOperand
  dsimp only
  split
  next hk => exact takes_advance hc hk (by decide) _
  next hk => exact takes_advance hc hk (by decide) _
  next hk => exact takes_advance hc hk (by decide) _
  next hk => exact takes_advance hc hk (by decide) _
  next hk =>
    refine .advance hc hk (by decide) fun ha hlen => ?_
    refine (ih.sum ha (by omega)).andThen fun e d hd _ => ?_
    exact (takes_expect hd (by decide)).andThen fun _ g hg _ => takes_here hg _
  next hk =>
    refine .advance hc hk (by decide) fun ha hlen => ?_
    split
    next hk' => exact .zero (takes_advance ha hk' (by decide) _)
    next => exact (ih.operand ha (by omega)).andThen fun e d hd _ => takes_here hd _
  next => exact takes_mismatch _ _

theorem formulas_take (fuel : Nat) : FormulasTake fuel := by
  induction fuel with
  | zero => constructor <;> (intros; omega)
  | succ fuel ih =>
    refine ⟨?_, fun left => parseSumTail_takes ih left, ?_,
      fun left => parseProductTail_takes ih left, parseOperand_takes ih⟩
    · intro c hc h
      unfold parseSum
      exact (ih.product hc (by omega)).bind fun left d hd hle => ih.sumTail left hd (by omega)
    · intro c hc h
      unfold parseProduct
      exact (ih.operand hc (by omega)).bind fun left d hd hle => ih.productTail left hd (by omega)

end Formulas

/-! ## Sources -/

theorem Takes.ne_stalled {α : Type} {n : Nat} {c : Tokens} {r : Except ParseError (α × Tokens)}
    (h : Takes n c r) : r ≠ .error .stalled := by
  rintro rfl
  exact h rfl

theorem ofList_ended {tokens : List Token} (h : Grammar.EndsOnce tokens) :
    (Tokens.ofList tokens).last.kind = .eof := by
  obtain ⟨body, last, rfl, hlast, -⟩ := h
  simp [Tokens.ofList, hlast]

theorem parseTokens_ne_stalled (file : String) {tokens : List Token}
    (h : Grammar.EndsOnce tokens) : parseTokens file tokens ≠ .error .stalled := by
  intro hstalled
  have hfuel : 2 * (Tokens.ofList tokens).rest.length + 1 < parseFuel tokens.length := by
    simp only [Tokens.ofList, parseFuel]
    omega
  rcases bind_eq_error.mp hstalled with herr | ⟨p, -, hok⟩
  · exact (parseDecls_takes file (ofList_ended h) hfuel).ne_stalled herr
  · cases hok

theorem formulaOfTokens_ne_stalled {tokens : List Token} (h : Grammar.EndsOnce tokens) :
    formulaOfTokens tokens ≠ .error .stalled := by
  have hfuel : 3 * (Tokens.ofList tokens).rest.length + 2 < formulaFuel tokens.length := by
    simp only [Tokens.ofList, formulaFuel]
    omega
  unfold formulaOfTokens
  dsimp only
  split
  next => simp
  next =>
    intro hstalled
    rcases bind_eq_error.mp hstalled with herr | ⟨⟨e, d⟩, -, hok⟩
    · exact ((formulas_take _).sum (ofList_ended h) hfuel).ne_stalled herr
    · split at hok <;> cases hok

/-- Every source text is read to its end, or to an error in it. -/
theorem parseSource_ne_stalled (path file : String) (source : List Text.Rune) :
    parseSource path source ≠ .error ⟨file, .structural .stalled⟩ := by
  unfold parseSource
  split
  next => simp
  next tokens hl =>
    split
    next e he =>
      rintro ⟨⟩
      exact parseTokens_ne_stalled path (lexFrom_spelled hl).1 he
    next => simp

theorem parseFormula_ne_stalled (file : String) (source : List Text.Rune) :
    parseFormula source ≠ .error ⟨file, .structural .stalled⟩ := by
  unfold parseFormula
  split
  next => simp
  next tokens hl =>
    split
    next e he =>
      rintro ⟨⟩
      exact formulaOfTokens_ne_stalled (lexFrom_spelled hl).1 he
    next => simp

end Scaffold.Source
