import Mathlib.Tactic.Common
import Scaffold.Proofs.Outcome
import Scaffold.Proofs.Source.Unambiguous

/-! # Every derivation is accepted

The parser follows a derivation token by token: given the tokens of a derivation it builds what the
derivation stands for and leaves what comes after. Two units of fuel for each token are enough. -/
namespace Scaffold.Source.Grammar

/-! ## Single tokens -/

section Tokens

variable {t u : Token} {ts : List Token} {last : Token}

@[simp] theorem peek_cons : (Tokens.mk (t :: ts) last).peek = t := rfl

@[simp] theorem kind_cons : (Tokens.mk (t :: ts) last).kind = t.kind := rfl

@[simp] theorem advance_cons : (Tokens.mk (t :: ts) last).advance = ⟨ts, last⟩ := rfl

@[simp] theorem peekAt_one : (Tokens.mk (t :: u :: ts) last).peekAt 1 = u := rfl

@[simp] theorem peekAt_two {v : Token} : (Tokens.mk (t :: u :: v :: ts) last).peekAt 2 = v := rfl

theorem expect_cons {k : TokenKind} (ht : t.kind = k) :
    expect k ⟨t :: ts, last⟩ = .ok (t, ⟨ts, last⟩) := by
  simp [expect, ht]

theorem expectName_cons {what : Expected} (ht : t.isName = true) :
    expectName what ⟨t :: ts, last⟩ = .ok (t, ⟨ts, last⟩) := by
  simp [expectName, ht]

end Tokens

/-! ## Values -/

theorem pathTail_accepts (more : List (Terminal .dot × Name)) (fuel : Nat) {rest : List Token}
    (last : Token) (hf : more.length < fuel) (hr : EndsValue rest) :
    pathTail fuel ⟨pathTokens more ++ rest, last⟩ =
      .ok (more.map (·.2.1.lexeme), ⟨rest, last⟩) := by
  induction more generalizing fuel with
  | nil =>
    obtain ⟨fuel, rfl⟩ := Nat.exists_eq_add_one.mpr (Nat.zero_lt_of_lt hf)
    obtain ⟨t, ts, rfl, ht, -⟩ := hr
    simp [pathTail, pathTokens, ht]
  | cons p ps ih =>
    obtain ⟨fuel, rfl⟩ := Nat.exists_eq_add_one.mpr (Nat.zero_lt_of_lt hf)
    have hps := ih fuel (by simpa using hf)
    simp [pathTail, pathTokens, p.1.2, expectName_cons p.2.2, ok_bind, hps]

/-- A value does not begin with the token that closes the list it stands in. -/
theorem kind_ne_closing (d : ValueTree) {k : TokenKind} (hk : k = .rbracket ∨ k = .rparen)
    {rest : List Token} (last : Token) (hr : EndsValue rest) :
    (Tokens.mk (d.tokens ++ rest) last).kind ≠ k := by
  have hform := formOf_tokens d hr
  cases hts : d.tokens ++ rest with
  | nil =>
    rw [hts] at hform
    cases hform
  | cons t ts =>
    intro ht
    have hk' : k = .rbracket ∨ k = .rparen ∨ k = .comma := by
      rcases hk with h | h <;> simp [h]
    exact not_tokens_cons (formOf_closing hk' ⟨t, ht⟩ ts) hr hts

/-- With this much fuel every derivation of less than half as many tokens is followed. -/
structure ValuesAccepted (fuel : Nat) : Prop where
  value : ∀ (d : ValueTree) {rest : List Token} (last : Token), 2 * d.tokens.length < fuel →
    EndsValue rest → parseValue fuel ⟨d.tokens ++ rest, last⟩ = .ok (d.value, ⟨rest, last⟩)
  items : ∀ (i : ItemsTree) {k : TokenKind} (_ : k = .rbracket ∨ k = .rparen)
    (closing : Terminal k) (sep : Expected) (rest : List Token) (last : Token),
    2 * i.tokens.length + 2 < fuel →
      parseItems fuel k sep ⟨i.tokens ++ closing.1 :: rest, last⟩ = .ok (i.values, ⟨rest, last⟩)
  props : ∀ (b : Body PropTree) (closing : Terminal .rbrace) (rest : List Token) (last : Token),
    2 * (b.tokens PropTree.tokens).length + 2 < fuel →
      parseProps fuel ⟨b.tokens PropTree.tokens ++ closing.1 :: rest, last⟩ =
        .ok (b.items.map PropTree.prop, ⟨rest, last⟩)
  prop : ∀ (p : PropTree) {rest : List Token} (last : Token), 2 * p.tokens.length < fuel →
    EndsValue rest → parseProp fuel ⟨p.tokens ++ rest, last⟩ = .ok (p.prop, ⟨rest, last⟩)

theorem parseValue_accepts {fuel : Nat} (ih : ValuesAccepted fuel) (d : ValueTree)
    {rest : List Token} (last : Token) (hf : 2 * d.tokens.length < fuel + 1)
    (hr : EndsValue rest) :
    parseValue (fuel + 1) ⟨d.tokens ++ rest, last⟩ = .ok (d.value, ⟨rest, last⟩) := by
  cases d with
  | string t => simp [parseValue, ValueTree.tokens, ValueTree.value, t.2]
  | number t => simp [parseValue, ValueTree.tokens, ValueTree.value, t.2]
  | negative sign t =>
    simp [parseValue, ValueTree.tokens, ValueTree.value, sign.2, expect_cons t.2, ok_bind]
  | boolean t =>
    simp only [parseValue, ValueTree.tokens, ValueTree.value, List.cons_append, List.nil_append,
      peek_cons, advance_cons, t.2]
    congr
  | path head more =>
    simp only [ValueTree.tokens, List.length_cons] at hf
    have hlen : more.length ≤ (pathTokens more).length := by
      induction more with
      | nil => exact Nat.le_refl 0
      | cons p ps ihp =>
        simp only [pathTokens, List.length_cons] at hf ⊢
        have := ihp (by omega)
        omega
    have htail := pathTail_accepts more fuel last (by omega) hr
    have hnext : ((Tokens.mk (head.1 :: (pathTokens more ++ rest)) last).peekAt 1).kind ≠
        .lparen := by
      cases more with
      | nil =>
        obtain ⟨t, ts, rfl, -, ht⟩ := hr
        exact ht
      | cons p ps => simp [pathTokens, p.1.2]
    rcases isName_iff.mp head.2 with hk | hk <;>
      simp [parseValue, ValueTree.tokens, ValueTree.value, hk, hnext, htail, ok_bind]
  | array opening items closing =>
    simp only [ValueTree.tokens, List.length_cons, List.length_append] at hf
    have hi := ih.items items (.inl rfl) closing .commaOrBracket rest last (by omega)
    simp [parseValue, ValueTree.tokens, ValueTree.value, opening.2, hi, ok_bind]
  | object block =>
    obtain ⟨opening, body, closing⟩ := block
    simp only [ValueTree.tokens, propsTokens_eq, List.length_cons, List.length_append] at hf
    have hb := ih.props body closing rest last (by omega)
    simp [parseValue, ValueTree.tokens, ValueTree.value, propsTokens_eq, propsOf_eq, opening.2,
      hb, ok_bind]
  | env word opening var closing =>
    rcases isName_iff.mp word.1.2 with hk | hk <;>
      simp [parseValue, ValueTree.tokens, ValueTree.value, hk, opening.2, word.2,
        expectName_cons var.2, expect_cons closing.2, ok_bind]
  | call name opening args closing =>
    simp only [ValueTree.tokens, List.length_cons, List.length_append] at hf
    have hi := ih.items args (.inr rfl) closing .commaOrParen rest last (by omega)
    rcases isName_iff.mp name.1.2 with hk | hk <;>
      simp [parseValue, ValueTree.tokens, ValueTree.value, hk, opening.2, name.2, hi, ok_bind]

theorem parseItems_accepts {fuel : Nat} (ih : ValuesAccepted fuel) (i : ItemsTree)
    {k : TokenKind} (hk : k = .rbracket ∨ k = .rparen) (closing : Terminal k) (sep : Expected)
    (rest : List Token) (last : Token) (hf : 2 * i.tokens.length + 2 < fuel + 1) :
    parseItems (fuel + 1) k sep ⟨i.tokens ++ closing.1 :: rest, last⟩ =
      .ok (i.values, ⟨rest, last⟩) := by
  cases i with
  | nil => simp [parseItems, ItemsTree.tokens, ItemsTree.values, closing.2]
  | last v =>
    have hends : EndsValue (closing.1 :: rest) :=
      endsValue_closing (by rcases hk with h | h <;> simp [h]) closing rest
    simp only [ItemsTree.tokens] at hf
    have hv := ih.value v last (by omega) hends
    have hcomma : k ≠ .comma := by rcases hk with rfl | rfl <;> simp
    simp [parseItems, ItemsTree.tokens, ItemsTree.values, kind_ne_closing v hk last hends, hv,
      ok_bind, closing.2, hcomma]
  | more v comma i =>
    have hends : EndsValue (comma.1 :: (i.tokens ++ closing.1 :: rest)) :=
      endsValue_closing (.inr (.inr rfl)) comma _
    simp only [ItemsTree.tokens, List.length_append, List.length_cons] at hf
    have hv := ih.value v last (by omega) hends
    have hi := ih.items i hk closing sep rest last (by omega)
    simp [parseItems, ItemsTree.tokens, ItemsTree.values, kind_ne_closing v hk last hends, hv,
      ok_bind, comma.2, hi]

theorem parseProp_accepts {fuel : Nat} (ih : ValuesAccepted fuel) (p : PropTree)
    {rest : List Token} (last : Token) (hf : 2 * p.tokens.length < fuel + 1)
    (hr : EndsValue rest) :
    parseProp (fuel + 1) ⟨p.tokens ++ rest, last⟩ = .ok (p.prop, ⟨rest, last⟩) := by
  obtain ⟨key, colon, value⟩ := p
  simp only [PropTree.tokens, List.length_cons] at hf
  have hv := ih.value value last (by omega) hr
  simp only [parseProp, PropTree.tokens, List.cons_append, expectName_cons key.2,
    expect_cons colon.2, hv, ok_bind, PropTree.prop]

/-- At the tokens of an item a body goes on with the item. -/
theorem kind_of_starts {ts : List Token} (last : Token) (h : Starts (·.isName = true) ts) :
    (Tokens.mk ts last).kind = .ident ∨ (Tokens.mk ts last).kind = .keyword := by
  obtain ⟨t, rest, rfl, ht⟩ := h
  exact isName_iff.mp ht

theorem parseProps_accepts {fuel : Nat} (ih : ValuesAccepted fuel) (b : Body PropTree)
    (closing : Terminal .rbrace) (rest : List Token) (last : Token)
    (hf : 2 * (b.tokens PropTree.tokens).length + 2 < fuel + 1) :
    parseProps (fuel + 1) ⟨b.tokens PropTree.tokens ++ closing.1 :: rest, last⟩ =
      .ok (b.items.map PropTree.prop, ⟨rest, last⟩) := by
  cases b with
  | nil => simp [parseProps, Body.tokens, Body.items, closing.2]
  | comma t b =>
    simp only [Body.tokens, List.length_cons] at hf
    have hb := ih.props b closing rest last (by omega)
    simp [parseProps, Body.tokens, Body.items, t.2, hb]
  | item p b =>
    simp only [Body.tokens, List.length_append] at hf
    have hlen : 0 < p.tokens.length := by
      obtain ⟨t, ts, hts, -⟩ := prop_starts p
      simp [hts]
    have hends := (endsItem_body prop_starts b closing rest).endsValue
    have hp := ih.prop p last (by omega) hends
    have hb := ih.props b closing rest last (by omega)
    have hstart := (prop_starts p).append (b.tokens PropTree.tokens ++ closing.1 :: rest)
    rcases kind_of_starts last hstart with hk | hk <;>
      simp [parseProps, Body.tokens, Body.items, hk, hp, hb, ok_bind]

theorem values_accepted (fuel : Nat) : ValuesAccepted fuel := by
  induction fuel with
  | zero => constructor <;> intros <;> omega
  | succ fuel ih =>
    exact ⟨parseValue_accepts ih, parseItems_accepts ih, parseProps_accepts ih,
      parseProp_accepts ih⟩

theorem parseBody_accepts (b : Braced PropTree) (fuel : Nat) (rest : List Token) (last : Token)
    (hf : 2 * (b.tokens PropTree.tokens).length < fuel) :
    parseBody fuel ⟨b.tokens PropTree.tokens ++ rest, last⟩ =
      .ok (b.items.map PropTree.prop, ⟨rest, last⟩) := by
  obtain ⟨opening, body, closing⟩ := b
  simp only [Braced.tokens, List.length_cons, List.length_append] at hf
  have hb := (values_accepted fuel).props body closing rest last (by omega)
  simp [parseBody, Braced.tokens, Braced.items, expect_cons opening.2, hb, ok_bind]

/-! ## Fields -/

theorem attributeArgs_accepts (first : PropTree) (others : List (Terminal .comma × PropTree))
    (closing : Terminal .rparen) (fuel : Nat) (rest : List Token) (last : Token)
    (hf : 2 * (first.tokens.length + (ArgsTree.otherTokens others).length) + 2 < fuel) :
    attributeArgs fuel
        ⟨first.tokens ++ (ArgsTree.otherTokens others ++ closing.1 :: rest), last⟩ =
      .ok (first.prop :: others.map (·.2.prop), ⟨rest, last⟩) := by
  induction others generalizing first fuel with
  | nil =>
    obtain ⟨fuel, rfl⟩ := Nat.exists_eq_add_one.mpr (Nat.zero_lt_of_lt hf)
    have hp := (values_accepted fuel).prop first last (by omega)
      (endsValue_args [] closing rest)
    simp only [ArgsTree.otherTokens, List.nil_append] at hp ⊢
    simp [attributeArgs, hp, ok_bind, closing.2]
  | cons p ps ih =>
    obtain ⟨fuel, rfl⟩ := Nat.exists_eq_add_one.mpr (Nat.zero_lt_of_lt hf)
    have hp := (values_accepted fuel).prop first last (by omega)
      (endsValue_args (p :: ps) closing rest)
    simp only [ArgsTree.otherTokens, List.length_cons, List.length_append] at hf
    have hps := ih p.2 fuel (by omega)
    simp only [ArgsTree.otherTokens, List.cons_append, List.append_assoc] at hp ⊢
    simp [attributeArgs, hp, ok_bind, p.1.2, hps]

theorem parseAttribute_accepts (opening : Terminal .attr) (args : Option ArgsTree)
    (closing : Terminal .rparen) (fuel : Nat) (rest : List Token) (last : Token)
    (hf : 2 * ((args.map ArgsTree.tokens).getD []).length + 2 < fuel) :
    parseAttribute fuel
        ⟨opening.1 :: ((args.map ArgsTree.tokens).getD [] ++ closing.1 :: rest), last⟩ =
      .ok (⟨opening.1.lexeme, opening.1.pos, (args.map ArgsTree.props).getD []⟩,
        ⟨rest, last⟩) := by
  cases args with
  | none => simp [parseAttribute, closing.2]
  | some a =>
    obtain ⟨first, others⟩ := a
    simp only [Option.map_some, Option.getD_some, ArgsTree.tokens, List.length_append] at hf
    have hargs := attributeArgs_accepts first others closing fuel rest last hf
    have hstart := (prop_starts first).append
      (ArgsTree.otherTokens others ++ closing.1 :: rest)
    rcases kind_of_starts last hstart with hk | hk <;>
      simp [parseAttribute, ArgsTree.tokens, ArgsTree.props, hk, hargs, ok_bind]

theorem parseModifier_accepts (m : ModifierTree) (fuel : Nat) {rest : List Token} (last : Token)
    (hf : 2 * m.tokens.length ≤ fuel) (hr : Starts (·.kind ≠ .colon) rest) :
    parseModifier fuel ⟨m.tokens ++ rest, last⟩ = .ok (some m.modifier, ⟨rest, last⟩) := by
  obtain ⟨u, us, rfl, hu⟩ := hr
  cases m with
  | primaryKey t =>
    simp [parseModifier, ModifierTree.tokens, ModifierTree.modifier, t.2, hu, plainModifier]
  | unique t =>
    simp [parseModifier, ModifierTree.tokens, ModifierTree.modifier, t.2, hu, plainModifier]
  | optional t =>
    simp [parseModifier, ModifierTree.tokens, ModifierTree.modifier, t.2, hu, plainModifier]
  | default word opening value closing =>
    simp only [ModifierTree.tokens, List.length_cons, List.length_append] at hf
    have hv := (values_accepted fuel).value value last (by omega)
      (endsValue_closing (.inr (.inl rfl)) closing (u :: us))
    simp [parseModifier, ModifierTree.tokens, ModifierTree.modifier, word.2, opening.2,
      plainModifier, hv, expect_cons closing.2, ok_bind]
  | attr opening args closing =>
    simp only [ModifierTree.tokens, List.length_cons, List.length_append] at hf
    have ha := parseAttribute_accepts opening args closing fuel (u :: us) last (by omega)
    simp [parseModifier, ModifierTree.tokens, ModifierTree.modifier, opening.2, ha, ok_bind]

theorem parseModifier_ends (fuel : Nat) {rest : List Token} (last : Token)
    (hr : EndsField rest) : parseModifier fuel ⟨rest, last⟩ = .ok (none, ⟨rest, last⟩) := by
  rcases hr with ⟨t, ts, rfl, ht⟩ | ⟨t, u, ts, rfl, ht, hu⟩
  · rcases ht with ht | ht <;> simp [parseModifier, ht]
  · rcases isName_iff.mp ht with hk | hk <;> simp [parseModifier, hk, hu, ht]

theorem parseModifiers_accepts (ms : List ModifierTree) (fuel : Nat) {rest : List Token}
    (last : Token) (hf : 2 * (ms.flatMap ModifierTree.tokens).length < fuel)
    (hr : EndsField rest) :
    parseModifiers fuel ⟨ms.flatMap ModifierTree.tokens ++ rest, last⟩ =
      .ok (ms.map ModifierTree.modifier, ⟨rest, last⟩) := by
  induction ms generalizing fuel with
  | nil =>
    obtain ⟨fuel, rfl⟩ := Nat.exists_eq_add_one.mpr (Nat.zero_lt_of_lt hf)
    simp [parseModifiers, parseModifier_ends fuel last hr, ok_bind]
  | cons m ms ih =>
    obtain ⟨fuel, rfl⟩ := Nat.exists_eq_add_one.mpr (Nat.zero_lt_of_lt hf)
    have hlen : 0 < m.tokens.length := by cases m <;> simp [ModifierTree.tokens]
    simp only [List.flatMap_cons, List.length_append] at hf
    have hnext := (modifiers_starts ms hr).imp fun _ ht => ht.1
    have hms := ih fuel (by omega)
    have hm := parseModifier_accepts m fuel last (by omega) hnext
    simp [parseModifiers, hm, hms, ok_bind]

theorem parseTypeRef_accepts (t : TypeTree) {rest : List Token} (last : Token)
    (hr : Starts (·.kind ≠ .lbracket) rest) :
    parseTypeRef ⟨t.tokens ++ rest, last⟩ = .ok (t.ref, ⟨rest, last⟩) := by
  obtain ⟨u, us, rfl, hu⟩ := hr
  obtain ⟨name, brackets⟩ := t
  cases brackets with
  | none =>
    simp [parseTypeRef, TypeTree.tokens, TypeTree.ref, expectName_cons name.2, ok_bind, hu]
  | some b =>
    simp [parseTypeRef, TypeTree.tokens, TypeTree.ref, expectName_cons name.2, ok_bind, b.1.2,
      expect_cons b.2.2]

theorem parseField_accepts (f : FieldTree) (fuel : Nat) {rest : List Token} (last : Token)
    (hf : 2 * f.tokens.length < fuel) (hr : EndsField rest) :
    parseField fuel ⟨f.tokens ++ rest, last⟩ = .ok (f.decl, ⟨rest, last⟩) := by
  obtain ⟨name, colon, type, modifiers⟩ := f
  simp only [FieldTree.tokens, List.length_cons, List.length_append] at hf
  have ht := parseTypeRef_accepts type last
    ((modifiers_starts modifiers hr).imp fun _ ht => ht.2)
  have hm := parseModifiers_accepts modifiers fuel last (by omega) hr
  simp [parseField, FieldTree.tokens, FieldTree.decl, expectName_cons name.2,
    expect_cons colon.2, ht, hm, ok_bind]

/-! ## Blocks

Each loop takes a unit of fuel for every comma and every item. -/

theorem parseFields_accepts (b : Body FieldTree) (closing : Terminal .rbrace) (fuel : Nat)
    (rest : List Token) (last : Token)
    (hf : 2 * (b.tokens FieldTree.tokens).length + 2 < fuel) :
    parseFields fuel ⟨b.tokens FieldTree.tokens ++ closing.1 :: rest, last⟩ =
      .ok (b.items.map FieldTree.decl, ⟨rest, last⟩) := by
  induction b generalizing fuel with
  | nil =>
    obtain ⟨fuel, rfl⟩ := Nat.exists_eq_add_one.mpr (Nat.zero_lt_of_lt hf)
    simp [parseFields, Body.tokens, Body.items, closing.2]
  | comma t b ih =>
    obtain ⟨fuel, rfl⟩ := Nat.exists_eq_add_one.mpr (Nat.zero_lt_of_lt hf)
    simp only [Body.tokens, List.length_cons] at hf
    have hb := ih fuel (by omega)
    simp [parseFields, Body.tokens, Body.items, t.2, hb]
  | item f b ih =>
    obtain ⟨fuel, rfl⟩ := Nat.exists_eq_add_one.mpr (Nat.zero_lt_of_lt hf)
    simp only [Body.tokens, List.length_append] at hf
    have hlen : 0 < f.tokens.length := by simp [FieldTree.tokens]
    have hfield := parseField_accepts f fuel last (by omega) (endsField_body b closing rest)
    have hb := ih fuel (by omega)
    have hstart := (field_starts f).append (b.tokens FieldTree.tokens ++ closing.1 :: rest)
    rcases kind_of_starts last hstart with hk | hk <;>
      simp [parseFields, Body.tokens, Body.items, hk, hfield, hb, ok_bind]

theorem parseEnumValues_accepts (b : Body Name) (closing : Terminal .rbrace) (fuel : Nat)
    (rest : List Token) (last : Token)
    (hf : 2 * (b.tokens fun t => [t.1]).length + 2 < fuel) :
    parseEnumValues fuel ⟨(b.tokens fun t => [t.1]) ++ closing.1 :: rest, last⟩ =
      .ok (b.items.map fun t => ⟨t.1.lexeme, t.1.pos⟩, ⟨rest, last⟩) := by
  induction b generalizing fuel with
  | nil =>
    obtain ⟨fuel, rfl⟩ := Nat.exists_eq_add_one.mpr (Nat.zero_lt_of_lt hf)
    simp [parseEnumValues, Body.tokens, Body.items, closing.2]
  | comma t b ih =>
    obtain ⟨fuel, rfl⟩ := Nat.exists_eq_add_one.mpr (Nat.zero_lt_of_lt hf)
    simp only [Body.tokens, List.length_cons] at hf
    have hb := ih fuel (by omega)
    simp [parseEnumValues, Body.tokens, Body.items, t.2, hb]
  | item t b ih =>
    obtain ⟨fuel, rfl⟩ := Nat.exists_eq_add_one.mpr (Nat.zero_lt_of_lt hf)
    simp only [Body.tokens, List.length_append, List.length_singleton] at hf
    have hb := ih fuel (by omega)
    rcases isName_iff.mp t.2 with hk | hk <;>
      simp [parseEnumValues, Body.tokens, Body.items, hk, hb, ok_bind]

theorem parseWorkflowItems_accepts (b : Body WorkflowItem) (closing : Terminal .rbrace)
    (fuel : Nat) (rest : List Token) (last : Token)
    (hf : 2 * (b.tokens WorkflowItem.tokens).length + 2 < fuel) :
    parseWorkflowItems fuel ⟨b.tokens WorkflowItem.tokens ++ closing.1 :: rest, last⟩ =
      .ok ((b.items.filterMap WorkflowItem.prop?, b.items.filterMap WorkflowItem.step?),
        ⟨rest, last⟩) := by
  induction b generalizing fuel with
  | nil =>
    obtain ⟨fuel, rfl⟩ := Nat.exists_eq_add_one.mpr (Nat.zero_lt_of_lt hf)
    simp [parseWorkflowItems, Body.tokens, Body.items, closing.2]
  | comma t b ih =>
    obtain ⟨fuel, rfl⟩ := Nat.exists_eq_add_one.mpr (Nat.zero_lt_of_lt hf)
    simp only [Body.tokens, List.length_cons] at hf
    have hb := ih fuel (by omega)
    simp [parseWorkflowItems, Body.tokens, Body.items, t.2, hb]
  | item i b ih =>
    obtain ⟨fuel, rfl⟩ := Nat.exists_eq_add_one.mpr (Nat.zero_lt_of_lt hf)
    simp only [Body.tokens, List.length_append] at hf
    cases i with
    | prop p =>
      simp only [WorkflowItem.tokens] at hf
      have hends := (endsItem_body item_starts b closing rest).endsValue
      have hlen : 0 < p.tokens.length := by
        obtain ⟨t, ts, hts, -⟩ := prop_starts p
        simp [hts]
      have hp := (values_accepted fuel).prop p last (by omega) hends
      have hb := ih fuel (by omega)
      obtain ⟨key, colon, value⟩ := p
      -- the colon shows that this is no step
      have hcolon : colon.1.isName = false := by simp [Token.isName, colon.2]
      simp only [PropTree.tokens, List.cons_append] at hp
      rcases isName_iff.mp key.2 with hk | hk <;>
        simp [parseWorkflowItems, Body.tokens, Body.items, WorkflowItem.tokens, PropTree.tokens,
          List.filterMap_cons, WorkflowItem.prop?, WorkflowItem.step?, hk, hcolon, hp, hb, ok_bind]
    | step s =>
      obtain ⟨word, action, inputs⟩ := s
      simp only [WorkflowItem.tokens, StepTree.tokens, List.length_cons] at hf
      have hbody := parseBody_accepts inputs fuel
        (b.tokens WorkflowItem.tokens ++ closing.1 :: rest) last (by omega)
      have hb := ih fuel (by omega)
      have hbrace : ((Tokens.mk (word.1 :: action.1 :: (inputs.tokens PropTree.tokens ++
          (b.tokens WorkflowItem.tokens ++ closing.1 :: rest))) last).peekAt 2).kind = .lbrace := by
        simp [Braced.tokens, inputs.opening.2]
      simp [parseWorkflowItems, Body.tokens, Body.items, WorkflowItem.tokens, StepTree.tokens,
        List.filterMap_cons, WorkflowItem.prop?, WorkflowItem.step?, StepTree.decl, word.2,
        action.2, hbrace, hbody, hb, ok_bind]

theorem parseNamedBlock_accepts (keyword : Token) (name : Name) (block : Braced PropTree)
    (fuel : Nat) (file : String) (what : Expected) (rest : List Token) (last : Token)
    (hf : 2 * (block.tokens PropTree.tokens).length < fuel) :
    parseNamedBlock fuel file what
        ⟨keyword :: name.1 :: (block.tokens PropTree.tokens ++ rest), last⟩ =
      .ok (⟨⟨name.1.lexeme, keyword.pos, file⟩, block.items.map PropTree.prop⟩,
        ⟨rest, last⟩) := by
  have hb := parseBody_accepts block fuel rest last hf
  simp [parseNamedBlock, expectName_cons name.2, hb, ok_bind]

theorem parseDecl_accepts (d : DeclTree) (fuel : Nat) (file : String) (rest : List Token)
    (last : Token) (hf : 2 * d.tokens.length < fuel) :
    parseDecl fuel file ⟨d.tokens ++ rest, last⟩ = .ok (d.decl file, ⟨rest, last⟩) := by
  cases d with
  | entity keyword name block =>
    obtain ⟨opening, body, closing⟩ := block
    simp only [DeclTree.tokens, Braced.tokens, List.length_cons, List.length_append] at hf
    have hb := parseFields_accepts body closing fuel rest last (by omega)
    simp [parseDecl, DeclTree.tokens, DeclTree.decl, Braced.tokens, Braced.items, keyword.2,
      expectName_cons name.2, expect_cons opening.2, hb, ok_bind]
  | enum keyword name block =>
    obtain ⟨opening, body, closing⟩ := block
    simp only [DeclTree.tokens, Braced.tokens, List.length_cons, List.length_append] at hf
    have hb := parseEnumValues_accepts body closing fuel rest last (by omega)
    simp [parseDecl, DeclTree.tokens, DeclTree.decl, Braced.tokens, Braced.items, keyword.2,
      expectName_cons name.2, expect_cons opening.2, hb, ok_bind]
  | page keyword name block =>
    simp only [DeclTree.tokens, List.length_cons] at hf
    have hb := parseNamedBlock_accepts keyword.1 name block fuel file .pageName rest last
      (by omega)
    simp [parseDecl, DeclTree.tokens, DeclTree.decl, keyword.2, hb, ok_bind]
  | view keyword name block =>
    simp only [DeclTree.tokens, List.length_cons] at hf
    have hb := parseNamedBlock_accepts keyword.1 name block fuel file .viewName rest last
      (by omega)
    simp [parseDecl, DeclTree.tokens, DeclTree.decl, keyword.2, hb, ok_bind]
  | workflow keyword name block =>
    obtain ⟨opening, body, closing⟩ := block
    simp only [DeclTree.tokens, Braced.tokens, List.length_cons, List.length_append] at hf
    have hb := parseWorkflowItems_accepts body closing fuel rest last (by omega)
    simp [parseDecl, DeclTree.tokens, DeclTree.decl, Braced.tokens, Braced.items, keyword.2,
      expectName_cons name.2, expect_cons opening.2, hb, ok_bind]
  | config keyword name block =>
    simp only [DeclTree.tokens, List.length_cons, List.length_append] at hf
    have hb := parseBody_accepts block fuel rest last (by omega)
    cases name with
    | none =>
      -- the opening brace is no name, so the block has none
      have hbrace : (Tokens.mk (block.tokens PropTree.tokens ++ rest) last).peek.isName =
          false := by
        simp [Braced.tokens, Token.isName, block.opening.2]
      simp [parseDecl, DeclTree.tokens, DeclTree.decl, keyword.2, hbrace, hb, ok_bind]
    | some name =>
      simp [parseDecl, DeclTree.tokens, DeclTree.decl, keyword.2, name.2, hb, ok_bind]

theorem kind_keyword (d : DeclTree) (rest : List Token) (last : Token) :
    (Tokens.mk (d.tokens ++ rest) last).kind = .keyword := by
  obtain ⟨t, ts, hts, ht⟩ := decl_starts d
  simp [hts, ht]

theorem parseDecls_accepts (ds : List DeclTree) (eof : Terminal .eof) (fuel : Nat)
    (file : String) (last : Token)
    (hf : 2 * (ds.flatMap DeclTree.tokens).length + 1 < fuel) :
    parseDecls fuel file ⟨ds.flatMap DeclTree.tokens ++ [eof.1], last⟩ =
      .ok (ds.map (DeclTree.decl file), ⟨[eof.1], last⟩) := by
  induction ds generalizing fuel with
  | nil =>
    obtain ⟨fuel, rfl⟩ := Nat.exists_eq_add_one.mpr (Nat.zero_lt_of_lt hf)
    simp [parseDecls, eof.2]
  | cons d ds ih =>
    obtain ⟨fuel, rfl⟩ := Nat.exists_eq_add_one.mpr (Nat.zero_lt_of_lt hf)
    simp only [List.flatMap_cons, List.length_append] at hf
    have hlen : 0 < d.tokens.length := by
      obtain ⟨t, ts, hts, -⟩ := decl_starts d
      simp [hts]
    have hd := parseDecl_accepts d fuel file (ds.flatMap DeclTree.tokens ++ [eof.1]) last
      (by omega)
    have hds := ih fuel (by omega)
    have hk := kind_keyword d (ds.flatMap DeclTree.tokens ++ [eof.1]) last
    simp [parseDecls, hk, hd, hds, ok_bind]

/-- The parser builds what a derivation of its tokens stands for. -/
theorem parseTokens_of_derivation (file : String) (d : FileTree) :
    parseTokens file d.tokens = .ok (d.file file) := by
  have hfuel : 2 * (d.decls.flatMap DeclTree.tokens).length + 1 < parseFuel d.tokens.length := by
    simp only [parseFuel, FileTree.tokens, List.length_append, List.length_singleton]
    omega
  have hds := parseDecls_accepts d.decls d.eof (parseFuel d.tokens.length) file
    (d.tokens.getLastD Token.none) hfuel
  rw [← FileTree.tokens] at hds
  simp only [parseTokens, Tokens.ofList, FileTree.file, hds, ok_bind]

end Scaffold.Source.Grammar
