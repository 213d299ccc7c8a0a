import Scaffold.Proofs.Source.Accepted
import Scaffold.Proofs.Source.Names

/-! # Everything accepted has a derivation

What a piece of the parser takes from the tokens is a derivation of what it returns. Past the last
token the parser sees the end of input again and again, so a token of any other kind is one that is
still there. -/
namespace Scaffold.Source.Grammar

/-! ## Tokens taken -/

/-- From `c` to `d` the parser has taken the tokens `ts`, none of which ends the input. -/
structure Took (c : Tokens) (ts : List Token) (d : Tokens) : Prop where
  rest : c.rest = ts ++ d.rest
  ended : d.last.kind = .eof
  inner : ∀ t ∈ ts, t.kind ≠ .eof

section Took

variable {c d e : Tokens} {ts us : List Token}

theorem Took.none (hc : c.last.kind = .eof) : Took c [] c := ⟨rfl, hc, by simp⟩

theorem Took.trans (h : Took c ts d) (h' : Took d us e) : Took c (ts ++ us) e where
  rest := by rw [h.rest, h'.rest, List.append_assoc]
  ended := h'.ended
  inner := by
    intro t ht
    rcases List.mem_append.mp ht with ht | ht
    · exact h.inner t ht
    · exact h'.inner t ht

theorem took_advance {k : TokenKind} (hc : c.last.kind = .eof) (hk : c.kind = k)
    (hne : k ≠ .eof) : Took c [c.peek] c.advance := by
  subst hk
  obtain ⟨rest, last⟩ := c
  cases rest with
  | nil => exact absurd hc hne
  | cons t rest => exact ⟨rfl, hc, by simpa using hne⟩

theorem took_name (hc : c.last.kind = .eof) (hn : c.peek.isName = true) :
    Took c [c.peek] c.advance := by
  rcases isName_iff.mp hn with hk | hk
  · exact took_advance hc hk (by decide)
  · exact took_advance hc hk (by decide)

theorem peekAt_one_eq (c : Tokens) : c.peekAt 1 = c.advance.peek := by
  obtain ⟨rest, last⟩ := c
  match rest with
  | [] | [_] | _ :: _ :: _ => rfl

theorem expect_took {k : TokenKind} {t : Token} (hc : c.last.kind = .eof)
    (h : expect k c = .ok (t, d)) (hne : k ≠ .eof) : t.kind = k ∧ Took c [t] d := by
  obtain ⟨rfl, rfl, hk⟩ := expect_ok h
  exact ⟨hk, took_advance hc hk hne⟩

theorem expectName_took {what : Expected} {t : Token} (hc : c.last.kind = .eof)
    (h : expectName what c = .ok (t, d)) : t.isName = true ∧ Took c [t] d := by
  obtain ⟨rfl, rfl, hn⟩ := expectName_ok h
  exact ⟨hn, took_name hc hn⟩

end Took

/-! ## Values -/

theorem pathTail_derived {fuel : Nat} {c d : Tokens} {segs : List String}
    (hc : c.last.kind = .eof) (h : pathTail fuel c = .ok (segs, d)) :
    ∃ more : List (Terminal .dot × Name),
      more.map (·.2.1.lexeme) = segs ∧ Took c (pathTokens more) d := by
  induction fuel generalizing c d segs with
  | zero => cases h
  | succ fuel ih =>
    unfold pathTail at h
    split at h
    next hk =>
      obtain ⟨⟨seg, c₁⟩, h₁, h⟩ := bind_eq_ok.mp h
      obtain ⟨⟨segs', c₂⟩, h₂, h⟩ := bind_eq_ok.mp h
      cases h
      have hdot := took_advance hc hk (by decide)
      obtain ⟨hseg, ht⟩ := expectName_took hdot.ended h₁
      obtain ⟨more, rfl, hmore⟩ := ih ht.ended h₂
      exact ⟨(⟨c.peek, hk⟩, ⟨seg, hseg⟩) :: more, rfl, (hdot.trans ht).trans hmore⟩
    · cases h
      exact ⟨[], rfl, .none hc⟩

/-- The four mutually recursive readers of values, at one amount of fuel. -/
structure ValuesDerived (fuel : Nat) : Prop where
  value : ∀ {c d : Tokens} {v : Value}, c.last.kind = .eof → parseValue fuel c = .ok (v, d) →
    ∃ tree : ValueTree, tree.value = v ∧ Took c tree.tokens d
  items : ∀ {k : TokenKind} {sep : Expected} {c d : Tokens} {vs : List Value}, k ≠ .eof →
    c.last.kind = .eof → parseItems fuel k sep c = .ok (vs, d) →
      ∃ (tree : ItemsTree) (closing : Terminal k),
        tree.values = vs ∧ Took c (tree.tokens ++ [closing.1]) d
  props : ∀ {c d : Tokens} {ps : List Property}, c.last.kind = .eof →
    parseProps fuel c = .ok (ps, d) → ∃ (body : Body PropTree) (closing : Terminal .rbrace),
      body.items.map PropTree.prop = ps ∧ Took c (body.tokens PropTree.tokens ++ [closing.1]) d
  prop : ∀ {c d : Tokens} {p : Property}, c.last.kind = .eof → parseProp fuel c = .ok (p, d) →
    ∃ tree : PropTree, tree.prop = p ∧ Took c tree.tokens d

/-- A value that begins with a name: an environment variable, a call or a path. -/
theorem parseNamed_derived {fuel : Nat} (ih : ValuesDerived fuel) {c d : Tokens} {v : Value}
    (hc : c.last.kind = .eof) (hn : c.peek.isName = true)
    (h : (if (c.peekAt 1).kind = .lparen then
        if c.peek.lexeme = "env" then do
          let (var, e) ← expectName .envVariable c.advance.advance
          let (_, e) ← expect .rparen e
          .ok (.env var.lexeme c.peek.pos, e)
        else do
          let (args, e) ← parseItems fuel .rparen .commaOrParen c.advance.advance
          .ok (.call c.peek.lexeme args c.peek.pos, e)
      else do
        let (segs, e) ← pathTail fuel c.advance
        .ok (.ident (c.peek.lexeme :: segs) c.peek.pos, e)) = Except.ok (v, d)) :
    ∃ tree : ValueTree, tree.value = v ∧ Took c tree.tokens d := by
  have hhead := took_name hc hn
  split at h
  next hparen =>
    rw [peekAt_one_eq] at hparen
    have hopen := took_advance hhead.ended hparen (by decide)
    split at h
    next henv =>
      obtain ⟨⟨var, c₁⟩, h₁, h⟩ := bind_eq_ok.mp h
      obtain ⟨⟨close, c₂⟩, h₂, h⟩ := bind_eq_ok.mp h
      cases h
      obtain ⟨hvar, ht₁⟩ := expectName_took hopen.ended h₁
      obtain ⟨hclose, ht₂⟩ := expect_took ht₁.ended h₂ (by decide)
      refine ⟨.env ⟨⟨c.peek, hn⟩, henv⟩ ⟨_, hparen⟩ ⟨var, hvar⟩ ⟨close, hclose⟩, ?_, ?_⟩
      · simp [ValueTree.value]
      · simpa [ValueTree.tokens] using ((hhead.trans hopen).trans ht₁).trans ht₂
    next henv =>
      obtain ⟨⟨args, c₁⟩, h₁, h⟩ := bind_eq_ok.mp h
      cases h
      obtain ⟨items, close, rfl, ht⟩ := ih.items (by decide) hopen.ended h₁
      refine ⟨.call ⟨⟨c.peek, hn⟩, henv⟩ ⟨_, hparen⟩ items close, ?_, ?_⟩
      · simp [ValueTree.value]
      · simpa [ValueTree.tokens] using (hhead.trans hopen).trans ht
  next =>
    obtain ⟨⟨segs, c₁⟩, h₁, h⟩ := bind_eq_ok.mp h
    cases h
    obtain ⟨more, rfl, ht⟩ := pathTail_derived hhead.ended h₁
    refine ⟨.path ⟨c.peek, hn⟩ more, ?_, ?_⟩
    · simp [ValueTree.value]
    · simpa [ValueTree.tokens] using hhead.trans ht

theorem parseValue_derived {fuel : Nat} (ih : ValuesDerived fuel) {c d : Tokens} {v : Value}
    (hc : c.last.kind = .eof) (h : parseValue (fuel + 1) c = .ok (v, d)) :
    ∃ tree : ValueTree, tree.value = v ∧ Took c tree.tokens d := by
  unfold parseValue at h
  simp only at h
  split at h
  case h_1 hk =>
    cases h
    refine ⟨.string ⟨c.peek, hk⟩, by simp [ValueTree.value], ?_⟩
    simpa [ValueTree.tokens] using took_advance hc hk (by decide)
  case h_2 hk =>
    cases h
    refine ⟨.number ⟨c.peek, hk⟩, by simp [ValueTree.value], ?_⟩
    simpa [ValueTree.tokens] using took_advance hc hk (by decide)
  case h_3 hk =>
    obtain ⟨⟨n, c₁⟩, h₁, h⟩ := bind_eq_ok.mp h
    cases h
    have hsign := took_advance hc hk (by decide)
    obtain ⟨hnum, ht⟩ := expect_took hsign.ended h₁ (by decide)
    refine ⟨.negative ⟨c.peek, hk⟩ ⟨n, hnum⟩, by simp [ValueTree.value], ?_⟩
    simpa [ValueTree.tokens] using hsign.trans ht
  case h_4 hk =>
    cases h
    refine ⟨.boolean ⟨c.peek, hk⟩, by simp [ValueTree.value], ?_⟩
    simpa [ValueTree.tokens] using took_advance hc hk (by decide)
  case h_5 hk =>
    obtain ⟨⟨elems, c₁⟩, h₁, h⟩ := bind_eq_ok.mp h
    cases h
    have hopen := took_advance hc hk (by decide)
    obtain ⟨items, close, rfl, ht⟩ := ih.items (by decide) hopen.ended h₁
    refine ⟨.array ⟨c.peek, hk⟩ items close, by simp [ValueTree.value], ?_⟩
    simpa [ValueTree.tokens] using hopen.trans ht
  case h_6 hk =>
    obtain ⟨⟨props, c₁⟩, h₁, h⟩ := bind_eq_ok.mp h
    cases h
    have hopen := took_advance hc hk (by decide)
    obtain ⟨body, close, rfl, ht⟩ := ih.props hopen.ended h₁
    refine ⟨.object ⟨⟨c.peek, hk⟩, body, close⟩, by simp [ValueTree.value, propsOf_eq], ?_⟩
    simpa [ValueTree.tokens, propsTokens_eq] using hopen.trans ht
  case h_7 hk => exact parseNamed_derived ih hc (isName_iff.mpr (.inl hk)) h
  case h_8 hk => exact parseNamed_derived ih hc (isName_iff.mpr (.inr hk)) h
  case h_9 => cases h

theorem parseItems_derived {fuel : Nat} (ih : ValuesDerived fuel) {k : TokenKind}
    {sep : Expected} {c d : Tokens} {vs : List Value} (hne : k ≠ .eof) (hc : c.last.kind = .eof)
    (h : parseItems (fuel + 1) k sep c = .ok (vs, d)) :
    ∃ (tree : ItemsTree) (closing : Terminal k),
      tree.values = vs ∧ Took c (tree.tokens ++ [closing.1]) d := by
  unfold parseItems at h
  split at h
  next hk =>
    cases h
    refine ⟨.nil, ⟨c.peek, hk⟩, by simp [ItemsTree.values], ?_⟩
    simpa [ItemsTree.tokens] using took_advance hc hk hne
  next =>
    obtain ⟨⟨v, c₁⟩, h₁, h⟩ := bind_eq_ok.mp h
    obtain ⟨v, rfl, hv⟩ := ih.value hc h₁
    simp only at h
    split at h
    next hcomma =>
      obtain ⟨⟨vs', c₂⟩, h₂, h⟩ := bind_eq_ok.mp h
      cases h
      have hsep := took_advance hv.ended hcomma (by decide)
      obtain ⟨items, close, rfl, ht⟩ := ih.items hne hsep.ended h₂
      refine ⟨.more v ⟨_, hcomma⟩ items, close, by simp [ItemsTree.values], ?_⟩
      simpa [ItemsTree.tokens] using (hv.trans hsep).trans ht
    next =>
      split at h
      next hk =>
        cases h
        refine ⟨.last v, ⟨_, hk⟩, by simp [ItemsTree.values], ?_⟩
        simpa [ItemsTree.tokens] using hv.trans (took_advance hv.ended hk hne)
      next => cases h

theorem parseProps_derived {fuel : Nat} (ih : ValuesDerived fuel) {c d : Tokens}
    {ps : List Property} (hc : c.last.kind = .eof)
    (h : parseProps (fuel + 1) c = .ok (ps, d)) :
    ∃ (body : Body PropTree) (closing : Terminal .rbrace),
      body.items.map PropTree.prop = ps ∧
        Took c (body.tokens PropTree.tokens ++ [closing.1]) d := by
  unfold parseProps at h
  split at h
  next hk =>
    cases h
    exact ⟨.nil, ⟨c.peek, hk⟩, rfl, took_advance hc hk (by decide)⟩
  next hk =>
    have hcomma := took_advance hc hk (by decide)
    obtain ⟨body, close, rfl, ht⟩ := ih.props hcomma.ended h
    exact ⟨.comma ⟨c.peek, hk⟩ body, close, rfl, hcomma.trans ht⟩
  next =>
    obtain ⟨⟨p, c₁⟩, h₁, h⟩ := bind_eq_ok.mp h
    obtain ⟨⟨ps', c₂⟩, h₂, h⟩ := bind_eq_ok.mp h
    cases h
    obtain ⟨p, rfl, hp⟩ := ih.prop hc h₁
    obtain ⟨body, close, rfl, ht⟩ := ih.props hp.ended h₂
    refine ⟨.item p body, close, rfl, ?_⟩
    simpa [Body.tokens] using hp.trans ht

theorem parseProp_derived {fuel : Nat} (ih : ValuesDerived fuel) {c d : Tokens} {p : Property}
    (hc : c.last.kind = .eof) (h : parseProp (fuel + 1) c = .ok (p, d)) :
    ∃ tree : PropTree, tree.prop = p ∧ Took c tree.tokens d := by
  unfold parseProp at h
  obtain ⟨⟨key, c₁⟩, h₁, h⟩ := bind_eq_ok.mp h
  obtain ⟨⟨colon, c₂⟩, h₂, h⟩ := bind_eq_ok.mp h
  obtain ⟨⟨v, c₃⟩, h₃, h⟩ := bind_eq_ok.mp h
  cases h
  obtain ⟨hkey, ht₁⟩ := expectName_took hc h₁
  obtain ⟨hcolon, ht₂⟩ := expect_took ht₁.ended h₂ (by decide)
  obtain ⟨v, rfl, hv⟩ := ih.value ht₂.ended h₃
  refine ⟨.mk ⟨key, hkey⟩ ⟨colon, hcolon⟩ v, by simp [PropTree.prop], ?_⟩
  simpa [PropTree.tokens] using (ht₁.trans ht₂).trans hv

theorem values_derived (fuel : Nat) : ValuesDerived fuel := by
  induction fuel with
  | zero =>
    refine ⟨?_, ?_, ?_, ?_⟩
    · exact fun _ h => nomatch h
    · exact fun _ _ h => nomatch h
    · exact fun _ h => nomatch h
    · exact fun _ h => nomatch h
  | succ fuel ih =>
    exact ⟨parseValue_derived ih, parseItems_derived ih, parseProps_derived ih,
      parseProp_derived ih⟩

theorem parseBody_derived {fuel : Nat} {c d : Tokens} {ps : List Property}
    (hc : c.last.kind = .eof) (h : parseBody fuel c = .ok (ps, d)) :
    ∃ b : Braced PropTree,
      b.items.map PropTree.prop = ps ∧ Took c (b.tokens PropTree.tokens) d := by
  obtain ⟨⟨brace, c₁⟩, h₁, h⟩ := bind_eq_ok.mp h
  obtain ⟨hbrace, ht₁⟩ := expect_took hc h₁ (by decide)
  obtain ⟨body, close, rfl, ht⟩ := (values_derived fuel).props ht₁.ended h
  exact ⟨⟨⟨brace, hbrace⟩, body, close⟩, rfl, ht₁.trans ht⟩

/-! ## Fields -/

theorem attributeArgs_derived {fuel : Nat} {c d : Tokens} {ps : List Property}
    (hc : c.last.kind = .eof) (h : attributeArgs fuel c = .ok (ps, d)) :
    ∃ (args : ArgsTree) (closing : Terminal .rparen),
      args.props = ps ∧ Took c (args.tokens ++ [closing.1]) d := by
  induction fuel generalizing c d ps with
  | zero => cases h
  | succ fuel ih =>
    obtain ⟨⟨p, c₁⟩, h₁, h⟩ := bind_eq_ok.mp h
    obtain ⟨p, rfl, hp⟩ := (values_derived fuel).prop hc h₁
    simp only at h
    split at h
    next hk =>
      obtain ⟨⟨ps', c₂⟩, h₂, h⟩ := bind_eq_ok.mp h
      cases h
      have hcomma := took_advance hp.ended hk (by decide)
      obtain ⟨⟨first, others⟩, close, rfl, ht⟩ := ih hcomma.ended h₂
      refine ⟨⟨p, (⟨_, hk⟩, first) :: others⟩, close, rfl, ?_⟩
      simpa [ArgsTree.tokens, ArgsTree.otherTokens] using (hp.trans hcomma).trans ht
    next hk =>
      cases h
      refine ⟨⟨p, []⟩, ⟨_, hk⟩, rfl, ?_⟩
      simpa [ArgsTree.tokens, ArgsTree.otherTokens] using
        hp.trans (took_advance hp.ended hk (by decide))
    next => cases h

theorem parseAttribute_derived {fuel : Nat} {c d : Tokens} {a : Attribute}
    (hc : c.last.kind = .eof) (hk : c.kind = .attr)
    (h : parseAttribute fuel c = .ok (a, d)) :
    ∃ (args : Option ArgsTree) (closing : Terminal .rparen),
      ⟨c.peek.lexeme, c.peek.pos, (args.map ArgsTree.props).getD []⟩ = a ∧
        Took c (c.peek :: ((args.map ArgsTree.tokens).getD [] ++ [closing.1])) d := by
  have hopen := took_advance hc hk (by decide)
  unfold parseAttribute at h
  simp only at h
  split at h
  next hclose =>
    cases h
    exact ⟨none, ⟨_, hclose⟩, rfl, hopen.trans (took_advance hopen.ended hclose (by decide))⟩
  next =>
    obtain ⟨⟨args, c₁⟩, h₁, h⟩ := bind_eq_ok.mp h
    cases h
    obtain ⟨args, close, rfl, ht⟩ := attributeArgs_derived hopen.ended h₁
    exact ⟨some args, close, rfl, hopen.trans ht⟩

/-- A word that is a modifier by itself. -/
theorem plainModifier_derived {t : Token} {m : Modifier} (hk : t.kind = .ident)
    (h : plainModifier t.lexeme = some m) :
    ∃ tree : ModifierTree, tree.modifier = m ∧ tree.tokens = [t] := by
  unfold plainModifier at h
  split at h
  case h_1 hw =>
    cases h
    exact ⟨.primaryKey ⟨t, hk, hw⟩, rfl, rfl⟩
  case h_2 hw =>
    cases h
    exact ⟨.unique ⟨t, hk, hw⟩, rfl, rfl⟩
  case h_3 hw =>
    cases h
    exact ⟨.optional ⟨t, hk, hw⟩, rfl, rfl⟩
  case h_4 => cases h

theorem parseModifier_derived {fuel : Nat} {c d : Tokens} {m : Option Modifier}
    (hc : c.last.kind = .eof) (h : parseModifier fuel c = .ok (m, d)) :
    (m = none ∧ d = c) ∨
      ∃ tree : ModifierTree, some tree.modifier = m ∧ Took c tree.tokens d := by
  unfold parseModifier at h
  simp only at h
  split at h
  next m' hm =>
    cases h
    split at hm
    next hword =>
      simp only [Bool.and_eq_true, decide_eq_true_eq] at hword
      obtain ⟨tree, rfl, htokens⟩ := plainModifier_derived hword.1 hm
      exact .inr ⟨tree, rfl, htokens ▸ took_advance hc hword.1 (by decide)⟩
    next => cases hm
  split at h
  next hdefault =>
    simp only [Bool.and_eq_true, decide_eq_true_eq] at hdefault
    obtain ⟨⟨hk, hw⟩, hparen⟩ := hdefault
    rw [peekAt_one_eq] at hparen
    obtain ⟨⟨v, c₁⟩, h₁, h⟩ := bind_eq_ok.mp h
    obtain ⟨⟨close, c₂⟩, h₂, h⟩ := bind_eq_ok.mp h
    cases h
    have hword := took_advance hc hk (by decide)
    have hopen := took_advance hword.ended hparen (by decide)
    obtain ⟨v, rfl, hv⟩ := (values_derived fuel).value hopen.ended h₁
    obtain ⟨hclose, ht⟩ := expect_took hv.ended h₂ (by decide)
    refine .inr ⟨.default ⟨c.peek, hk, hw⟩ ⟨_, hparen⟩ v ⟨close, hclose⟩, rfl, ?_⟩
    simpa [ModifierTree.tokens] using ((hword.trans hopen).trans hv).trans ht
  split at h
  next hk =>
    obtain ⟨⟨a, c₁⟩, h₁, h⟩ := bind_eq_ok.mp h
    cases h
    obtain ⟨args, close, rfl, ht⟩ := parseAttribute_derived hc hk h₁
    exact .inr ⟨.attr ⟨c.peek, hk⟩ args close, rfl, ht⟩
  split at h
  · cases h
    exact .inl ⟨rfl, rfl⟩
  · cases h

theorem parseModifiers_derived {fuel : Nat} {c d : Tokens} {ms : List Modifier}
    (hc : c.last.kind = .eof) (h : parseModifiers fuel c = .ok (ms, d)) :
    ∃ trees : List ModifierTree,
      trees.map ModifierTree.modifier = ms ∧ Took c (trees.flatMap ModifierTree.tokens) d := by
  induction fuel generalizing c d ms with
  | zero => cases h
  | succ fuel ih =>
    obtain ⟨⟨m, c₁⟩, h₁, h⟩ := bind_eq_ok.mp h
    rcases parseModifier_derived hc h₁ with ⟨rfl, hend⟩ | ⟨tree, rfl, ht⟩
    · cases h
      subst hend
      exact ⟨[], rfl, .none hc⟩
    · obtain ⟨⟨ms', c₂⟩, h₂, h⟩ := bind_eq_ok.mp h
      cases h
      obtain ⟨trees, rfl, hts⟩ := ih ht.ended h₂
      exact ⟨tree :: trees, rfl, ht.trans hts⟩

theorem parseTypeRef_derived {c d : Tokens} {t : TypeRef} (hc : c.last.kind = .eof)
    (h : parseTypeRef c = .ok (t, d)) :
    ∃ tree : TypeTree, tree.ref = t ∧ Took c tree.tokens d := by
  obtain ⟨⟨n, c₁⟩, h₁, h⟩ := bind_eq_ok.mp h
  obtain ⟨hn, hname⟩ := expectName_took hc h₁
  simp only at h
  split at h
  next hk =>
    obtain ⟨⟨close, c₂⟩, h₂, h⟩ := bind_eq_ok.mp h
    cases h
    have hopen := took_advance hname.ended hk (by decide)
    obtain ⟨hclose, ht⟩ := expect_took hopen.ended h₂ (by decide)
    exact ⟨⟨⟨n, hn⟩, some (⟨_, hk⟩, ⟨close, hclose⟩)⟩, rfl, (hname.trans hopen).trans ht⟩
  next =>
    cases h
    exact ⟨⟨⟨n, hn⟩, none⟩, rfl, hname⟩

theorem parseField_derived {fuel : Nat} {c d : Tokens} {f : FieldDecl} (hc : c.last.kind = .eof)
    (h : parseField fuel c = .ok (f, d)) :
    ∃ tree : FieldTree, tree.decl = f ∧ Took c tree.tokens d := by
  obtain ⟨⟨n, c₁⟩, h₁, h⟩ := bind_eq_ok.mp h
  obtain ⟨⟨colon, c₂⟩, h₂, h⟩ := bind_eq_ok.mp h
  obtain ⟨⟨t, c₃⟩, h₃, h⟩ := bind_eq_ok.mp h
  obtain ⟨⟨ms, c₄⟩, h₄, h⟩ := bind_eq_ok.mp h
  cases h
  obtain ⟨hn, hname⟩ := expectName_took hc h₁
  obtain ⟨hk, hcolon⟩ := expect_took hname.ended h₂ (by decide)
  obtain ⟨type, rfl, htype⟩ := parseTypeRef_derived hcolon.ended h₃
  obtain ⟨modifiers, rfl, hms⟩ := parseModifiers_derived htype.ended h₄
  refine ⟨⟨⟨n, hn⟩, ⟨colon, hk⟩, type, modifiers⟩, rfl, ?_⟩
  simpa [FieldTree.tokens] using ((hname.trans hcolon).trans htype).trans hms

/-! ## Blocks -/

theorem parseFields_derived {fuel : Nat} {c d : Tokens} {fs : List FieldDecl}
    (hc : c.last.kind = .eof) (h : parseFields fuel c = .ok (fs, d)) :
    ∃ (body : Body FieldTree) (closing : Terminal .rbrace),
      body.items.map FieldTree.decl = fs ∧
        Took c (body.tokens FieldTree.tokens ++ [closing.1]) d := by
  induction fuel generalizing c d fs with
  | zero => cases h
  | succ fuel ih =>
    unfold parseFields at h
    split at h
    next hk =>
      cases h
      exact ⟨.nil, ⟨c.peek, hk⟩, rfl, took_advance hc hk (by decide)⟩
    next hk =>
      have hcomma := took_advance hc hk (by decide)
      obtain ⟨body, close, rfl, ht⟩ := ih hcomma.ended h
      exact ⟨.comma ⟨c.peek, hk⟩ body, close, rfl, hcomma.trans ht⟩
    next =>
      obtain ⟨⟨f, c₁⟩, h₁, h⟩ := bind_eq_ok.mp h
      obtain ⟨⟨fs', c₂⟩, h₂, h⟩ := bind_eq_ok.mp h
      cases h
      obtain ⟨f, rfl, hf⟩ := parseField_derived hc h₁
      obtain ⟨body, close, rfl, ht⟩ := ih hf.ended h₂
      refine ⟨.item f body, close, rfl, ?_⟩
      simpa [Body.tokens] using hf.trans ht

theorem parseEnumValues_derived {fuel : Nat} {c d : Tokens} {vs : List EnumValue}
    (hc : c.last.kind = .eof) (h : parseEnumValues fuel c = .ok (vs, d)) :
    ∃ (body : Body Name) (closing : Terminal .rbrace),
      (body.items.map fun t => ⟨t.1.lexeme, t.1.pos⟩) = vs ∧
        Took c ((body.tokens fun t => [t.1]) ++ [closing.1]) d := by
  induction fuel generalizing c d vs with
  | zero => cases h
  | succ fuel ih =>
    unfold parseEnumValues at h
    split at h
    case h_1 hk =>
      cases h
      exact ⟨.nil, ⟨c.peek, hk⟩, rfl, took_advance hc hk (by decide)⟩
    case h_2 hk =>
      have hcomma := took_advance hc hk (by decide)
      obtain ⟨body, close, rfl, ht⟩ := ih hcomma.ended h
      exact ⟨.comma ⟨c.peek, hk⟩ body, close, rfl, hcomma.trans ht⟩
    case h_3 hk | h_4 hk =>
      obtain ⟨⟨vs', c₁⟩, h₁, h⟩ := bind_eq_ok.mp h
      cases h
      have hn : c.peek.isName = true := by
        change c.peek.kind = _ at hk
        simp [Token.isName, hk]
      have hname := took_name hc hn
      obtain ⟨body, close, rfl, ht⟩ := ih hname.ended h₁
      exact ⟨.item ⟨c.peek, hn⟩ body, close, rfl, hname.trans ht⟩
    case h_5 => cases h

theorem parseWorkflowItems_derived {fuel : Nat} {c d : Tokens} {ps : List Property}
    {ss : List StepDecl} (hc : c.last.kind = .eof)
    (h : parseWorkflowItems fuel c = .ok ((ps, ss), d)) :
    ∃ (body : Body WorkflowItem) (closing : Terminal .rbrace),
      body.items.filterMap WorkflowItem.prop? = ps ∧
        body.items.filterMap WorkflowItem.step? = ss ∧
          Took c (body.tokens WorkflowItem.tokens ++ [closing.1]) d := by
  induction fuel generalizing c d ps ss with
  | zero => cases h
  | succ fuel ih =>
    unfold parseWorkflowItems at h
    split at h
    next hk =>
      cases h
      exact ⟨.nil, ⟨c.peek, hk⟩, rfl, rfl, took_advance hc hk (by decide)⟩
    next hk =>
      have hcomma := took_advance hc hk (by decide)
      obtain ⟨body, close, rfl, rfl, ht⟩ := ih hcomma.ended h
      exact ⟨.comma ⟨c.peek, hk⟩ body, close, rfl, rfl, hcomma.trans ht⟩
    next =>
      simp only at h
      split at h
      next hstep =>
        simp only [Bool.and_eq_true, decide_eq_true_eq, peekAt_one_eq] at hstep
        obtain ⟨⟨⟨hk, hw⟩, hn⟩, -⟩ := hstep
        obtain ⟨⟨inputs, c₁⟩, h₁, h⟩ := bind_eq_ok.mp h
        obtain ⟨⟨⟨ps', ss'⟩, c₂⟩, h₂, h⟩ := bind_eq_ok.mp h
        cases h
        have hword := took_advance hc hk (by decide)
        have haction := took_name hword.ended hn
        obtain ⟨block, rfl, hblock⟩ := parseBody_derived haction.ended h₁
        obtain ⟨body, close, rfl, rfl, ht⟩ := ih hblock.ended h₂
        refine ⟨.item (.step ⟨⟨c.peek, hk, hw⟩, ⟨_, hn⟩, block⟩) body, close, rfl, rfl, ?_⟩
        simpa [Body.tokens, WorkflowItem.tokens, StepTree.tokens] using
          ((hword.trans haction).trans hblock).trans ht
      next =>
        obtain ⟨⟨p, c₁⟩, h₁, h⟩ := bind_eq_ok.mp h
        obtain ⟨⟨⟨ps', ss'⟩, c₂⟩, h₂, h⟩ := bind_eq_ok.mp h
        cases h
        obtain ⟨p, rfl, hp⟩ := (values_derived fuel).prop hc h₁
        obtain ⟨body, close, rfl, rfl, ht⟩ := ih hp.ended h₂
        refine ⟨.item (.prop p) body, close, rfl, rfl, ?_⟩
        simpa [Body.tokens, WorkflowItem.tokens] using hp.trans ht

theorem parseNamedBlock_derived {fuel : Nat} {file : String} {what : Expected} {c d : Tokens}
    {b : BlockDecl} (hc : c.last.kind = .eof) (hk : c.kind = .keyword)
    (h : parseNamedBlock fuel file what c = .ok (b, d)) :
    ∃ (name : Name) (block : Braced PropTree),
      ⟨⟨name.1.lexeme, c.peek.pos, file⟩, block.items.map PropTree.prop⟩ = b ∧
        Took c (c.peek :: name.1 :: block.tokens PropTree.tokens) d := by
  obtain ⟨⟨n, c₁⟩, h₁, h⟩ := bind_eq_ok.mp h
  obtain ⟨⟨ps, c₂⟩, h₂, h⟩ := bind_eq_ok.mp h
  cases h
  have hword := took_advance hc hk (by decide)
  obtain ⟨hn, hname⟩ := expectName_took hword.ended h₁
  obtain ⟨block, rfl, hblock⟩ := parseBody_derived hname.ended h₂
  exact ⟨⟨n, hn⟩, block, rfl, (hword.trans hname).trans hblock⟩

theorem parseDecl_derived {fuel : Nat} {file : String} {c d : Tokens} {decl : Decl}
    (hc : c.last.kind = .eof) (h : parseDecl fuel file c = .ok (decl, d)) :
    ∃ tree : DeclTree, tree.decl file = decl ∧ Took c tree.tokens d := by
  have hword (hk : ¬ c.peek.kind ≠ .keyword) : c.kind = .keyword ∧ Took c [c.peek] c.advance :=
    have hk : c.kind = .keyword := Decidable.of_not_not hk
    ⟨hk, took_advance hc hk (by decide)⟩
  revert h
  fun_cases parseDecl fuel file c with
  | case1 =>
    intro h
    cases h
  | case2 t hk hw =>
    intro h
    obtain ⟨hk, hword⟩ := hword hk
    obtain ⟨⟨n, c₁⟩, h₁, h⟩ := bind_eq_ok.mp h
    obtain ⟨⟨brace, c₂⟩, h₂, h⟩ := bind_eq_ok.mp h
    obtain ⟨⟨fs, c₃⟩, h₃, h⟩ := bind_eq_ok.mp h
    cases h
    obtain ⟨hn, hname⟩ := expectName_took hword.ended h₁
    obtain ⟨hb, hbrace⟩ := expect_took hname.ended h₂ (by decide)
    obtain ⟨body, close, rfl, ht⟩ := parseFields_derived hbrace.ended h₃
    exact ⟨.entity ⟨c.peek, hk, hw⟩ ⟨n, hn⟩ ⟨⟨brace, hb⟩, body, close⟩, rfl,
      ((hword.trans hname).trans hbrace).trans ht⟩
  | case3 t hk _ hw =>
    intro h
    obtain ⟨hk, hword⟩ := hword hk
    obtain ⟨⟨n, c₁⟩, h₁, h⟩ := bind_eq_ok.mp h
    obtain ⟨⟨brace, c₂⟩, h₂, h⟩ := bind_eq_ok.mp h
    obtain ⟨⟨vs, c₃⟩, h₃, h⟩ := bind_eq_ok.mp h
    cases h
    obtain ⟨hn, hname⟩ := expectName_took hword.ended h₁
    obtain ⟨hb, hbrace⟩ := expect_took hname.ended h₂ (by decide)
    obtain ⟨body, close, rfl, ht⟩ := parseEnumValues_derived hbrace.ended h₃
    exact ⟨.enum ⟨c.peek, hk, hw⟩ ⟨n, hn⟩ ⟨⟨brace, hb⟩, body, close⟩, rfl,
      ((hword.trans hname).trans hbrace).trans ht⟩
  | case4 t hk _ _ hw =>
    intro h
    obtain ⟨hk, -⟩ := hword hk
    obtain ⟨⟨b, c₁⟩, h₁, h⟩ := bind_eq_ok.mp h
    cases h
    obtain ⟨name, block, rfl, ht⟩ := parseNamedBlock_derived hc hk h₁
    exact ⟨.page ⟨c.peek, hk, hw⟩ name block, rfl, ht⟩
  | case5 t hk _ _ _ hw =>
    intro h
    obtain ⟨hk, -⟩ := hword hk
    obtain ⟨⟨b, c₁⟩, h₁, h⟩ := bind_eq_ok.mp h
    cases h
    obtain ⟨name, block, rfl, ht⟩ := parseNamedBlock_derived hc hk h₁
    exact ⟨.view ⟨c.peek, hk, hw⟩ name block, rfl, ht⟩
  | case6 t hk _ _ _ _ hw =>
    intro h
    obtain ⟨hk, hword⟩ := hword hk
    obtain ⟨⟨n, c₁⟩, h₁, h⟩ := bind_eq_ok.mp h
    obtain ⟨⟨brace, c₂⟩, h₂, h⟩ := bind_eq_ok.mp h
    obtain ⟨⟨⟨ps, ss⟩, c₃⟩, h₃, h⟩ := bind_eq_ok.mp h
    cases h
    obtain ⟨hn, hname⟩ := expectName_took hword.ended h₁
    obtain ⟨hb, hbrace⟩ := expect_took hname.ended h₂ (by decide)
    obtain ⟨body, close, rfl, rfl, ht⟩ := parseWorkflowItems_derived hbrace.ended h₃
    exact ⟨.workflow ⟨c.peek, hk, hw⟩ ⟨n, hn⟩ ⟨⟨brace, hb⟩, body, close⟩, rfl,
      ((hword.trans hname).trans hbrace).trans ht⟩
  | case7 t hk _ _ _ _ _ hw first name c₁ hfirst =>
    intro h
    obtain ⟨hk, hword⟩ := hword hk
    obtain ⟨⟨ps, c₂⟩, h₁, h⟩ := bind_eq_ok.mp h
    cases h
    split at hfirst <;> cases hfirst
    next hn =>
      have hname := took_name hword.ended hn
      obtain ⟨block, rfl, ht⟩ := parseBody_derived hname.ended h₁
      exact ⟨.config ⟨c.peek, hk, hw⟩ (some ⟨_, hn⟩) block, rfl, (hword.trans hname).trans ht⟩
    next hn =>
      obtain ⟨block, rfl, ht⟩ := parseBody_derived hword.ended h₁
      exact ⟨.config ⟨c.peek, hk, hw⟩ none block, rfl, hword.trans ht⟩
  | case8 =>
    intro h
    cases h

theorem parseDecls_derived {fuel : Nat} {file : String} {c d : Tokens} {ds : List Decl}
    (hc : c.last.kind = .eof) (h : parseDecls fuel file c = .ok (ds, d)) :
    ∃ trees : List DeclTree, trees.map (DeclTree.decl file) = ds ∧
      Took c (trees.flatMap DeclTree.tokens) d ∧ d.kind = .eof := by
  induction fuel generalizing c d ds with
  | zero => cases h
  | succ fuel ih =>
    unfold parseDecls at h
    split at h
    next hk =>
      cases h
      exact ⟨[], rfl, .none hc, hk⟩
    next =>
      obtain ⟨⟨x, c₁⟩, h₁, h⟩ := bind_eq_ok.mp h
      obtain ⟨⟨ds', c₂⟩, h₂, h⟩ := bind_eq_ok.mp h
      cases h
      obtain ⟨tree, rfl, ht⟩ := parseDecl_derived hc h₁
      obtain ⟨trees, rfl, hts, hk⟩ := ih ht.ended h₂
      exact ⟨tree :: trees, rfl, ht.trans hts, hk⟩

/-! ## Whole sources -/

/-- The last token ends the input, and no other does. -/
def EndsOnce (tokens : List Token) : Prop :=
  ∃ body last, tokens = body ++ [last] ∧ last.kind = .eof ∧ ∀ t ∈ body, t.kind ≠ .eof

/-- The token that ends the input is the only one not taken. -/
theorem rest_of_took {body ts : List Token} {last : Token} {c d : Tokens}
    (hrest : c.rest = body ++ [last]) (hlast : last.kind = .eof)
    (hbody : ∀ t ∈ body, t.kind ≠ .eof) (h : Took c ts d) (hd : d.kind = .eof) :
    d.rest = [last] := by
  have heq : body ++ [last] = ts ++ d.rest := by rw [← hrest, h.rest]
  rcases List.eq_nil_or_concat d.rest with hnil | ⟨init, u, hinit⟩
  · rw [hnil, List.append_nil] at heq
    exact absurd hlast (h.inner last (by simp [← heq]))
  · rw [List.concat_eq_append] at hinit
    rw [hinit, ← List.append_assoc] at heq
    obtain ⟨rfl, hu⟩ := List.append_inj' heq rfl
    cases init with
    | nil => rw [hinit, hu, List.nil_append]
    | cons t init =>
      have ht : d.peek = t := by simp [Tokens.peek, hinit]
      exact absurd (ht ▸ hd) (hbody t (by simp))

theorem derivation_of_parseTokens {file : String} {tokens : List Token} {f : File}
    (hends : EndsOnce tokens) (h : parseTokens file tokens = .ok f) :
    ∃ d : FileTree, d.tokens = tokens ∧ d.file file = f := by
  obtain ⟨body, last, rfl, hlast, hbody⟩ := hends
  obtain ⟨⟨ds, c⟩, hds, h⟩ := bind_eq_ok.mp h
  cases h
  have hc : (Tokens.ofList (body ++ [last])).last.kind = .eof := by simp [Tokens.ofList, hlast]
  obtain ⟨trees, rfl, ht, hk⟩ := parseDecls_derived hc hds
  have htokens := ht.rest
  rw [rest_of_took rfl hlast hbody ht hk] at htokens
  exact ⟨⟨trees, ⟨last, hlast⟩⟩, htokens.symm, rfl⟩

/-- The parser accepts exactly the tokens that have a derivation, and builds what the derivation
stands for; no tokens have two. -/
theorem parseTokens_iff_derivation (file : String) {tokens : List Token}
    (hends : EndsOnce tokens) :
    (∀ f : File, parseTokens file tokens = .ok f ↔
      ∃ d : FileTree, d.Apart ∧ d.tokens = tokens ∧ d.file file = f) ∧
      ∀ d d' : FileTree, d.tokens = tokens → d'.tokens = tokens → d = d' := by
  refine ⟨fun f => ⟨fun h => ?_, ?_⟩, fun d d' hd hd' => file_unique (hd.trans hd'.symm)⟩
  · obtain ⟨d, hd, hf⟩ := derivation_of_parseTokens hends h
    exact ⟨d, fileApart d, hd, hf⟩
  · rintro ⟨d, -, rfl, rfl⟩
    exact parseTokens_of_derivation file d

/-- The word `unique` once as a modifier, and once as the name of the field after it. -/
def uniqueTwice : List Token :=
  [⟨.keyword, "entity", .start⟩, ⟨.ident, "Item", .start⟩, ⟨.lbrace, "\x7b", .start⟩,
    ⟨.ident, "code", .start⟩, ⟨.colon, ":", .start⟩, ⟨.ident, "String", .start⟩,
    ⟨.ident, "unique", .start⟩,
    ⟨.ident, "unique", .start⟩, ⟨.colon, ":", .start⟩, ⟨.ident, "Bool", .start⟩,
    ⟨.rbrace, "\x7d", .start⟩, ⟨.eof, "", .start⟩]

theorem uniqueTwice_endsOnce : EndsOnce uniqueTwice :=
  ⟨uniqueTwice.dropLast, ⟨.eof, "", .start⟩, by decide, rfl, by decide⟩

theorem uniqueTwice_derivation :
    (∃ d : FileTree, d.Apart ∧ d.tokens = uniqueTwice ∧
      d.file "items" = ⟨"items", [.entity ⟨⟨"Item", .start, "items"⟩,
        [⟨"code", .start, ⟨"String", false, .start⟩, [.unique]⟩,
          ⟨"unique", .start, ⟨"Bool", false, .start⟩, []⟩]⟩]⟩) ∧
      ∀ d d' : FileTree, d.tokens = uniqueTwice → d'.tokens = uniqueTwice → d = d' :=
  have h := parseTokens_iff_derivation "items" uniqueTwice_endsOnce
  ⟨(h.1 _).mp rfl, h.2⟩

end Scaffold.Source.Grammar
