import Scaffold.Proofs.Outcome
import Scaffold.Source.Parser

/-! # Names in parsed sources

A name token is never empty, and the parser takes names from tokens only, so no block and no field
of a parsed source has the empty name. Every piece of the parser leaves a tail of the tokens it was
given. -/
namespace Scaffold.Source

open Scaffold.Text (Rune)

/-! ## Tokens -/

/-- Names among tokens are not empty. -/
def NamesFilled (ts : List Token) : Prop := ∀ t ∈ ts, t.isName = true → t.lexeme ≠ ""

theorem isNamePart_of_isNameStart {c : Char} (h : isNameStart c = true) : isNamePart c = true := by
  simp only [isNameStart, isNamePart, Bool.or_eq_true] at h ⊢
  exact Or.inl h

theorem span_ne_nil {p : Char → Bool} {c : Cursor} {r : Rune} {rest : List Rune}
    (hc : c.rest = r :: rest) (hp : p r.char = true) : (c.span p).1 ≠ [] := by
  simp [Cursor.span, hc, hp]

theorem isName_punctuation {c : Char} {k : TokenKind} (h : punctuation c = some k)
    (s : String) (p : Pos) : Token.isName ⟨k, s, p⟩ = false := by
  unfold punctuation at h
  split at h <;> cases h <;> rfl

theorem scanToken_filled {c c' : Cursor} {r : Rune} {rest : List Rune} {t : Token}
    (hc : c.rest = r :: rest) (h : scanToken c r = .ok (t, c')) (hn : t.isName = true) :
    t.lexeme ≠ "" := by
  unfold scanToken at h
  split at h
  next hs =>
    have hw := span_ne_nil hc (isNamePart_of_isNameStart hs)
    simp only [Except.ok.injEq, Prod.mk.injEq] at h
    rw [← h.1]
    simpa using hw
  split at h
  · simp only [Except.ok.injEq, Prod.mk.injEq] at h
    simp [← h.1, Token.isName] at hn
  split at h
  · obtain ⟨⟨text, d⟩, -, h⟩ := bind_eq_ok.mp h
    simp only [Except.ok.injEq, Prod.mk.injEq] at h
    simp [← h.1, Token.isName] at hn
  split at h
  · simp only at h
    split at h
    · split at h
      · simp only [Except.ok.injEq, Prod.mk.injEq] at h
        simp [← h.1, Token.isName] at hn
      · cases h
    · cases h
  · split at h
    next k hk =>
      simp only [Except.ok.injEq, Prod.mk.injEq] at h
      rw [← h.1, isName_punctuation hk] at hn
      cases hn
    next => cases h

theorem lexFrom_filled {fuel : Nat} {c : Cursor} {ts : List Token}
    (h : lexFrom fuel c = .ok ts) : NamesFilled ts := by
  induction fuel generalizing c ts with
  | zero =>
    simp only [lexFrom, Except.ok.injEq] at h
    simp [← h, NamesFilled, Token.isName]
  | succ fuel ih =>
    obtain ⟨d, -, h⟩ := bind_eq_ok.mp h
    split at h
    · simp only [Except.ok.injEq] at h
      simp [← h, NamesFilled, Token.isName]
    next r rest hd =>
      obtain ⟨⟨t, c'⟩, ht, h⟩ := bind_eq_ok.mp h
      obtain ⟨ts', hts, h⟩ := bind_eq_ok.mp h
      cases h
      intro u hu
      rcases List.mem_cons.mp hu with rfl | hu
      · exact scanToken_filled hd ht
      · exact ih hts u hu

theorem lex_filled {source : List Rune} {ts : List Token} (h : lex source = .ok ts) :
    NamesFilled ts := lexFrom_filled h

/-! ## What is left of the tokens -/

/-- `d` stands at or after `c` in the same tokens. -/
def Tokens.After (d c : Tokens) : Prop := d.last = c.last ∧ d.rest <:+ c.rest

namespace Tokens

theorem After.refl (c : Tokens) : c.After c := ⟨rfl, List.suffix_rfl⟩

theorem After.trans {e d c : Tokens} (h : e.After d) (h' : d.After c) : e.After c :=
  ⟨h.1.trans h'.1, h.2.trans h'.2⟩

theorem after_advance (c : Tokens) : c.advance.After c := ⟨rfl, List.tail_suffix _⟩

/-- Names are filled among the tokens to come and the token past their end. -/
def Filled (c : Tokens) : Prop := NamesFilled (c.last :: c.rest)

theorem peek_mem (c : Tokens) : c.peek ∈ c.last :: c.rest := by
  unfold peek
  cases c.rest <;> simp

theorem Filled.after {c d : Tokens} (h : c.Filled) (hd : d.After c) : d.Filled := by
  intro t ht
  rcases List.mem_cons.mp ht with rfl | ht
  · exact h _ (by simp [hd.1])
  · exact h t (List.mem_cons_of_mem _ (hd.2.subset ht))

theorem Filled.peek {c : Tokens} (h : c.Filled) (hn : c.peek.isName = true) :
    c.peek.lexeme ≠ "" := h _ c.peek_mem hn

end Tokens

theorem expect_ok {k : TokenKind} {c d : Tokens} {t : Token} (h : expect k c = .ok (t, d)) :
    d = c.advance ∧ t = c.peek ∧ c.kind = k := by
  unfold expect at h
  split at h
  next hk =>
    cases h
    exact ⟨rfl, rfl, hk⟩
  next => cases h

theorem expectName_ok {what : Expected} {c d : Tokens} {t : Token}
    (h : expectName what c = .ok (t, d)) : d = c.advance ∧ t = c.peek ∧ t.isName = true := by
  unfold expectName at h
  split at h
  next hn =>
    cases h
    exact ⟨rfl, rfl, hn⟩
  next => cases h

theorem expect_after {k : TokenKind} {c d : Tokens} {t : Token} (h : expect k c = .ok (t, d)) :
    d.After c := (expect_ok h).1 ▸ c.after_advance

theorem expectName_after {what : Expected} {c d : Tokens} {t : Token}
    (h : expectName what c = .ok (t, d)) : d.After c := (expectName_ok h).1 ▸ c.after_advance

theorem expectName_filled {what : Expected} {c d : Tokens} {t : Token} (hc : c.Filled)
    (h : expectName what c = .ok (t, d)) : t.lexeme ≠ "" := by
  obtain ⟨-, rfl, hn⟩ := expectName_ok h
  exact hc.peek hn

theorem pathTail_after {fuel : Nat} {c d : Tokens} {segs : List String}
    (h : pathTail fuel c = .ok (segs, d)) : d.After c := by
  induction fuel generalizing c d segs with
  | zero => cases h
  | succ fuel ih =>
    unfold pathTail at h
    split at h
    · obtain ⟨⟨seg, c₁⟩, h₁, h⟩ := bind_eq_ok.mp h
      obtain ⟨⟨segs', c₂⟩, h₂, h⟩ := bind_eq_ok.mp h
      cases h
      exact (ih h₂).trans ((expectName_after h₁).trans c.after_advance)
    · cases h
      exact .refl c

/-- The four mutually recursive readers of values, at one amount of fuel. -/
structure ValuesAfter (fuel : Nat) : Prop where
  value : ∀ {c d : Tokens} {v : Value}, parseValue fuel c = .ok (v, d) → d.After c
  items : ∀ {close : TokenKind} {sep : Expected} {c d : Tokens} {vs : List Value},
    parseItems fuel close sep c = .ok (vs, d) → d.After c
  props : ∀ {c d : Tokens} {ps : List Property}, parseProps fuel c = .ok (ps, d) → d.After c
  prop : ∀ {c d : Tokens} {p : Property}, parseProp fuel c = .ok (p, d) → d.After c

theorem parseValue_step {fuel : Nat} (ih : ValuesAfter fuel) {c d : Tokens} {v : Value}
    (h : parseValue (fuel + 1) c = .ok (v, d)) : d.After c := by
  unfold parseValue at h
  simp only at h
  split at h
  case h_1 | h_2 | h_4 =>
    cases h
    exact c.after_advance
  case h_3 =>
    obtain ⟨⟨n, c₁⟩, h₁, h⟩ := bind_eq_ok.mp h
    cases h
    exact (expect_after h₁).trans c.after_advance
  case h_5 =>
    obtain ⟨⟨elems, c₁⟩, h₁, h⟩ := bind_eq_ok.mp h
    cases h
    exact (ih.items h₁).trans c.after_advance
  case h_6 =>
    obtain ⟨⟨props, c₁⟩, h₁, h⟩ := bind_eq_ok.mp h
    cases h
    exact (ih.props h₁).trans c.after_advance
  -- a name: an environment variable, a call or a path
  case h_7 | h_8 =>
    have two : c.advance.advance.After c := (Tokens.after_advance _).trans c.after_advance
    split at h
    · split at h
      · obtain ⟨⟨n, c₁⟩, h₁, h⟩ := bind_eq_ok.mp h
        obtain ⟨⟨_, c₂⟩, h₂, h⟩ := bind_eq_ok.mp h
        cases h
        exact (expect_after h₂).trans ((expectName_after h₁).trans two)
      · obtain ⟨⟨args, c₁⟩, h₁, h⟩ := bind_eq_ok.mp h
        cases h
        exact (ih.items h₁).trans two
    · obtain ⟨⟨segs, c₁⟩, h₁, h⟩ := bind_eq_ok.mp h
      cases h
      exact (pathTail_after h₁).trans c.after_advance
  case h_9 => cases h

theorem parseItems_step {fuel : Nat} (ih : ValuesAfter fuel) {close : TokenKind} {sep : Expected}
    {c d : Tokens} {vs : List Value} (h : parseItems (fuel + 1) close sep c = .ok (vs, d)) :
    d.After c := by
  unfold parseItems at h
  split at h
  · cases h
    exact c.after_advance
  · obtain ⟨⟨v, c₁⟩, h₁, h⟩ := bind_eq_ok.mp h
    simp only at h
    split at h
    · obtain ⟨⟨vs', c₂⟩, h₂, h⟩ := bind_eq_ok.mp h
      cases h
      exact (ih.items h₂).trans (c₁.after_advance.trans (ih.value h₁))
    · split at h
      · cases h
        exact c₁.after_advance.trans (ih.value h₁)
      · cases h

theorem parseProps_step {fuel : Nat} (ih : ValuesAfter fuel) {c d : Tokens} {ps : List Property}
    (h : parseProps (fuel + 1) c = .ok (ps, d)) : d.After c := by
  unfold parseProps at h
  split at h
  · cases h
    exact c.after_advance
  · exact (ih.props h).trans c.after_advance
  · obtain ⟨⟨p, c₁⟩, h₁, h⟩ := bind_eq_ok.mp h
    obtain ⟨⟨ps', c₂⟩, h₂, h⟩ := bind_eq_ok.mp h
    cases h
    exact (ih.props h₂).trans (ih.prop h₁)

theorem parseProp_step {fuel : Nat} (ih : ValuesAfter fuel) {c d : Tokens} {p : Property}
    (h : parseProp (fuel + 1) c = .ok (p, d)) : d.After c := by
  unfold parseProp at h
  obtain ⟨⟨key, c₁⟩, h₁, h⟩ := bind_eq_ok.mp h
  obtain ⟨⟨_, c₂⟩, h₂, h⟩ := bind_eq_ok.mp h
  obtain ⟨⟨v, c₃⟩, h₃, h⟩ := bind_eq_ok.mp h
  cases h
  exact (ih.value h₃).trans ((expect_after h₂).trans (expectName_after h₁))

theorem values_after (fuel : Nat) : ValuesAfter fuel := by
  induction fuel with
  | zero =>
    constructor <;> exact nofun
  | succ fuel ih =>
    exact ⟨parseValue_step ih, parseItems_step ih, parseProps_step ih, parseProp_step ih⟩

theorem parseBody_after {fuel : Nat} {c d : Tokens} {ps : List Property}
    (h : parseBody fuel c = .ok (ps, d)) : d.After c := by
  obtain ⟨⟨_, c₁⟩, h₁, h⟩ := bind_eq_ok.mp h
  exact ((values_after fuel).props h).trans (expect_after h₁)

theorem attributeArgs_after {fuel : Nat} {c d : Tokens} {ps : List Property}
    (h : attributeArgs fuel c = .ok (ps, d)) : d.After c := by
  induction fuel generalizing c d ps with
  | zero => cases h
  | succ fuel ih =>
    obtain ⟨⟨p, c₁⟩, h₁, h⟩ := bind_eq_ok.mp h
    have hp := (values_after fuel).prop h₁
    simp only at h
    split at h
    · obtain ⟨⟨ps', c₂⟩, h₂, h⟩ := bind_eq_ok.mp h
      cases h
      exact (ih h₂).trans (c₁.after_advance.trans hp)
    · cases h
      exact c₁.after_advance.trans hp
    · cases h

theorem parseAttribute_after {fuel : Nat} {c d : Tokens} {a : Attribute}
    (h : parseAttribute fuel c = .ok (a, d)) : d.After c := by
  unfold parseAttribute at h
  simp only at h
  split at h
  · cases h
    exact (Tokens.after_advance _).trans c.after_advance
  · obtain ⟨⟨args, c₁⟩, h₁, h⟩ := bind_eq_ok.mp h
    cases h
    exact (attributeArgs_after h₁).trans c.after_advance

theorem parseModifier_after {fuel : Nat} {c d : Tokens} {m : Option Modifier}
    (h : parseModifier fuel c = .ok (m, d)) : d.After c := by
  unfold parseModifier at h
  simp only at h
  split at h
  · cases h
    exact c.after_advance
  split at h
  · obtain ⟨⟨v, c₁⟩, h₁, h⟩ := bind_eq_ok.mp h
    obtain ⟨⟨_, c₂⟩, h₂, h⟩ := bind_eq_ok.mp h
    cases h
    exact (expect_after h₂).trans (((values_after fuel).value h₁).trans
      ((Tokens.after_advance _).trans c.after_advance))
  split at h
  · obtain ⟨⟨a, c₁⟩, h₁, h⟩ := bind_eq_ok.mp h
    cases h
    exact parseAttribute_after h₁
  split at h
  · cases h
    exact .refl c
  · cases h

theorem parseModifiers_after {fuel : Nat} {c d : Tokens} {ms : List Modifier}
    (h : parseModifiers fuel c = .ok (ms, d)) : d.After c := by
  induction fuel generalizing c d ms with
  | zero => cases h
  | succ fuel ih =>
    obtain ⟨⟨m, c₁⟩, h₁, h⟩ := bind_eq_ok.mp h
    have hm := parseModifier_after h₁
    cases m with
    | none =>
      cases h
      exact hm
    | some m =>
      obtain ⟨⟨ms', c₂⟩, h₂, h⟩ := bind_eq_ok.mp h
      cases h
      exact (ih h₂).trans hm

theorem parseTypeRef_after {c d : Tokens} {t : TypeRef} (h : parseTypeRef c = .ok (t, d)) :
    d.After c := by
  obtain ⟨⟨n, c₁⟩, h₁, h⟩ := bind_eq_ok.mp h
  have hn := expectName_after h₁
  simp only at h
  split at h
  · obtain ⟨⟨_, c₂⟩, h₂, h⟩ := bind_eq_ok.mp h
    cases h
    exact (expect_after h₂).trans (c₁.after_advance.trans hn)
  · cases h
    exact hn

/-! ## Names of fields and blocks -/

theorem parseField_spec {fuel : Nat} {c d : Tokens} {f : FieldDecl} (hc : c.Filled)
    (h : parseField fuel c = .ok (f, d)) : d.After c ∧ f.name ≠ "" := by
  obtain ⟨⟨n, c₁⟩, h₁, h⟩ := bind_eq_ok.mp h
  obtain ⟨⟨_, c₂⟩, h₂, h⟩ := bind_eq_ok.mp h
  obtain ⟨⟨t, c₃⟩, h₃, h⟩ := bind_eq_ok.mp h
  obtain ⟨⟨ms, c₄⟩, h₄, h⟩ := bind_eq_ok.mp h
  cases h
  refine ⟨?_, expectName_filled hc h₁⟩
  exact (parseModifiers_after h₄).trans ((parseTypeRef_after h₃).trans
    ((expect_after h₂).trans (expectName_after h₁)))

theorem parseFields_spec {fuel : Nat} {c d : Tokens} {fs : List FieldDecl} (hc : c.Filled)
    (h : parseFields fuel c = .ok (fs, d)) : d.After c ∧ ∀ f ∈ fs, f.name ≠ "" := by
  induction fuel generalizing c d fs with
  | zero => cases h
  | succ fuel ih =>
    unfold parseFields at h
    split at h
    · cases h
      exact ⟨c.after_advance, by simp⟩
    · obtain ⟨hd, hfs⟩ := ih (hc.after c.after_advance) h
      exact ⟨hd.trans c.after_advance, hfs⟩
    · obtain ⟨⟨f, c₁⟩, h₁, h⟩ := bind_eq_ok.mp h
      obtain ⟨⟨fs', c₂⟩, h₂, h⟩ := bind_eq_ok.mp h
      cases h
      obtain ⟨ha, hf⟩ := parseField_spec hc h₁
      obtain ⟨hd, hfs⟩ := ih (hc.after ha) h₂
      exact ⟨hd.trans ha, List.forall_mem_cons.mpr ⟨hf, hfs⟩⟩

theorem parseEnumValues_after {fuel : Nat} {c d : Tokens} {vs : List EnumValue}
    (h : parseEnumValues fuel c = .ok (vs, d)) : d.After c := by
  induction fuel generalizing c d vs with
  | zero => cases h
  | succ fuel ih =>
    unfold parseEnumValues at h
    split at h
    case h_1 =>
      cases h
      exact c.after_advance
    case h_2 => exact (ih h).trans c.after_advance
    case h_3 | h_4 =>
      obtain ⟨⟨vs', c₁⟩, h₁, h⟩ := bind_eq_ok.mp h
      cases h
      exact (ih h₁).trans c.after_advance
    case h_5 => cases h

theorem parseWorkflowItems_after {fuel : Nat} {c d : Tokens}
    {items : List Property × List StepDecl} (h : parseWorkflowItems fuel c = .ok (items, d)) :
    d.After c := by
  induction fuel generalizing c d items with
  | zero => cases h
  | succ fuel ih =>
    unfold parseWorkflowItems at h
    split at h
    · cases h
      exact c.after_advance
    · exact (ih h).trans c.after_advance
    · simp only at h
      split at h
      · obtain ⟨⟨inputs, c₁⟩, h₁, h⟩ := bind_eq_ok.mp h
        obtain ⟨⟨⟨ps, ss⟩, c₂⟩, h₂, h⟩ := bind_eq_ok.mp h
        cases h
        exact (ih h₂).trans ((parseBody_after h₁).trans
          ((Tokens.after_advance _).trans c.after_advance))
      · obtain ⟨⟨p, c₁⟩, h₁, h⟩ := bind_eq_ok.mp h
        obtain ⟨⟨⟨ps, ss⟩, c₂⟩, h₂, h⟩ := bind_eq_ok.mp h
        cases h
        exact (ih h₂).trans ((values_after fuel).prop h₁)

/-- A block that takes a name has one, and so have the fields of an entity; a block of settings takes
none. -/
def Decl.Named : Decl → Prop
  | .entity d => d.name ≠ "" ∧ ∀ f ∈ d.fields, f.name ≠ ""
  | .enum d => d.name ≠ ""
  | .page d | .view d => d.name ≠ ""
  | .workflow d => d.name ≠ ""
  | .config _ => True

/-- Every block of the file has its names. -/
def File.Named (f : File) : Prop := ∀ d ∈ f.decls, d.Named

theorem parseNamedBlock_spec {fuel : Nat} {file : String} {what : Expected} {c d : Tokens}
    {b : BlockDecl} (hc : c.Filled) (h : parseNamedBlock fuel file what c = .ok (b, d)) :
    d.After c ∧ b.name ≠ "" := by
  obtain ⟨⟨n, c₁⟩, h₁, h⟩ := bind_eq_ok.mp h
  obtain ⟨⟨ps, c₂⟩, h₂, h⟩ := bind_eq_ok.mp h
  cases h
  refine ⟨?_, expectName_filled (hc.after c.after_advance) h₁⟩
  exact (parseBody_after h₂).trans ((expectName_after h₁).trans c.after_advance)

theorem parseDecl_spec {fuel : Nat} {file : String} {c d : Tokens} {decl : Decl} (hc : c.Filled)
    (h : parseDecl fuel file c = .ok (decl, d)) : d.After c ∧ decl.Named := by
  have hadv := hc.after c.after_advance
  revert h
  fun_cases parseDecl fuel file c with
  | case1 | case8 => exact nofun
  | case2 =>
    intro h
    obtain ⟨⟨n, c₁⟩, h₁, h⟩ := bind_eq_ok.mp h
    obtain ⟨⟨_, c₂⟩, h₂, h⟩ := bind_eq_ok.mp h
    obtain ⟨⟨fs, c₃⟩, h₃, h⟩ := bind_eq_ok.mp h
    cases h
    have hc₂ := (expect_after h₂).trans ((expectName_after h₁).trans c.after_advance)
    obtain ⟨hd, hfs⟩ := parseFields_spec (hc.after hc₂) h₃
    exact ⟨hd.trans hc₂, expectName_filled hadv h₁, hfs⟩
  | case3 =>
    intro h
    obtain ⟨⟨n, c₁⟩, h₁, h⟩ := bind_eq_ok.mp h
    obtain ⟨⟨_, c₂⟩, h₂, h⟩ := bind_eq_ok.mp h
    obtain ⟨⟨vs, c₃⟩, h₃, h⟩ := bind_eq_ok.mp h
    cases h
    have hc₂ := (expect_after h₂).trans ((expectName_after h₁).trans c.after_advance)
    exact ⟨(parseEnumValues_after h₃).trans hc₂, expectName_filled hadv h₁⟩
  | case4 | case5 =>
    intro h
    obtain ⟨⟨b, c₁⟩, h₁, h⟩ := bind_eq_ok.mp h
    cases h
    exact parseNamedBlock_spec hc h₁
  | case6 =>
    intro h
    obtain ⟨⟨n, c₁⟩, h₁, h⟩ := bind_eq_ok.mp h
    obtain ⟨⟨_, c₂⟩, h₂, h⟩ := bind_eq_ok.mp h
    obtain ⟨⟨⟨ps, ss⟩, c₃⟩, h₃, h⟩ := bind_eq_ok.mp h
    cases h
    have hc₂ := (expect_after h₂).trans ((expectName_after h₁).trans c.after_advance)
    exact ⟨(parseWorkflowItems_after h₃).trans hc₂, expectName_filled hadv h₁⟩
  | case7 t _ _ _ _ _ _ _ first name c₁ hname =>
    intro h
    obtain ⟨⟨ps, c₂⟩, h₁, h⟩ := bind_eq_ok.mp h
    cases h
    refine ⟨(parseBody_after h₁).trans ?_, trivial⟩
    split at hname <;> cases hname
    · exact (Tokens.after_advance _).trans c.after_advance
    · exact c.after_advance

theorem parseDecls_named {fuel : Nat} {file : String} {c d : Tokens} {ds : List Decl}
    (hc : c.Filled) (h : parseDecls fuel file c = .ok (ds, d)) : ∀ x ∈ ds, x.Named := by
  induction fuel generalizing c d ds with
  | zero => cases h
  | succ fuel ih =>
    unfold parseDecls at h
    split at h
    · cases h
      simp
    · obtain ⟨⟨x, c₁⟩, h₁, h⟩ := bind_eq_ok.mp h
      obtain ⟨⟨ds', c₂⟩, h₂, h⟩ := bind_eq_ok.mp h
      cases h
      obtain ⟨ha, hx⟩ := parseDecl_spec hc h₁
      exact List.forall_mem_cons.mpr ⟨hx, ih (hc.after ha) h₂⟩

theorem ofList_filled {ts : List Token} (h : NamesFilled ts) : (Tokens.ofList ts).Filled := by
  intro t ht
  rcases List.mem_cons.mp ht with rfl | ht
  · cases hl : ts.getLast? with
    | none => simp [Tokens.ofList, List.getLastD_eq_getLast?, hl, Token.none, Token.isName]
    | some u =>
      have hu : u ∈ ts := List.mem_of_getLast? hl
      simpa [Tokens.ofList, List.getLastD_eq_getLast?, hl] using h u hu
  · exact h t ht

/-- A parsed source has no empty names. -/
theorem parseSource_named {path : String} {source : List Rune} {f : File}
    (h : parseSource path source = .ok f) : f.Named := by
  unfold parseSource at h
  split at h
  · cases h
  next tokens hl =>
    split at h
    · cases h
    next g hg =>
      cases h
      obtain ⟨⟨ds, c⟩, hd, hg⟩ := bind_eq_ok.mp hg
      cases hg
      exact parseDecls_named (ofList_filled (lex_filled hl)) hd

end Scaffold.Source
