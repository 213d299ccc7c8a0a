import Scaffold.Proofs.Source.Derived

/-! # How names are spelled

A name in a source is a run of letters, digits and underscores. The lexer makes name tokens of such
runs only, and every name of a parsed source is the text of a name token. -/
namespace Scaffold.Source

open Scaffold.Text (Rune)
open Scaffold.Source.Grammar

/-- Names among tokens are made of name characters. -/
def NamesSpelled (ts : List Token) : Prop :=
  ∀ t ∈ ts, t.isName = true → ∀ c ∈ t.lexeme.toList, isNamePart c = true

theorem span_chars (p : Char → Bool) (c : Cursor) : ∀ x ∈ (c.span p).1, p x = true := by
  intro x hx
  obtain ⟨r, hr, rfl⟩ := List.mem_map.mp hx
  exact List.all_eq_true.mp List.all_takeWhile r hr

theorem wordKind_ne_eof (word : String) : wordKind word ≠ .eof := by
  unfold wordKind
  split
  · decide
  split
  · decide
  · decide

theorem punctuation_ne_eof {c : Char} {k : TokenKind} (h : punctuation c = some k) :
    k ≠ .eof := by
  unfold punctuation at h
  split at h <;> cases h <;> decide

theorem scanToken_spelled {c c' : Cursor} {r : Rune} {t : Token}
    (h : scanToken c r = .ok (t, c')) :
    t.kind ≠ .eof ∧ (t.isName = true → ∀ x ∈ t.lexeme.toList, isNamePart x = true) := by
  unfold scanToken at h
  split at h
  · cases h
    refine ⟨wordKind_ne_eof _, fun _ x hx => span_chars isNamePart c x ?_⟩
    rwa [String.toList_ofList] at hx
  split at h
  · cases h
    exact ⟨by simp, by simp [Token.isName]⟩
  split at h
  · obtain ⟨⟨text, d⟩, -, h⟩ := bind_eq_ok.mp h
    cases h
    exact ⟨by simp, by simp [Token.isName]⟩
  split at h
  · simp only at h
    split at h
    · split at h
      · cases h
        exact ⟨by simp, by simp [Token.isName]⟩
      · cases h
    · cases h
  · split at h
    next k hk =>
      cases h
      refine ⟨punctuation_ne_eof hk, fun hn => ?_⟩
      rw [isName_punctuation hk] at hn
      cases hn
    next => cases h

/-- The tokens of a text end with the only end of input. -/
theorem lexFrom_spelled {fuel : Nat} {c : Cursor} {ts : List Token}
    (h : lexFrom fuel c = .ok ts) : EndsOnce ts ∧ NamesSpelled ts := by
  have hend (p : Pos) : EndsOnce [⟨.eof, "", p⟩] ∧ NamesSpelled [⟨.eof, "", p⟩] :=
    ⟨⟨[], _, rfl, rfl, by simp⟩, by simp [NamesSpelled, Token.isName]⟩
  induction fuel generalizing c ts with
  | zero =>
    cases h
    exact hend c.pos
  | succ fuel ih =>
    obtain ⟨d, -, h⟩ := bind_eq_ok.mp h
    split at h
    · cases h
      exact hend d.pos
    next r rest hd =>
      obtain ⟨⟨t, c'⟩, ht, h⟩ := bind_eq_ok.mp h
      obtain ⟨ts', hts, h⟩ := bind_eq_ok.mp h
      cases h
      obtain ⟨hkind, hname⟩ := scanToken_spelled ht
      obtain ⟨⟨body, last, rfl, hlast, hbody⟩, hnames⟩ := ih hts
      exact ⟨⟨t :: body, last, rfl, hlast, List.forall_mem_cons.mpr ⟨hkind, hbody⟩⟩,
        List.forall_mem_cons.mpr ⟨hname, hnames⟩⟩

/-- The name of a block is empty or the text of one of its tokens. -/
theorem name_decl (file : String) (d : DeclTree) :
    (d.decl file).name = "" ∨
      ∃ t ∈ d.tokens, t.isName = true ∧ (d.decl file).name = t.lexeme := by
  cases d with
  | entity keyword name block => exact .inr ⟨name.1, by simp [DeclTree.tokens], name.2, rfl⟩
  | enum keyword name block => exact .inr ⟨name.1, by simp [DeclTree.tokens], name.2, rfl⟩
  | page keyword name block => exact .inr ⟨name.1, by simp [DeclTree.tokens], name.2, rfl⟩
  | view keyword name block => exact .inr ⟨name.1, by simp [DeclTree.tokens], name.2, rfl⟩
  | workflow keyword name block => exact .inr ⟨name.1, by simp [DeclTree.tokens], name.2, rfl⟩
  | config keyword name block =>
    cases name with
    | none => exact .inl rfl
    | some name => exact .inr ⟨name.1, by simp [DeclTree.tokens], name.2, rfl⟩

/-- The blocks of a parsed source have names of letters, digits and underscores. -/
theorem parseSource_spelled {path : String} {source : List Rune} {f : File}
    (h : parseSource path source = .ok f) :
    ∀ d ∈ f.decls, ∀ c ∈ d.name.toList, isNamePart c = true := by
  unfold parseSource at h
  split at h
  · cases h
  next tokens hl =>
    split at h
    · cases h
    next g hg =>
      cases h
      obtain ⟨hends, hspelled⟩ := lexFrom_spelled hl
      obtain ⟨tree, rfl, rfl⟩ := derivation_of_parseTokens hends hg
      refine List.forall_mem_map.mpr fun d hd => ?_
      rcases name_decl path d with hempty | ⟨t, ht, hn, hname⟩
      · simp [hempty]
      · rw [hname]
        refine hspelled t ?_ hn
        exact List.mem_append_left _ (List.mem_flatMap.mpr ⟨d, hd, ht⟩)

end Scaffold.Source
