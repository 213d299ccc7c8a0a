import Mathlib.Tactic.Common
import Scaffold.Proofs.Source.Grammar

/-! # Derivations are unique

Two derivations that read the same tokens from the same place are the same derivation and stop at
the same place. What may follow a construct decides where it stops: a value ends before a token
that is neither a dot nor a parenthesis, a field before a comma, a brace or the next field. -/
namespace Scaffold.Source.Grammar

/-! ## First tokens -/

theorem Starts.append {p : Token → Prop} {ts : List Token} (h : Starts p ts) (us : List Token) :
    Starts p (ts ++ us) := by
  obtain ⟨t, rest, rfl, hp⟩ := h
  exact ⟨t, rest ++ us, rfl, hp⟩

theorem Starts.imp {p q : Token → Prop} {ts : List Token} (h : Starts p ts)
    (hpq : ∀ t, p t → q t) : Starts q ts := by
  obtain ⟨t, rest, rfl, hp⟩ := h
  exact ⟨t, rest, rfl, hpq t hp⟩

theorem starts_cons {p : Token → Prop} {t : Token} {ts : List Token} : Starts p (t :: ts) ↔ p t := by
  constructor
  · rintro ⟨u, rest, h, hp⟩
    obtain ⟨rfl, -⟩ := List.cons.inj h
    exact hp
  · exact fun hp => ⟨t, ts, rfl, hp⟩

theorem isName_iff {t : Token} : t.isName = true ↔ t.kind = .ident ∨ t.kind = .keyword := by
  simp [Token.isName]

/-- What may follow a value: anything that does not continue it. -/
def EndsValue (ts : List Token) : Prop := Starts (fun t => t.kind ≠ .dot ∧ t.kind ≠ .lparen) ts

theorem endsValue_cons {t : Token} {ts : List Token} {k : TokenKind} (ht : t.kind = k)
    (hk : k ≠ .dot ∧ k ≠ .lparen) : EndsValue (t :: ts) := starts_cons.mpr (ht ▸ hk)

/-- What may follow an item of a body. -/
def EndsItem (ts : List Token) : Prop :=
  Starts (fun t => t.kind = .comma ∨ t.kind = .rbrace ∨ t.isName = true) ts

theorem EndsItem.endsValue {ts : List Token} (h : EndsItem ts) : EndsValue ts := by
  refine h.imp fun t ht => ?_
  rcases ht with h | h | h
  · simp [h]
  · simp [h]
  · rcases isName_iff.mp h with h | h <;> simp [h]

/-! ## Bodies -/

/-- A reading of items that stops at one place only. -/
def Reads {α : Type} (f : α → List Token) (ends : List Token → Prop) (a : α) : Prop :=
  ∀ a' r r', ends r → ends r' → f a ++ r = f a' ++ r' → a = a' ∧ r = r'

section Body

variable {α : Type} {f : α → List Token} {ends : List Token → Prop}

theorem endsItem_body (hname : ∀ a, Starts (·.isName = true) (f a)) (b : Body α)
    (closing : Terminal .rbrace) (r : List Token) : EndsItem (b.tokens f ++ closing.1 :: r) := by
  cases b with
  | nil => exact starts_cons.mpr (.inr (.inl closing.2))
  | comma t rest => exact starts_cons.mpr (.inl t.2)
  | item a rest =>
    refine Starts.append (Starts.append ?_ _) _
    exact (hname a).imp fun t ht => .inr (.inr ht)

theorem body_unique (hname : ∀ a, Starts (·.isName = true) (f a))
    (hends : ∀ (b : Body α) (closing : Terminal .rbrace) r,
      ends (b.tokens f ++ closing.1 :: r))
    {b b' : Body α} (hreads : ∀ a ∈ b.items, Reads f ends a) {closing closing' : Terminal .rbrace}
    {r r' : List Token} (h : b.tokens f ++ closing.1 :: r = b'.tokens f ++ closing'.1 :: r') :
    b = b' ∧ closing = closing' ∧ r = r' := by
  have apart {t : Token} {a : α} {s s' : List Token} (ht : t.isName = false)
      (h : t :: s = f a ++ s') : False := by
    obtain ⟨u, rest, hu, hn⟩ := hname a
    rw [hu] at h
    obtain ⟨rfl, -⟩ := List.cons.inj h
    simp [ht] at hn
  have comma_apart (t : Terminal .comma) : t.1.isName = false := by simp [Token.isName, t.2]
  have brace_apart (t : Terminal .rbrace) : t.1.isName = false := by simp [Token.isName, t.2]
  induction b generalizing b' with
  | nil =>
    cases b' with
    | nil =>
      obtain ⟨ht, hr⟩ := List.cons.inj h
      exact ⟨rfl, Subtype.ext ht, hr⟩
    | comma t' rest' =>
      have ht := congrArg Token.kind (List.cons.inj h).1
      rw [closing.2, t'.2] at ht
      cases ht
    | item a' rest' =>
      simp only [Body.tokens, List.nil_append, List.append_assoc] at h
      exact (apart (brace_apart closing) h).elim
  | comma t rest ih =>
    cases b' with
    | nil =>
      have ht := congrArg Token.kind (List.cons.inj h).1
      rw [closing'.2, t.2] at ht
      cases ht
    | comma t' rest' =>
      obtain ⟨ht, hr⟩ := List.cons.inj h
      obtain ⟨rfl, hc, hr⟩ := ih hreads hr
      exact ⟨by rw [Subtype.ext ht], hc, hr⟩
    | item a' rest' =>
      simp only [Body.tokens, List.cons_append, List.append_assoc] at h
      exact (apart (comma_apart t) h).elim
  | item a rest ih =>
    have hr := hreads a (List.mem_cons_self ..)
    have hrest : ∀ x ∈ rest.items, Reads f ends x := fun x hx =>
      hreads x (List.mem_cons_of_mem _ hx)
    simp only [Body.tokens, List.append_assoc] at h
    cases b' with
    | nil =>
      simp only [Body.tokens, List.nil_append] at h
      exact (apart (brace_apart closing') h.symm).elim
    | comma t' rest' =>
      simp only [Body.tokens, List.cons_append] at h
      exact (apart (comma_apart t') h.symm).elim
    | item a' rest' =>
      simp only [Body.tokens, List.append_assoc] at h
      obtain ⟨rfl, hrest'⟩ := hr a' _ _ (hends rest closing r) (hends rest' closing' r') h
      obtain ⟨rfl, hc, hr⟩ := ih hrest hrest'
      exact ⟨rfl, hc, hr⟩

theorem braced_unique (hname : ∀ a, Starts (·.isName = true) (f a))
    (hends : ∀ (b : Body α) (closing : Terminal .rbrace) r,
      ends (b.tokens f ++ closing.1 :: r))
    {b b' : Braced α} (hreads : ∀ a ∈ b.items, Reads f ends a) {r r' : List Token}
    (h : b.tokens f ++ r = b'.tokens f ++ r') : b = b' ∧ r = r' := by
  obtain ⟨opening, body, closing⟩ := b
  obtain ⟨opening', body', closing'⟩ := b'
  simp only [Braced.tokens, List.cons_append, List.append_assoc, List.nil_append,
    List.cons.injEq] at h
  obtain ⟨ho, h⟩ := h
  obtain ⟨rfl, rfl, hr⟩ := body_unique hname hends hreads h
  rw [Subtype.ext ho]
  exact ⟨rfl, hr⟩

end Body

/-! ## Values -/

/-- The forms of a value. -/
inductive Form
  | string | number | negative | boolean | path | array | object | env | call
  deriving DecidableEq

def ValueTree.form : ValueTree → Form
  | .string _ => .string
  | .number _ => .number
  | .negative .. => .negative
  | .boolean _ => .boolean
  | .path .. => .path
  | .array .. => .array
  | .object _ => .object
  | .env .. => .env
  | .call .. => .call

/-- The form that the first two tokens announce. -/
def formOf : List Token → Option Form
  | [] => none
  | t :: rest =>
    match t.kind with
    | .string => some .string
    | .number => some .number
    | .minus => some .negative
    | .bool => some .boolean
    | .lbracket => some .array
    | .lbrace => some .object
    | .ident | .keyword =>
      if rest.head?.any (·.kind = .lparen) then
        if t.lexeme = "env" then some .env else some .call
      else some .path
    | _ => none

theorem formOf_name {t : Token} {rest : List Token} (ht : t.isName = true) :
    formOf (t :: rest) = if rest.head?.any (·.kind = .lparen) then
      if t.lexeme = "env" then some .env else some .call else some .path := by
  rcases isName_iff.mp ht with h | h <;> simp [formOf, h]

theorem formOf_tokens (d : ValueTree) {r : List Token} (hr : EndsValue r) :
    formOf (d.tokens ++ r) = some d.form := by
  cases d with
  | string t => simp [ValueTree.tokens, formOf, ValueTree.form, t.2]
  | number t => simp [ValueTree.tokens, formOf, ValueTree.form, t.2]
  | negative sign t => simp [ValueTree.tokens, formOf, ValueTree.form, sign.2]
  | boolean t => simp [ValueTree.tokens, formOf, ValueTree.form, t.2]
  | array opening items closing => simp [ValueTree.tokens, formOf, ValueTree.form, opening.2]
  | object block => simp [ValueTree.tokens, formOf, ValueTree.form, block.opening.2]
  | env word opening var closing =>
    simp [ValueTree.tokens, formOf_name word.1.2, ValueTree.form, opening.2, word.2]
  | call name opening args closing =>
    simp [ValueTree.tokens, formOf_name name.1.2, ValueTree.form, opening.2, name.2]
  | path head more =>
    have hnext : (pathTokens more ++ r).head?.any (·.kind = .lparen) = false := by
      cases more with
      | nil =>
        obtain ⟨t, rest, rfl, -, hp⟩ := hr
        simpa [pathTokens] using hp
      | cons p ps => simp [pathTokens, p.1.2]
    rw [ValueTree.tokens, List.cons_append, formOf_name head.2, hnext]
    rfl

/-- A value does not begin with a token that closes or separates. -/
theorem not_tokens_cons {d : ValueTree} {t : Token} {r r' : List Token}
    (ht : formOf (t :: r') = none) (hr : EndsValue r) : d.tokens ++ r ≠ t :: r' := by
  intro h
  have hd := formOf_tokens d hr
  rw [h, ht] at hd
  cases hd

theorem path_unique {more more' : List (Terminal .dot × Name)} {r r' : List Token}
    (hr : EndsValue r) (hr' : EndsValue r') (h : pathTokens more ++ r = pathTokens more' ++ r') :
    more = more' ∧ r = r' := by
  have stops {p : Terminal .dot × Name} {ps : List (Terminal .dot × Name)} {s s' : List Token}
      (hs : EndsValue s) (h : s = pathTokens (p :: ps) ++ s') : False := by
    subst h
    exact (starts_cons.mp hs).1 p.1.2
  induction more generalizing more' with
  | nil =>
    cases more' with
    | nil => exact ⟨rfl, h⟩
    | cons p ps => exact (stops hr h).elim
  | cons p ps ih =>
    cases more' with
    | nil => exact (stops hr' h.symm).elim
    | cons p' ps' =>
      simp only [pathTokens, List.cons_append, List.cons.injEq] at h
      obtain ⟨hd, hn, h⟩ := h
      obtain ⟨rfl, rfl⟩ := ih h
      exact ⟨by rw [Prod.ext (Subtype.ext hd) (Subtype.ext hn)], rfl⟩

theorem prop_starts (p : PropTree) : Starts (·.isName = true) p.tokens := by
  obtain ⟨key, colon, value⟩ := p
  exact ⟨key.1, _, rfl, key.2⟩

theorem Reads.mono {α : Type} {f : α → List Token} {ends stops : List Token → Prop} {a : α}
    (h : Reads f ends a) (hs : ∀ ts, stops ts → ends ts) : Reads f stops a := by
  intro a' r r' hr hr' he
  exact h a' r r' (hs r hr) (hs r' hr') he

theorem prop_reads {key : Name} {colon : Terminal .colon} {v : ValueTree}
    (h : Reads ValueTree.tokens EndsValue v) :
    Reads PropTree.tokens EndsValue (.mk key colon v) := by
  rintro ⟨key', colon', v'⟩ r r' hr hr' he
  simp only [PropTree.tokens, List.cons_append, List.cons.injEq] at he
  obtain ⟨hk, hc, he⟩ := he
  obtain ⟨rfl, rfl⟩ := h v' r r' hr hr' he
  exact ⟨by rw [Subtype.ext hk, Subtype.ext hc], rfl⟩

theorem length_le_of_mem_items {α : Type} {f : α → List Token} {b : Body α} {a : α}
    (h : a ∈ b.items) : (f a).length ≤ (b.tokens f).length := by
  induction b with
  | nil => cases h
  | comma t rest ih =>
    have := ih h
    simp only [Body.tokens, List.length_cons]
    omega
  | item x rest ih =>
    simp only [Body.tokens, List.length_append]
    rcases List.mem_cons.mp h with rfl | h
    · omega
    · have := ih h
      omega

/-- Values of fewer than `n` tokens have one derivation. -/
structure ValuesUnique (n : Nat) : Prop where
  value : ∀ d : ValueTree, d.tokens.length < n → Reads ValueTree.tokens EndsValue d
  items : ∀ i i' : ItemsTree, i.tokens.length < n → ∀ {k : TokenKind},
    k = .rbracket ∨ k = .rparen → ∀ {closing closing' : Terminal k} {r r' : List Token},
    i.tokens ++ closing.1 :: r = i'.tokens ++ closing'.1 :: r' →
      i = i' ∧ closing = closing' ∧ r = r'

/-- A property of a table has one derivation if values shorter than the table have one. -/
theorem ValuesUnique.props {n : Nat} (ih : ValuesUnique n) {block : Braced PropTree}
    (hd : (block.tokens PropTree.tokens).length < n + 1) :
    ∀ p ∈ block.items, Reads PropTree.tokens EndsItem p := by
  intro p hp
  have hlen := length_le_of_mem_items (f := PropTree.tokens) hp
  obtain ⟨key, colon, v⟩ := p
  have hv : v.tokens.length < n := by
    simp only [Braced.tokens, List.length_cons, List.length_append, PropTree.tokens] at hd hlen
    omega
  exact (prop_reads (ih.value v hv)).mono fun _ => EndsItem.endsValue

theorem value_unique_step {n : Nat} (ih : ValuesUnique n) (d : ValueTree)
    (hd : d.tokens.length < n + 1) : Reads ValueTree.tokens EndsValue d := by
  intro d' r r' hr hr' h
  have hform : d.form = d'.form := by
    have hf := formOf_tokens d hr
    rw [h, formOf_tokens d' hr'] at hf
    exact (Option.some.inj hf).symm
  cases d with
  | string t =>
    cases d' with
    | string t' =>
      simp only [ValueTree.tokens, List.cons_append, List.nil_append, List.cons.injEq] at h
      exact ⟨by rw [Subtype.ext h.1], h.2⟩
    | _ => cases hform
  | number t =>
    cases d' with
    | number t' =>
      simp only [ValueTree.tokens, List.cons_append, List.nil_append, List.cons.injEq] at h
      exact ⟨by rw [Subtype.ext h.1], h.2⟩
    | _ => cases hform
  | negative sign t =>
    cases d' with
    | negative sign' t' =>
      simp only [ValueTree.tokens, List.cons_append, List.nil_append, List.cons.injEq] at h
      exact ⟨by rw [Subtype.ext h.1, Subtype.ext h.2.1], h.2.2⟩
    | _ => cases hform
  | boolean t =>
    cases d' with
    | boolean t' =>
      simp only [ValueTree.tokens, List.cons_append, List.nil_append, List.cons.injEq] at h
      exact ⟨by rw [Subtype.ext h.1], h.2⟩
    | _ => cases hform
  | path head more =>
    cases d' with
    | path head' more' =>
      simp only [ValueTree.tokens, List.cons_append, List.cons.injEq] at h
      obtain ⟨rfl, rfl⟩ := path_unique hr hr' h.2
      exact ⟨by rw [Subtype.ext h.1], rfl⟩
    | _ => cases hform
  | array opening items closing =>
    cases d' with
    | array opening' items' closing' =>
      simp only [ValueTree.tokens, List.cons_append, List.append_assoc, List.nil_append,
        List.cons.injEq] at h
      have hlen : items.tokens.length < n := by
        simp only [ValueTree.tokens, List.length_cons, List.length_append] at hd
        omega
      obtain ⟨rfl, rfl, rfl⟩ := ih.items items items' hlen (.inl rfl) h.2
      exact ⟨by rw [Subtype.ext h.1], rfl⟩
    | _ => cases hform
  | object block =>
    cases d' with
    | object block' =>
      have htokens (b : Braced PropTree) :
          (ValueTree.object b).tokens = b.tokens PropTree.tokens := by
        rw [ValueTree.tokens, Braced.tokens, propsTokens_eq]
      rw [htokens] at hd
      have hreads := ih.props hd
      rw [htokens, htokens] at h
      obtain ⟨rfl, rfl⟩ := braced_unique prop_starts (endsItem_body prop_starts) hreads h
      exact ⟨rfl, rfl⟩
    | _ => cases hform
  | env word opening var closing =>
    cases d' with
    | env word' opening' var' closing' =>
      simp only [ValueTree.tokens, List.cons_append, List.nil_append, List.cons.injEq] at h
      obtain ⟨hw, ho, hv, hc, rfl⟩ := h
      rw [Subtype.ext (Subtype.ext hw), Subtype.ext ho, Subtype.ext hv, Subtype.ext hc]
      exact ⟨rfl, rfl⟩
    | _ => cases hform
  | call name opening args closing =>
    cases d' with
    | call name' opening' args' closing' =>
      simp only [ValueTree.tokens, List.cons_append, List.append_assoc, List.nil_append,
        List.cons.injEq] at h
      have hlen : args.tokens.length < n := by
        simp only [ValueTree.tokens, List.length_cons, List.length_append] at hd
        omega
      obtain ⟨rfl, rfl, rfl⟩ := ih.items args args' hlen (.inr rfl) h.2.2
      exact ⟨by rw [Subtype.ext (Subtype.ext h.1), Subtype.ext h.2.1], rfl⟩
    | _ => cases hform

/-- A token that ends a list of values begins no value. -/
theorem formOf_closing {k : TokenKind} (hk : k = .rbracket ∨ k = .rparen ∨ k = .comma)
    (t : Terminal k) (r : List Token) : formOf (t.1 :: r) = none := by
  rcases hk with rfl | rfl | rfl <;> simp [formOf, t.2]

theorem endsValue_closing {k : TokenKind} (hk : k = .rbracket ∨ k = .rparen ∨ k = .comma)
    (t : Terminal k) (r : List Token) : EndsValue (t.1 :: r) := by
  refine endsValue_cons t.2 ?_
  rcases hk with rfl | rfl | rfl <;> simp

theorem items_unique_step {n : Nat} (ih : ValuesUnique n) (i i' : ItemsTree)
    (hi : i.tokens.length < n + 1) {k : TokenKind} (hk : k = .rbracket ∨ k = .rparen)
    {closing closing' : Terminal k} {r r' : List Token}
    (h : i.tokens ++ closing.1 :: r = i'.tokens ++ closing'.1 :: r') :
    i = i' ∧ closing = closing' ∧ r = r' := by
  have hk' : k = .rbracket ∨ k = .rparen ∨ k = .comma := by
    rcases hk with h | h <;> simp [h]
  have hends (t : Terminal k) (s : List Token) : EndsValue (t.1 :: s) := endsValue_closing hk' t s
  have hcomma (t : Terminal .comma) (s : List Token) : EndsValue (t.1 :: s) :=
    endsValue_closing (.inr (.inr rfl)) t s
  have hnone (t : Terminal k) (s : List Token) : formOf (t.1 :: s) = none := formOf_closing hk' t s
  have apart {t : Terminal k} {u : Terminal .comma} {s s' : List Token}
      (h : t.1 :: s = u.1 :: s') : False := by
    have ht := congrArg Token.kind (List.cons.inj h).1
    rw [t.2, u.2] at ht
    rcases hk with rfl | rfl <;> cases ht
  cases i with
  | nil =>
    cases i' with
    | nil =>
      obtain ⟨hc, hr⟩ := List.cons.inj h
      exact ⟨rfl, Subtype.ext hc, hr⟩
    | last v' => exact (not_tokens_cons (hnone closing r) (hends closing' r') h.symm).elim
    | more v' comma' rest' =>
      simp only [ItemsTree.tokens, List.nil_append, List.append_assoc] at h
      exact (not_tokens_cons (hnone closing r) (hcomma comma' _) h.symm).elim
  | last v =>
    have hv := value_unique_step ih v hi
    simp only [ItemsTree.tokens] at h
    cases i' with
    | nil => exact (not_tokens_cons (hnone closing' r') (hends closing r) h).elim
    | last v' =>
      obtain ⟨rfl, hr⟩ := hv v' _ _ (hends closing r) (hends closing' r') h
      obtain ⟨hc, hr⟩ := List.cons.inj hr
      exact ⟨rfl, Subtype.ext hc, hr⟩
    | more v' comma' rest' =>
      simp only [ItemsTree.tokens, List.append_assoc, List.cons_append] at h
      exact (apart (hv v' _ _ (hends closing r) (hcomma comma' _) h).2).elim
  | more v comma rest =>
    simp only [ItemsTree.tokens, List.length_append, List.length_cons] at hi
    have hv := value_unique_step ih v (by omega)
    simp only [ItemsTree.tokens, List.append_assoc, List.cons_append] at h
    cases i' with
    | nil => exact (not_tokens_cons (hnone closing' r') (hcomma comma _) h).elim
    | last v' => exact (apart (hv v' _ _ (hcomma comma _) (hends closing' r') h).2.symm).elim
    | more v' comma' rest' =>
      simp only [ItemsTree.tokens, List.append_assoc, List.cons_append] at h
      obtain ⟨rfl, hr⟩ := hv v' _ _ (hcomma comma _) (hcomma comma' _) h
      obtain ⟨hc, hr⟩ := List.cons.inj hr
      obtain ⟨rfl, hclosing, hr⟩ := ih.items rest rest' (by omega) hk hr
      exact ⟨by rw [Subtype.ext hc], hclosing, hr⟩

theorem values_unique (n : Nat) : ValuesUnique n := by
  induction n with
  | zero =>
    constructor
    · intro d hd
      omega
    · intro i i' hi
      omega
  | succ n ih => exact ⟨value_unique_step ih, items_unique_step ih⟩

theorem value_unique (d : ValueTree) : Reads ValueTree.tokens EndsValue d :=
  (values_unique _).value d (Nat.lt_succ_self _)

theorem prop_unique (p : PropTree) : Reads PropTree.tokens EndsValue p := by
  obtain ⟨key, colon, v⟩ := p
  exact prop_reads (value_unique v)

theorem props_unique {b b' : Braced PropTree} {r r' : List Token}
    (h : b.tokens PropTree.tokens ++ r = b'.tokens PropTree.tokens ++ r') : b = b' ∧ r = r' :=
  braced_unique prop_starts (endsItem_body prop_starts)
    (fun p _ => (prop_unique p).mono fun _ => EndsItem.endsValue) h

/-! ## Fields -/

theorem endsValue_args (others : List (Terminal .comma × PropTree)) (closing : Terminal .rparen)
    (r : List Token) : EndsValue (ArgsTree.otherTokens others ++ closing.1 :: r) := by
  cases others with
  | nil => exact endsValue_closing (.inr (.inl rfl)) closing r
  | cons p ps => exact endsValue_closing (.inr (.inr rfl)) p.1 _

theorem otherArgs_unique {others others' : List (Terminal .comma × PropTree)}
    {closing closing' : Terminal .rparen} {r r' : List Token}
    (h : ArgsTree.otherTokens others ++ closing.1 :: r =
      ArgsTree.otherTokens others' ++ closing'.1 :: r') :
    others = others' ∧ closing = closing' ∧ r = r' := by
  have apart {t : Terminal .rparen} {u : Terminal .comma} {s s' : List Token}
      (h : t.1 :: s = u.1 :: s') : False := by
    have ht := congrArg Token.kind (List.cons.inj h).1
    rw [t.2, u.2] at ht
    cases ht
  induction others generalizing others' with
  | nil =>
    cases others' with
    | nil =>
      obtain ⟨hc, hr⟩ := List.cons.inj h
      exact ⟨rfl, Subtype.ext hc, hr⟩
    | cons p' ps' => exact (apart h).elim
  | cons p ps ih =>
    cases others' with
    | nil => exact (apart h.symm).elim
    | cons p' ps' =>
      simp only [ArgsTree.otherTokens, List.cons_append, List.append_assoc, List.cons.injEq] at h
      obtain ⟨hc, h⟩ := h
      obtain ⟨hp, h⟩ := prop_unique p.2 p'.2 _ _ (endsValue_args ps closing r)
        (endsValue_args ps' closing' r') h
      obtain ⟨rfl, hclosing, hr⟩ := ih h
      exact ⟨by rw [Prod.ext (Subtype.ext hc) hp], hclosing, hr⟩

theorem args_unique {args args' : Option ArgsTree} {closing closing' : Terminal .rparen}
    {r r' : List Token}
    (h : (args.map ArgsTree.tokens).getD [] ++ closing.1 :: r =
      (args'.map ArgsTree.tokens).getD [] ++ closing'.1 :: r') :
    args = args' ∧ closing = closing' ∧ r = r' := by
  have apart {t : Terminal .rparen} {a : ArgsTree} {s s' : List Token}
      (h : t.1 :: s = a.tokens ++ s') : False := by
    obtain ⟨u, rest, hu, hn⟩ := ((prop_starts a.first).append _).append s'
    rw [ArgsTree.tokens, hu] at h
    obtain ⟨rfl, -⟩ := List.cons.inj h
    simp [Token.isName, t.2] at hn
  cases args with
  | none =>
    cases args' with
    | none =>
      obtain ⟨hc, hr⟩ := List.cons.inj h
      exact ⟨rfl, Subtype.ext hc, hr⟩
    | some a' => exact (apart h).elim
  | some a =>
    cases args' with
    | none => exact (apart h.symm).elim
    | some a' =>
      obtain ⟨first, others⟩ := a
      obtain ⟨first', others'⟩ := a'
      simp only [Option.map_some, Option.getD_some, ArgsTree.tokens, List.append_assoc] at h
      obtain ⟨rfl, htail⟩ := prop_unique first first' _ _ (endsValue_args others closing r)
        (endsValue_args others' closing' r') h
      obtain ⟨rfl, hclosing, hr⟩ := otherArgs_unique htail
      exact ⟨rfl, hclosing, hr⟩

/-- The word that a modifier begins with; an attribute begins with none. -/
def ModifierTree.word : ModifierTree → Option String
  | primaryKey _ => some "primaryKey"
  | unique _ => some "unique"
  | optional _ => some "optional"
  | default .. => some "default"
  | attr .. => none

def wordOf : List Token → Option String
  | [] => none
  | t :: _ => if t.kind = .ident then some t.lexeme else none

theorem wordOf_tokens (m : ModifierTree) (r : List Token) : wordOf (m.tokens ++ r) = m.word := by
  cases m with
  | primaryKey t => simp [ModifierTree.tokens, wordOf, ModifierTree.word, t.2]
  | unique t => simp [ModifierTree.tokens, wordOf, ModifierTree.word, t.2]
  | optional t => simp [ModifierTree.tokens, wordOf, ModifierTree.word, t.2]
  | default word opening value closing =>
    simp [ModifierTree.tokens, wordOf, ModifierTree.word, word.2]
  | attr opening args closing => simp [ModifierTree.tokens, wordOf, ModifierTree.word, opening.2]

theorem modifier_unique {m m' : ModifierTree} {r r' : List Token}
    (h : m.tokens ++ r = m'.tokens ++ r') : m = m' ∧ r = r' := by
  have hword : m.word = m'.word := by rw [← wordOf_tokens m r, h, wordOf_tokens]
  cases m with
  | primaryKey t =>
    cases m' with
    | primaryKey t' =>
      obtain ⟨ht, hr⟩ := List.cons.inj h
      exact ⟨by rw [Subtype.ext ht], hr⟩
    | _ => simp [ModifierTree.word] at hword
  | unique t =>
    cases m' with
    | unique t' =>
      obtain ⟨ht, hr⟩ := List.cons.inj h
      exact ⟨by rw [Subtype.ext ht], hr⟩
    | _ => simp [ModifierTree.word] at hword
  | optional t =>
    cases m' with
    | optional t' =>
      obtain ⟨ht, hr⟩ := List.cons.inj h
      exact ⟨by rw [Subtype.ext ht], hr⟩
    | _ => simp [ModifierTree.word] at hword
  | default word opening value closing =>
    cases m' with
    | default word' opening' value' closing' =>
      simp only [ModifierTree.tokens, List.cons_append, List.append_assoc, List.nil_append,
        List.cons.injEq] at h
      obtain ⟨hw, ho, h⟩ := h
      have hends (t : Terminal .rparen) (s : List Token) : EndsValue (t.1 :: s) :=
        endsValue_closing (.inr (.inl rfl)) t s
      obtain ⟨rfl, htail⟩ := value_unique value value' _ _ (hends closing r) (hends closing' r') h
      obtain ⟨hc, hr⟩ := List.cons.inj htail
      exact ⟨by rw [Subtype.ext hw, Subtype.ext ho, Subtype.ext hc], hr⟩
    | _ => simp [ModifierTree.word] at hword
  | attr opening args closing =>
    cases m' with
    | attr opening' args' closing' =>
      simp only [ModifierTree.tokens, List.cons_append, List.append_assoc, List.nil_append,
        List.cons.injEq] at h
      obtain ⟨rfl, rfl, hr⟩ := args_unique h.2
      exact ⟨by rw [Subtype.ext h.1], hr⟩
    | _ => simp [ModifierTree.word] at hword

/-- What may follow a field: a comma, the closing brace or the name and colon of the next field. -/
def EndsField (ts : List Token) : Prop :=
  Starts (fun t => t.kind = .comma ∨ t.kind = .rbrace) ts ∨
    ∃ t u rest, ts = t :: u :: rest ∧ t.isName = true ∧ u.kind = .colon

/-- Neither a modifier nor the end of a field begins with a colon or a bracket. -/
theorem modifiers_starts (ms : List ModifierTree) {r : List Token} (hr : EndsField r) :
    Starts (fun t => t.kind ≠ .colon ∧ t.kind ≠ .lbracket)
      (ms.flatMap ModifierTree.tokens ++ r) := by
  cases ms with
  | nil =>
    rcases hr with h | ⟨t, u, rest, rfl, ht, -⟩
    · exact h.imp fun t ht => by rcases ht with h | h <;> simp [h]
    · refine starts_cons.mpr ?_
      rcases isName_iff.mp ht with h | h <;> simp [h]
  | cons m ms =>
    rw [List.flatMap_cons]
    refine Starts.append (Starts.append ?_ _) _
    cases m with
    | primaryKey t => exact starts_cons.mpr (by simp [t.2])
    | unique t => exact starts_cons.mpr (by simp [t.2])
    | optional t => exact starts_cons.mpr (by simp [t.2])
    | default word opening value closing => exact starts_cons.mpr (by simp [word.2])
    | attr opening args closing => exact starts_cons.mpr (by simp [opening.2])

theorem not_starts_colon (ms : List ModifierTree) {r : List Token} (hr : EndsField r) :
    ¬ Starts (·.kind = .colon) (ms.flatMap ModifierTree.tokens ++ r) := by
  intro h
  obtain ⟨t, rest, ht, hc, -⟩ := modifiers_starts ms hr
  rw [ht] at h
  exact hc (starts_cons.mp h)

theorem modifiersApart (ms : List ModifierTree) {r : List Token} (hr : EndsField r) :
    ModifiersApart ms r := by
  induction ms with
  | nil => trivial
  | cons m ms ih => exact ⟨fun _ => not_starts_colon ms hr, ih⟩

/-- A field does not end before a modifier. -/
theorem not_endsField_modifier (m : ModifierTree) {s : List Token}
    (hs : ¬ Starts (·.kind = .colon) s) : ¬ EndsField (m.tokens ++ s) := by
  have word {w : String} (t : Word w) (rest : List Token)
      (hrest : ¬ Starts (·.kind = .colon) rest) : ¬ EndsField (t.1 :: rest) := by
    rintro (h | ⟨u, v, tail, h, -, hv⟩)
    · simpa [t.2] using starts_cons.mp h
    · obtain ⟨-, rfl⟩ := List.cons.inj h
      exact hrest ⟨v, tail, rfl, hv⟩
  cases m with
  | primaryKey t => exact word t s hs
  | unique t => exact word t s hs
  | optional t => exact word t s hs
  | default w opening value closing =>
    refine word w _ fun h => ?_
    have := starts_cons.mp h
    simp [opening.2] at this
  | attr opening args closing =>
    rintro (h | ⟨u, v, tail, h, hu, -⟩)
    · simpa [opening.2] using starts_cons.mp h
    · obtain ⟨rfl, -⟩ := List.cons.inj h
      simp [Token.isName, opening.2] at hu

theorem modifiers_unique {ms ms' : List ModifierTree} {r r' : List Token} (hr : EndsField r)
    (hr' : EndsField r')
    (h : ms.flatMap ModifierTree.tokens ++ r = ms'.flatMap ModifierTree.tokens ++ r') :
    ms = ms' ∧ r = r' := by
  induction ms generalizing ms' with
  | nil =>
    cases ms' with
    | nil => exact ⟨rfl, h⟩
    | cons m' ms' =>
      simp only [List.flatMap_nil, List.nil_append, List.flatMap_cons, List.append_assoc] at h
      exact (not_endsField_modifier m' (not_starts_colon ms' hr') (h ▸ hr)).elim
  | cons m ms ih =>
    simp only [List.flatMap_cons, List.append_assoc] at h
    cases ms' with
    | nil => exact (not_endsField_modifier m (not_starts_colon ms hr) (h ▸ hr')).elim
    | cons m' ms' =>
      simp only [List.flatMap_cons, List.append_assoc] at h
      obtain ⟨rfl, htail⟩ := modifier_unique h
      obtain ⟨rfl, hrest⟩ := ih htail
      exact ⟨rfl, hrest⟩

theorem type_unique {t t' : TypeTree} {r r' : List Token}
    (hr : Starts (·.kind ≠ .lbracket) r) (hr' : Starts (·.kind ≠ .lbracket) r')
    (h : t.tokens ++ r = t'.tokens ++ r') : t = t' ∧ r = r' := by
  obtain ⟨name, brackets⟩ := t
  obtain ⟨name', brackets'⟩ := t'
  simp only [TypeTree.tokens, List.cons_append, List.cons.injEq] at h
  obtain ⟨hn, h⟩ := h
  rw [Subtype.ext hn]
  cases brackets with
  | none =>
    cases brackets' with
    | none => exact ⟨rfl, h⟩
    | some b' =>
      obtain rfl : r = b'.1.1 :: b'.2.1 :: r' := h
      exact (starts_cons.mp hr b'.1.2).elim
  | some b =>
    cases brackets' with
    | none =>
      obtain rfl : b.1.1 :: b.2.1 :: r = r' := h
      exact (starts_cons.mp hr' b.1.2).elim
    | some b' =>
      simp only [List.cons_append, List.nil_append, List.cons.injEq] at h
      rw [Prod.ext (Subtype.ext h.1) (Subtype.ext h.2.1)]
      exact ⟨rfl, h.2.2⟩

theorem field_unique (f : FieldTree) : Reads FieldTree.tokens EndsField f := by
  rintro ⟨name', colon', type', modifiers'⟩ r r' hr hr' h
  obtain ⟨name, colon, type, modifiers⟩ := f
  simp only [FieldTree.tokens, List.cons_append, List.append_assoc, List.cons.injEq] at h
  obtain ⟨hn, hc, h⟩ := h
  obtain ⟨rfl, htail⟩ := type_unique ((modifiers_starts modifiers hr).imp fun _ ht => ht.2)
    ((modifiers_starts modifiers' hr').imp fun _ ht => ht.2) h
  obtain ⟨rfl, hrest⟩ := modifiers_unique hr hr' htail
  exact ⟨by rw [Subtype.ext hn, Subtype.ext hc], hrest⟩

theorem field_starts (f : FieldTree) : Starts (·.isName = true) f.tokens :=
  ⟨f.name.1, _, rfl, f.name.2⟩

theorem endsField_body (b : Body FieldTree) (closing : Terminal .rbrace) (r : List Token) :
    EndsField (b.tokens FieldTree.tokens ++ closing.1 :: r) := by
  cases b with
  | nil => exact .inl (starts_cons.mpr (.inr closing.2))
  | comma t rest => exact .inl (starts_cons.mpr (.inl t.2))
  | item f rest => exact .inr ⟨f.name.1, f.colon.1, _, rfl, f.name.2, f.colon.2⟩

theorem fieldsApart (b : Body FieldTree) (closing : Terminal .rbrace) :
    FieldsApart b [closing.1] := by
  induction b with
  | nil => trivial
  | comma t rest ih => exact ih
  | item f rest ih => exact ⟨modifiersApart f.modifiers (endsField_body rest closing []), ih⟩

/-! ## Blocks -/

theorem item_starts (i : WorkflowItem) : Starts (·.isName = true) i.tokens := by
  cases i with
  | prop p => exact prop_starts p
  | step s => exact ⟨s.word.1, _, rfl, by simp [Token.isName, s.word.2]⟩

theorem item_unique (i : WorkflowItem) : Reads WorkflowItem.tokens EndsItem i := by
  -- the second token tells a property from a step
  have apart {p : PropTree} {s : StepTree} {r r' : List Token}
      (h : p.tokens ++ r = s.tokens ++ r') : False := by
    obtain ⟨key, colon, value⟩ := p
    simp only [PropTree.tokens, StepTree.tokens, List.cons_append, List.cons.injEq] at h
    have hn := s.action.2
    rw [← h.2.1] at hn
    simp [Token.isName, colon.2] at hn
  intro i' r r' hr hr' h
  cases i with
  | prop p =>
    cases i' with
    | prop p' =>
      obtain ⟨rfl, hrest⟩ := prop_unique p p' r r' hr.endsValue hr'.endsValue h
      exact ⟨rfl, hrest⟩
    | step s' => exact (apart h).elim
  | step s =>
    cases i' with
    | prop p' => exact (apart h.symm).elim
    | step s' =>
      obtain ⟨word, action, inputs⟩ := s
      obtain ⟨word', action', inputs'⟩ := s'
      simp only [WorkflowItem.tokens, StepTree.tokens, List.cons_append, List.cons.injEq] at h
      obtain ⟨hw, ha, h⟩ := h
      obtain ⟨rfl, hrest⟩ := props_unique h
      exact ⟨by rw [Subtype.ext hw, Subtype.ext ha], hrest⟩

/-- The word that a block begins with. -/
def DeclTree.word : DeclTree → String
  | entity .. => "entity"
  | enum .. => "enum"
  | page .. => "page"
  | view .. => "view"
  | workflow .. => "workflow"
  | config .. => "config"

theorem decl_starts (d : DeclTree) :
    Starts (fun t => t.kind = .keyword ∧ t.lexeme = d.word) d.tokens := by
  cases d with
  | entity keyword name block => exact starts_cons.mpr keyword.2
  | enum keyword name block => exact starts_cons.mpr keyword.2
  | page keyword name block => exact starts_cons.mpr keyword.2
  | view keyword name block => exact starts_cons.mpr keyword.2
  | workflow keyword name block => exact starts_cons.mpr keyword.2
  | config keyword name block => exact starts_cons.mpr keyword.2

theorem config_unique {name name' : Option Name} {block block' : Braced PropTree}
    {r r' : List Token}
    (h : (name.map fun t => t.1).toList ++ (block.tokens PropTree.tokens ++ r) =
      (name'.map fun t => t.1).toList ++ (block'.tokens PropTree.tokens ++ r')) :
    name = name' ∧ block = block' ∧ r = r' := by
  have apart {t : Name} {b : Braced PropTree} {s s' : List Token}
      (h : t.1 :: s = b.tokens PropTree.tokens ++ s') : False := by
    have hn := t.2
    rw [(List.cons.inj h).1] at hn
    simp [Token.isName, b.opening.2] at hn
  cases name with
  | none =>
    cases name' with
    | none => exact ⟨rfl, props_unique h⟩
    | some t' => exact (apart h.symm).elim
  | some t =>
    cases name' with
    | none => exact (apart h).elim
    | some t' =>
      obtain ⟨ht, h⟩ := List.cons.inj h
      exact ⟨by rw [Subtype.ext ht], props_unique h⟩

theorem decl_unique {d d' : DeclTree} {r r' : List Token} (h : d.tokens ++ r = d'.tokens ++ r') :
    d = d' ∧ r = r' := by
  have hword : d.word = d'.word := by
    obtain ⟨t, rest, ht, -, hd⟩ := (decl_starts d).append r
    obtain ⟨t', rest', ht', -, hd'⟩ := (decl_starts d').append r'
    rw [h, ht'] at ht
    rw [← hd, ← hd', (List.cons.inj ht).1]
  cases d with
  | entity keyword name block =>
    cases d' with
    | entity keyword' name' block' =>
      simp only [DeclTree.tokens, List.cons_append, List.cons.injEq] at h
      obtain ⟨rfl, hr⟩ := braced_unique field_starts endsField_body (fun f _ => field_unique f)
        h.2.2
      exact ⟨by rw [Subtype.ext h.1, Subtype.ext h.2.1], hr⟩
    | _ => simp [DeclTree.word] at hword
  | enum keyword name block =>
    cases d' with
    | enum keyword' name' block' =>
      simp only [DeclTree.tokens, List.cons_append, List.cons.injEq] at h
      have hreads (t : Name) : Reads (fun u : Name => [u.1]) (fun _ => True) t := by
        intro t' s s' _ _ ht
        exact ⟨Subtype.ext (List.cons.inj ht).1, (List.cons.inj ht).2⟩
      obtain ⟨rfl, hr⟩ := braced_unique (fun t => ⟨t.1, [], rfl, t.2⟩) (fun _ _ _ => trivial)
        (fun t _ => hreads t) h.2.2
      exact ⟨by rw [Subtype.ext h.1, Subtype.ext h.2.1], hr⟩
    | _ => simp [DeclTree.word] at hword
  | page keyword name block =>
    cases d' with
    | page keyword' name' block' =>
      simp only [DeclTree.tokens, List.cons_append, List.cons.injEq] at h
      obtain ⟨rfl, hr⟩ := props_unique h.2.2
      exact ⟨by rw [Subtype.ext h.1, Subtype.ext h.2.1], hr⟩
    | _ => simp [DeclTree.word] at hword
  | view keyword name block =>
    cases d' with
    | view keyword' name' block' =>
      simp only [DeclTree.tokens, List.cons_append, List.cons.injEq] at h
      obtain ⟨rfl, hr⟩ := props_unique h.2.2
      exact ⟨by rw [Subtype.ext h.1, Subtype.ext h.2.1], hr⟩
    | _ => simp [DeclTree.word] at hword
  | workflow keyword name block =>
    cases d' with
    | workflow keyword' name' block' =>
      simp only [DeclTree.tokens, List.cons_append, List.cons.injEq] at h
      obtain ⟨rfl, hr⟩ := braced_unique item_starts (endsItem_body item_starts)
        (fun i _ => item_unique i) h.2.2
      exact ⟨by rw [Subtype.ext h.1, Subtype.ext h.2.1], hr⟩
    | _ => simp [DeclTree.word] at hword
  | config keyword name block =>
    cases d' with
    | config keyword' name' block' =>
      simp only [DeclTree.tokens, List.cons_append, List.append_assoc, List.cons.injEq] at h
      obtain ⟨rfl, rfl, hr⟩ := config_unique h.2
      exact ⟨by rw [Subtype.ext h.1], hr⟩
    | _ => simp [DeclTree.word] at hword

theorem file_unique {d d' : FileTree} (h : d.tokens = d'.tokens) : d = d' := by
  have apart {x : DeclTree} {t : Terminal .eof} {s s' : List Token}
      (h : x.tokens ++ s = t.1 :: s') : False := by
    obtain ⟨u, rest, hu, hk, -⟩ := (decl_starts x).append s
    rw [hu] at h
    rw [(List.cons.inj h).1, t.2] at hk
    cases hk
  obtain ⟨decls, eof⟩ := d
  obtain ⟨decls', eof'⟩ := d'
  simp only [FileTree.tokens] at h
  induction decls generalizing decls' with
  | nil =>
    cases decls' with
    | nil => rw [Subtype.ext (List.cons.inj h).1]
    | cons x' xs' =>
      simp only [List.flatMap_nil, List.nil_append, List.flatMap_cons, List.append_assoc] at h
      exact (apart h.symm).elim
  | cons x xs ih =>
    simp only [List.flatMap_cons, List.append_assoc] at h
    cases decls' with
    | nil => exact (apart h).elim
    | cons x' xs' =>
      simp only [List.flatMap_cons, List.append_assoc] at h
      obtain ⟨rfl, htail⟩ := decl_unique h
      obtain ⟨rfl, rfl⟩ := FileTree.mk.inj (ih xs' htail)
      rfl

theorem fileApart (d : FileTree) : d.Apart := by
  intro x _
  cases x with
  | entity keyword name block => exact fieldsApart block.body block.closing
  | _ => trivial

end Scaffold.Source.Grammar
