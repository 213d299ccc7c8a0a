import Scaffold.Proofs.Source.Names
import Scaffold.Proofs.Source.Spelling

/-! # Values of a source, and the values within them

A value may hold others, to any depth. Numbers and variables keep the form that the lexer gave them
wherever they stand, since every value of a parsed source is read off a derivation. -/
namespace Scaffold.Source

open Scaffold.Text (Rune isDigit)

/-! ## Parts of a value -/

mutual

/-- A value and all values inside of it. -/
def Value.parts : Value → List Value
  | .array elems p => .array elems p :: valuesParts elems
  | .object props p => .object props p :: membersParts props
  | .call name args p => .call name args p :: valuesParts args
  | .string text p => [.string text p]
  | .number raw p => [.number raw p]
  | .boolean value p => [.boolean value p]
  | .ident path p => [.ident path p]
  | .env var p => [.env var p]

def valuesParts : List Value → List Value
  | [] => []
  | v :: vs => v.parts ++ valuesParts vs

def membersParts : List (Entry Value) → List Value
  | [] => []
  | ⟨_, _, v⟩ :: ps => v.parts ++ membersParts ps

end

theorem mem_parts_self (v : Value) : v ∈ v.parts := by
  cases v <;> simp [Value.parts]

/-- The variables that a value refers to, at any depth. -/
def Value.variables (v : Value) : List String :=
  v.parts.filterMap fun
    | .env var _ => some var
    | _ => none

theorem mem_variables {v : Value} {var : String} :
    var ∈ v.variables ↔ ∃ p, Value.env var p ∈ v.parts := by
  simp only [Value.variables, List.mem_filterMap]
  constructor
  · rintro ⟨w, hw, hvar⟩
    cases w <;> cases hvar
    exact ⟨_, hw⟩
  · rintro ⟨p, hp⟩
    exact ⟨_, hp, rfl⟩

/-! ## Numbers and variables as they are spelled -/

/-- One digit or more. -/
def IsDigits (text : List Char) : Prop := text ≠ [] ∧ ∀ c ∈ text, isDigit c = true

/-- Digits, and perhaps more digits behind a point. -/
def IsNumeral (text : List Char) : Prop :=
  ∃ whole fraction, text = whole ++ fraction ∧ IsDigits whole ∧
    (fraction = [] ∨ ∃ digits, fraction = '.' :: digits ∧ IsDigits digits)

theorem IsNumeral.ne_nil {text : List Char} (h : IsNumeral text) : text ≠ [] := by
  obtain ⟨whole, fraction, rfl, hwhole, -⟩ := h
  exact List.append_ne_nil_of_left_ne_nil hwhole.1 fraction

theorem IsNumeral.chars {text : List Char} (h : IsNumeral text) :
    ∀ c ∈ text, isDigit c = true ∨ c = '.' := by
  obtain ⟨whole, fraction, rfl, hwhole, hfraction⟩ := h
  intro c hc
  rcases List.mem_append.mp hc with hc | hc
  · exact .inl (hwhole.2 c hc)
  · rcases hfraction with rfl | ⟨digits, rfl, hdigits⟩
    · cases hc
    · rcases List.mem_cons.mp hc with rfl | hc
      · exact .inr rfl
      · exact .inl (hdigits.2 c hc)

/-- A numeral, behind a minus or without. -/
def IsSigned (raw : String) : Prop :=
  IsNumeral raw.toList ∨ ∃ digits, raw.toList = '-' :: digits ∧ IsNumeral digits

/-- Numbers are numerals, after a sign perhaps, and variables have names. -/
def Value.IsSpelled : Value → Prop
  | .number raw _ =>
    IsNumeral raw.toList ∨ ∃ digits, raw.toList = '-' :: digits ∧ IsNumeral digits
  | .env var _ => var ≠ ""
  | _ => True

/-- The same of the tokens that values are read off. -/
structure Token.IsSpelled (t : Token) : Prop where
  name : t.isName = true → t.lexeme ≠ ""
  number : t.kind = .number → IsNumeral t.lexeme.toList

theorem scanNumber_numeral {c : Cursor} {r : Rune} {rest : List Rune} (hc : c.rest = r :: rest)
    (hr : isDigit r.char = true) : IsNumeral (scanNumber c).1 := by
  have hwhole : IsDigits (c.span isDigit).1 := ⟨span_ne_nil hc hr, span_chars isDigit c⟩
  simp only [scanNumber]
  split
  next hpoint =>
    simp only [Bool.and_eq_true] at hpoint
    have hfraction : IsDigits ((c.span isDigit).2.advance.span isDigit).1 := by
      cases hnext : (c.span isDigit).2.advance.rest with
      | nil => simp [Cursor.peek, hnext, isDigit] at hpoint
      | cons d ds =>
        refine ⟨span_ne_nil hnext ?_, span_chars isDigit _⟩
        simpa [Cursor.peek, hnext] using hpoint.2
    exact ⟨_, _, rfl, hwhole, .inr ⟨_, rfl, hfraction⟩⟩
  next => exact ⟨_, [], (List.append_nil _).symm, hwhole, .inl rfl⟩

theorem wordKind_ne_number (word : String) : wordKind word ≠ .number := by
  unfold wordKind
  split
  · decide
  split
  · decide
  · decide

theorem punctuation_ne_number {c : Char} {k : TokenKind} (h : punctuation c = some k) :
    k ≠ .number := by
  unfold punctuation at h
  split at h <;> cases h <;> decide

theorem scanToken_numeral {c c' : Cursor} {r : Rune} {rest : List Rune} {t : Token}
    (hc : c.rest = r :: rest) (h : scanToken c r = .ok (t, c')) (hk : t.kind = .number) :
    IsNumeral t.lexeme.toList := by
  unfold scanToken at h
  split at h
  · cases h
    exact absurd hk (wordKind_ne_number _)
  split at h
  next hr =>
    cases h
    rw [String.toList_ofList]
    exact scanNumber_numeral hc hr
  split at h
  · obtain ⟨⟨text, d⟩, -, h⟩ := bind_eq_ok.mp h
    cases h
    cases hk
  split at h
  · simp only at h
    split at h
    · split at h
      · cases h
        cases hk
      · cases h
    · cases h
  · split at h
    next k hpunct =>
      cases h
      exact absurd hk (punctuation_ne_number hpunct)
    next => cases h

theorem lexFrom_isSpelled {fuel : Nat} {c : Cursor} {ts : List Token}
    (h : lexFrom fuel c = .ok ts) : ∀ t ∈ ts, t.IsSpelled := by
  have hend (p : Pos) : ∀ t ∈ [(⟨.eof, "", p⟩ : Token)], t.IsSpelled := by
    intro t ht
    cases List.mem_singleton.mp ht
    exact ⟨by simp [Token.isName], by simp⟩
  induction fuel generalizing c ts with
  | zero =>
    cases h
    exact hend c.pos
  | succ fuel ih =>
    obtain ⟨d, -, h⟩ := bind_eq_ok.mp h
    split at h
    · cases h
      exact hend d.pos
    next r rest hd =>
      obtain ⟨⟨t, c'⟩, ht, h⟩ := bind_eq_ok.mp h
      obtain ⟨ts', hts, h⟩ := bind_eq_ok.mp h
      cases h
      exact List.forall_mem_cons.mpr
        ⟨⟨scanToken_filled hd ht, scanToken_numeral hd ht⟩, ih hts⟩

/-! ## Values read off a derivation -/

namespace Grammar

mutual

/-- The induction is on the derivation; what stands between two values takes tokens of its own. -/
theorem ValueTree.isSpelled : (v : ValueTree) → (∀ t ∈ v.tokens, t.IsSpelled) →
    ∀ w ∈ v.value.parts, w.IsSpelled
  | .string t, _ => by simp [ValueTree.value, Value.parts, Value.IsSpelled]
  | .number t, h => by
    have ht : t.1.IsSpelled := h t.1 (by simp [ValueTree.tokens])
    intro w hw
    simp only [ValueTree.value, Value.parts, List.mem_singleton] at hw
    rw [hw]
    exact .inl (ht.number t.2)
  | .negative sign t, h => by
    have ht : t.1.IsSpelled := h t.1 (by simp [ValueTree.tokens])
    intro w hw
    simp only [ValueTree.value, Value.parts, List.mem_singleton] at hw
    rw [hw]
    exact .inr ⟨_, by simp, ht.number t.2⟩
  | .boolean t, _ => by simp [ValueTree.value, Value.parts, Value.IsSpelled]
  | .path head more, _ => by simp [ValueTree.value, Value.parts, Value.IsSpelled]
  | .array opening items closing, h => by
    have hitems := items.isSpelled fun t ht => h t (by simp [ValueTree.tokens, ht])
    intro w hw
    rcases List.mem_cons.mp hw with rfl | hw
    · trivial
    · exact hitems w hw
  | .object ⟨opening, body, closing⟩, h => by
    have hprops := propsOf_isSpelled body fun t ht => h t (by simp [ValueTree.tokens, ht])
    intro w hw
    rcases List.mem_cons.mp hw with rfl | hw
    · trivial
    · exact hprops w hw
  | .env word opening var closing, h => by
    have hvar : var.1.IsSpelled := h var.1 (by simp [ValueTree.tokens])
    intro w hw
    simp only [ValueTree.value, Value.parts, List.mem_singleton] at hw
    rw [hw]
    exact hvar.name var.2
  | .call name opening args closing, h => by
    have hargs := args.isSpelled fun t ht => h t (by simp [ValueTree.tokens, ht])
    intro w hw
    rcases List.mem_cons.mp hw with rfl | hw
    · trivial
    · exact hargs w hw

theorem ItemsTree.isSpelled : (i : ItemsTree) → (∀ t ∈ i.tokens, t.IsSpelled) →
    ∀ w ∈ valuesParts i.values, w.IsSpelled
  | .nil, _ => by simp [ItemsTree.values, valuesParts]
  | .last v, h => by
    have hv := v.isSpelled fun t ht => h t (by simpa [ItemsTree.tokens] using ht)
    simpa [ItemsTree.values, valuesParts] using hv
  | .more v comma rest, h => by
    have hv := v.isSpelled fun t ht => h t (by simp [ItemsTree.tokens, ht])
    have hrest := rest.isSpelled fun t ht => h t (by simp [ItemsTree.tokens, ht])
    intro w hw
    rcases List.mem_append.mp hw with hw | hw
    · exact hv w hw
    · exact hrest w hw

theorem propsOf_isSpelled : (b : Body PropTree) → (∀ t ∈ propsTokens b, t.IsSpelled) →
    ∀ w ∈ membersParts (propsOf b), w.IsSpelled
  | .nil, _ => by simp [propsOf, membersParts]
  | .comma t rest, h => by
    have hrest := propsOf_isSpelled rest fun t ht => h t (by simp [propsTokens, ht])
    simpa only [propsOf] using hrest
  | .item (.mk key colon v) rest, h => by
    have hv := v.isSpelled fun t ht => h t (by simp [propsTokens, PropTree.tokens, ht])
    have hrest := propsOf_isSpelled rest fun t ht => h t (by simp [propsTokens, ht])
    intro w hw
    rcases List.mem_append.mp hw with hw | hw
    · exact hv w hw
    · exact hrest w hw

end

end Grammar

/-! ## Values of a source -/

def Modifier.values : Modifier → List Value
  | .default v => [v]
  | .attr a => a.args.map (·.value)
  | _ => []

/-- The values that stand in a block, each at its outermost. -/
def Decl.values : Decl → List Value
  | .entity d => d.fields.flatMap fun f => f.modifiers.flatMap Modifier.values
  | .enum _ => []
  | .page d | .view d | .config d => d.props.map (·.value)
  | .workflow d => d.props.map (·.value) ++ d.steps.flatMap fun s => s.inputs.map (·.value)

namespace Grammar

/-- A value that stands among tokens. -/
def StandsAmong (ts : List Token) (v : Value) : Prop :=
  ∃ tree : ValueTree, tree.value = v ∧ tree.tokens ⊆ ts

theorem StandsAmong.mono {ts us : List Token} {v : Value} (h : StandsAmong ts v) (hsub : ts ⊆ us) :
    StandsAmong us v := by
  obtain ⟨tree, hvalue, htokens⟩ := h
  exact ⟨tree, hvalue, List.Subset.trans htokens hsub⟩

theorem tokens_subset_of_mem {α : Type} {f : α → List Token} {b : Body α} {a : α}
    (h : a ∈ b.items) : f a ⊆ b.tokens f := by
  induction b with
  | nil => cases h
  | comma t rest ih => exact List.Subset.trans (ih h) (List.subset_cons_self _ _)
  | item x rest ih =>
    rcases List.mem_cons.mp h with rfl | h
    · exact List.subset_append_left _ _
    · exact List.Subset.trans (ih h) (List.subset_append_right _ _)

theorem Braced.tokens_subset_of_mem {α : Type} {f : α → List Token} {b : Braced α} {a : α}
    (h : a ∈ b.items) : f a ⊆ b.tokens f := by
  intro t ht
  simp [Braced.tokens, Grammar.tokens_subset_of_mem h ht]

theorem standsAmong_prop (p : PropTree) : StandsAmong p.tokens p.prop.value := by
  obtain ⟨key, colon, v⟩ := p
  exact ⟨v, by simp [PropTree.prop], fun t ht => by simp [PropTree.tokens, ht]⟩

theorem standsAmong_props {b : Braced PropTree} {v : Value}
    (h : v ∈ (b.items.map PropTree.prop).map (·.value)) :
    StandsAmong (b.tokens PropTree.tokens) v := by
  obtain ⟨prop, hprop, rfl⟩ := List.mem_map.mp h
  obtain ⟨p, hp, rfl⟩ := List.mem_map.mp hprop
  exact (standsAmong_prop p).mono (Braced.tokens_subset_of_mem hp)

theorem standsAmong_args {a : ArgsTree} {v : Value} (h : v ∈ a.props.map (·.value)) :
    StandsAmong a.tokens v := by
  have hother : ∀ others : List (Terminal .comma × PropTree), ∀ q ∈ others,
      q.2.tokens ⊆ ArgsTree.otherTokens others := by
    intro others
    induction others with
    | nil => simp
    | cons q qs ih =>
      refine List.forall_mem_cons.mpr ⟨fun t ht => ?_, fun r hr t ht => ?_⟩
      · simp [ArgsTree.otherTokens, ht]
      · simp [ArgsTree.otherTokens, ih r hr ht]
  obtain ⟨first, others⟩ := a
  obtain ⟨prop, hprop, rfl⟩ := List.mem_map.mp h
  rcases List.mem_cons.mp hprop with rfl | hprop
  · exact (standsAmong_prop first).mono (List.subset_append_left _ _)
  · obtain ⟨q, hq, rfl⟩ := List.mem_map.mp hprop
    exact (standsAmong_prop q.2).mono
      (List.Subset.trans (hother others q hq) (List.subset_append_right _ _))

theorem standsAmong_modifier {m : ModifierTree} {v : Value} (h : v ∈ m.modifier.values) :
    StandsAmong m.tokens v := by
  cases m with
  | primaryKey t => cases h
  | unique t => cases h
  | optional t => cases h
  | default word opening value closing =>
    cases List.mem_singleton.mp h
    exact ⟨value, rfl, fun t ht => by simp [ModifierTree.tokens, ht]⟩
  | attr opening args closing =>
    cases args with
    | none => cases h
    | some a =>
      refine (standsAmong_args h).mono fun t ht => ?_
      simp [ModifierTree.tokens, ht]

theorem standsAmong_decl (file : String) {d : DeclTree} {v : Value}
    (h : v ∈ (d.decl file).values) : StandsAmong d.tokens v := by
  cases d with
  | entity keyword name block =>
    obtain ⟨f, hf, hv⟩ := List.mem_flatMap.mp h
    obtain ⟨field, hfield, rfl⟩ := List.mem_map.mp hf
    obtain ⟨m, hm, hv⟩ := List.mem_flatMap.mp hv
    obtain ⟨modifier, hmodifier, rfl⟩ := List.mem_map.mp hm
    refine (standsAmong_modifier hv).mono fun t ht => ?_
    have hin : t ∈ field.tokens := by
      have hflat := List.mem_flatMap.mpr ⟨modifier, hmodifier, ht⟩
      simp [FieldTree.tokens, hflat]
    simp [DeclTree.tokens, Braced.tokens_subset_of_mem hfield hin]
  | enum keyword name block => cases h
  | page keyword name block | view keyword name block =>
    refine (standsAmong_props h).mono fun t ht => ?_
    simp [DeclTree.tokens, ht]
  | workflow keyword name block =>
    have hsub : block.tokens WorkflowItem.tokens ⊆
        (DeclTree.workflow keyword name block).tokens := fun t ht => by
      simp [DeclTree.tokens, ht]
    rcases List.mem_append.mp h with h | h
    · obtain ⟨prop, hprop, rfl⟩ := List.mem_map.mp h
      obtain ⟨item, hitem, hpick⟩ := List.mem_filterMap.mp hprop
      cases item with
      | prop p =>
        cases hpick
        exact (standsAmong_prop p).mono
          (List.Subset.trans (Braced.tokens_subset_of_mem (f := WorkflowItem.tokens) hitem) hsub)
      | step s => cases hpick
    · obtain ⟨step, hstep, hv⟩ := List.mem_flatMap.mp h
      obtain ⟨item, hitem, hpick⟩ := List.mem_filterMap.mp hstep
      cases item with
      | prop p => cases hpick
      | step s =>
        cases hpick
        have hinputs : s.inputs.tokens PropTree.tokens ⊆ s.tokens := fun t ht => by
          simp [StepTree.tokens, ht]
        have hitems := Braced.tokens_subset_of_mem (f := WorkflowItem.tokens) hitem
        exact (standsAmong_props hv).mono
          (List.Subset.trans hinputs (List.Subset.trans hitems hsub))
  | config keyword name block =>
    refine (standsAmong_props h).mono fun t ht => ?_
    simp [DeclTree.tokens, ht]

end Grammar

/-- Numbers and variables of a parsed source are spelled as the lexer reads them, at any depth. -/
theorem parseSource_values {path : String} {source : List Rune} {f : File}
    (h : parseSource path source = .ok f) :
    ∀ d ∈ f.decls, ∀ v ∈ d.values, ∀ w ∈ v.parts, w.IsSpelled := by
  unfold parseSource at h
  split at h
  · cases h
  next tokens hl =>
    split at h
    · cases h
    next g hg =>
      cases h
      obtain ⟨tree, rfl, rfl⟩ := Grammar.derivation_of_parseTokens (lexFrom_spelled hl).1 hg
      refine List.forall_mem_map.mpr fun d hd v hv => ?_
      obtain ⟨value, rfl, hsub⟩ := Grammar.standsAmong_decl path hv
      refine value.isSpelled fun t ht => lexFrom_isSpelled hl t ?_
      exact List.mem_append_left _ (List.mem_flatMap.mpr ⟨d, hd, hsub ht⟩)

end Scaffold.Source
