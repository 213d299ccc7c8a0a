import Scaffold.Proofs.Source.Progress

/-! # How far the parser can go

Every turn of a loop and every nested construct takes a unit of fuel. A loop that came back to the
tokens it started from would come back to them for ever and stall with any fuel. Where the last
token ends the input this does not happen: the fuel that a routine needs is bounded by the tokens
that are left, and what is given beyond it does not change the answer. -/
namespace Scaffold.Source

/-! ## More fuel -/

/-- What more fuel makes of an answer: it stays as it is, unless it was that fuel ran out. -/
def Settles {α : Type} (r r' : Except ParseError α) : Prop := r = .error .stalled ∨ r' = r

namespace Settles

variable {α β : Type} {r r' r'' : Except ParseError α}

theorem refl (r : Except ParseError α) : Settles r r := .inr rfl

theorem trans (h : Settles r r') (h' : Settles r' r'') : Settles r r'' := by
  rcases h with hr | rfl
  · exact .inl hr
  · exact h'

theorem bind {f f' : α → Except ParseError β} (h : Settles r r')
    (hf : ∀ x, Settles (f x) (f' x)) : Settles (r >>= f) (r' >>= f') := by
  rcases h with rfl | rfl
  · exact .inl rfl
  · cases r' with
    | error e => exact .refl _
    | ok x => exact hf x

/-- Fuel that is only handed on to the first of two parsers. -/
theorem andThen (h : Settles r r') (f : α → Except ParseError β) :
    Settles (r >>= f) (r' >>= f) := h.bind fun x => .refl (f x)

theorem ite {p : Prop} [Decidable p] {s s' : Except ParseError α} (h : Settles r r')
    (h' : Settles s s') : Settles (if p then r else s) (if p then r' else s') := by
  by_cases hp : p
  · rwa [if_pos hp, if_pos hp]
  · rwa [if_neg hp, if_neg hp]

end Settles

theorem pathTail_settles (fuel : Nat) (c : Tokens) :
    Settles (pathTail fuel c) (pathTail (fuel + 1) c) := by
  induction fuel generalizing c with
  | zero => exact .inl rfl
  | succ fuel ih =>
    rw [pathTail, pathTail]
    exact .ite (Settles.bind (.refl _) fun seg => (ih seg.2).andThen _) (.refl _)

/-- The routines that read values, with one unit of fuel more. -/
structure ValuesSettle (fuel : Nat) : Prop where
  value : ∀ c, Settles (parseValue fuel c) (parseValue (fuel + 1) c)
  items : ∀ close separator c, Settles (parseItems fuel close separator c)
    (parseItems (fuel + 1) close separator c)
  props : ∀ c, Settles (parseProps fuel c) (parseProps (fuel + 1) c)
  prop : ∀ c, Settles (parseProp fuel c) (parseProp (fuel + 1) c)

section Values

variable {fuel : Nat}

theorem parseValue_settles (ih : ValuesSettle fuel) (c : Tokens) :
    Settles (parseValue (fuel + 1) c) (parseValue (fuel + 1 + 1) c) := by
  rw [parseValue, parseValue]
  dsimp only
  cases c.peek.kind with
  | lbracket => exact (ih.items _ _ _).andThen _
  | lbrace => exact (ih.props _).andThen _
  | ident | keyword =>
    exact .ite (.ite (.refl _) ((ih.items _ _ _).andThen _)) ((pathTail_settles _ _).andThen _)
  | _ => exact .refl _

theorem parseItems_settles (ih : ValuesSettle fuel) (close : TokenKind) (separator : Expected)
    (c : Tokens) : Settles (parseItems (fuel + 1) close separator c)
      (parseItems (fuel + 1 + 1) close separator c) := by
  rw [parseItems, parseItems]
  refine .ite (.refl _) ((ih.value c).bind fun v => ?_)
  exact .ite ((ih.items _ _ _).andThen _) (.refl _)

theorem parseProps_settles (ih : ValuesSettle fuel) (c : Tokens) :
    Settles (parseProps (fuel + 1) c) (parseProps (fuel + 1 + 1) c) := by
  rw [parseProps, parseProps]
  cases c.kind with
  | rbrace => exact .refl _
  | comma => exact ih.props _
  | _ => exact (ih.prop c).bind fun p => (ih.props p.2).andThen _

theorem parseProp_settles (ih : ValuesSettle fuel) (c : Tokens) :
    Settles (parseProp (fuel + 1) c) (parseProp (fuel + 1 + 1) c) := by
  rw [parseProp, parseProp]
  refine Settles.bind (.refl _) fun key => ?_
  exact Settles.bind (.refl _) fun colon => (ih.value colon.2).andThen _

theorem values_settle (fuel : Nat) : ValuesSettle fuel := by
  induction fuel with
  | zero => exact ⟨fun _ => .inl rfl, fun _ _ _ => .inl rfl, fun _ => .inl rfl, fun _ => .inl rfl⟩
  | succ fuel ih =>
    exact ⟨parseValue_settles ih, parseItems_settles ih, parseProps_settles ih,
      parseProp_settles ih⟩

theorem parseBody_settles (fuel : Nat) (c : Tokens) :
    Settles (parseBody fuel c) (parseBody (fuel + 1) c) :=
  Settles.bind (.refl _) fun opening => (values_settle fuel).props opening.2

end Values

theorem attributeArgs_settles (fuel : Nat) (c : Tokens) :
    Settles (attributeArgs fuel c) (attributeArgs (fuel + 1) c) := by
  induction fuel generalizing c with
  | zero => exact .inl rfl
  | succ fuel ih =>
    rw [attributeArgs, attributeArgs]
    refine ((values_settle fuel).prop c).bind fun p => ?_
    obtain ⟨p, d⟩ := p
    dsimp only
    cases d.kind with
    | comma => exact (ih d.advance).andThen _
    | _ => exact .refl _

theorem parseAttribute_settles (fuel : Nat) (c : Tokens) :
    Settles (parseAttribute fuel c) (parseAttribute (fuel + 1) c) :=
  .ite (.refl _) ((attributeArgs_settles fuel _).andThen _)

theorem parseModifier_settles (fuel : Nat) (c : Tokens) :
    Settles (parseModifier fuel c) (parseModifier (fuel + 1) c) := by
  unfold parseModifier
  dsimp only
  cases (if c.peek.kind = .ident && (c.peekAt 1).kind ≠ .colon then plainModifier c.peek.lexeme
    else none) with
  | some m => exact .refl _
  | none =>
    refine .ite (((values_settle fuel).value _).andThen _) ?_
    exact .ite ((parseAttribute_settles fuel c).andThen _) (.refl _)

theorem parseModifiers_settles (fuel : Nat) (c : Tokens) :
    Settles (parseModifiers fuel c) (parseModifiers (fuel + 1) c) := by
  induction fuel generalizing c with
  | zero => exact .inl rfl
  | succ fuel ih =>
    rw [parseModifiers, parseModifiers]
    refine (parseModifier_settles fuel c).bind fun m => ?_
    obtain ⟨m, d⟩ := m
    cases m with
    | none => exact .refl _
    | some m => exact (ih d).andThen _

theorem parseField_settles (fuel : Nat) (c : Tokens) :
    Settles (parseField fuel c) (parseField (fuel + 1) c) := by
  refine Settles.bind (.refl _) fun name => Settles.bind (.refl _) fun colon => ?_
  exact Settles.bind (.refl _) fun type => (parseModifiers_settles fuel type.2).andThen _

theorem parseFields_settles (fuel : Nat) (c : Tokens) :
    Settles (parseFields fuel c) (parseFields (fuel + 1) c) := by
  induction fuel generalizing c with
  | zero => exact .inl rfl
  | succ fuel ih =>
    rw [parseFields, parseFields]
    cases c.kind with
    | rbrace => exact .refl _
    | comma => exact ih c.advance
    | _ => exact (parseField_settles fuel c).bind fun f => (ih f.2).andThen _

theorem parseEnumValues_settles (fuel : Nat) (c : Tokens) :
    Settles (parseEnumValues fuel c) (parseEnumValues (fuel + 1) c) := by
  induction fuel generalizing c with
  | zero => exact .inl rfl
  | succ fuel ih =>
    rw [parseEnumValues, parseEnumValues]
    cases c.kind with
    | comma => exact ih c.advance
    | ident | keyword => exact (ih c.advance).andThen _
    | _ => exact .refl _

theorem parseWorkflowItems_settles (fuel : Nat) (c : Tokens) :
    Settles (parseWorkflowItems fuel c) (parseWorkflowItems (fuel + 1) c) := by
  induction fuel generalizing c with
  | zero => exact .inl rfl
  | succ fuel ih =>
    rw [parseWorkflowItems, parseWorkflowItems]
    cases c.kind with
    | rbrace => exact .refl _
    | comma => exact ih c.advance
    | _ =>
      refine .ite ((parseBody_settles fuel _).bind fun inputs => (ih inputs.2).andThen _) ?_
      exact ((values_settle fuel).prop c).bind fun p => (ih p.2).andThen _

theorem parseNamedBlock_settles (fuel : Nat) (file : String) (what : Expected) (c : Tokens) :
    Settles (parseNamedBlock fuel file what c) (parseNamedBlock (fuel + 1) file what c) :=
  Settles.bind (.refl _) fun name => (parseBody_settles fuel name.2).andThen _

/-- A block with a name and braces hands its fuel on to what stands between the braces. -/
theorem braced_settles {α β : Type} {inside inside' : Tokens → Except ParseError (α × Tokens)}
    (h : ∀ d, Settles (inside d) (inside' d)) (what : Expected) (c : Tokens)
    (make : Token × Tokens → α × Tokens → Except ParseError (β × Tokens)) :
    Settles (expectName what c >>= fun name => expect .lbrace name.2 >>= fun opening =>
        inside opening.2 >>= make name)
      (expectName what c >>= fun name => expect .lbrace name.2 >>= fun opening =>
        inside' opening.2 >>= make name) :=
  Settles.bind (.refl _) fun _ => Settles.bind (.refl _) fun opening => (h opening.2).andThen _

theorem parseDecl_settles (fuel : Nat) (file : String) (c : Tokens) :
    Settles (parseDecl fuel file c) (parseDecl (fuel + 1) file c) := by
  refine .ite (.refl _) (.ite (braced_settles (parseFields_settles fuel) _ _ _) ?_)
  refine .ite (braced_settles (parseEnumValues_settles fuel) _ _ _) ?_
  refine .ite ((parseNamedBlock_settles fuel file _ c).andThen _) ?_
  refine .ite ((parseNamedBlock_settles fuel file _ c).andThen _) ?_
  refine .ite (braced_settles (parseWorkflowItems_settles fuel) _ _ _) ?_
  exact .ite ((parseBody_settles fuel _).andThen _) (.refl _)

theorem parseDecls_settles (fuel : Nat) (file : String) (c : Tokens) :
    Settles (parseDecls fuel file c) (parseDecls (fuel + 1) file c) := by
  induction fuel generalizing c with
  | zero => exact .inl rfl
  | succ fuel ih =>
    rw [parseDecls, parseDecls]
    exact .ite (.refl _) ((parseDecl_settles fuel file c).bind fun d => (ih d.2).andThen _)

/-- The routines that read formulas, with one unit of fuel more. -/
structure FormulasSettle (fuel : Nat) : Prop where
  sum : ∀ c, Settles (parseSum fuel c) (parseSum (fuel + 1) c)
  sumTail : ∀ left c, Settles (parseSumTail fuel left c) (parseSumTail (fuel + 1) left c)
  product : ∀ c, Settles (parseProduct fuel c) (parseProduct (fuel + 1) c)
  productTail : ∀ left c,
    Settles (parseProductTail fuel left c) (parseProductTail (fuel + 1) left c)
  operand : ∀ c, Settles (parseOperand fuel c) (parseOperand (fuel + 1) c)

section Formulas

variable {fuel : Nat}

theorem parseSumTail_settles (ih : FormulasSettle fuel) (left : Formula) (c : Tokens) :
    Settles (parseSumTail (fuel + 1) left c) (parseSumTail (fuel + 1 + 1) left c) := by
  rw [parseSumTail, parseSumTail]
  cases additiveOp c.kind with
  | none => exact .refl _
  | some op => exact (ih.product _).bind fun right => ih.sumTail _ right.2

theorem parseProductTail_settles (ih : FormulasSettle fuel) (left : Formula) (c : Tokens) :
    Settles (parseProductTail (fuel + 1) left c) (parseProductTail (fuel + 1 + 1) left c) := by
  rw [parseProductTail, parseProductTail]
  cases multiplicativeOp c.kind with
  | none => exact .refl _
  | some op => exact (ih.operand _).bind fun right => ih.productTail _ right.2

theorem parseOperand_settles (ih : FormulasSettle fuel) (c : Tokens) :
    Settles (parseOperand (fuel + 1) c) (parseOperand (fuel + 1 + 1) c) := by
  rw [parseOperand, parseOperand]
  dsimp only
  cases c.peek.kind with
  | lparen => exact (ih.sum _).andThen _
  | minus => exact .ite (.refl _) ((ih.operand _).andThen _)
  | _ => exact .refl _

theorem formulas_settle (fuel : Nat) : FormulasSettle fuel := by
  induction fuel with
  | zero =>
    exact ⟨fun _ => .inl rfl, fun _ _ => .inl rfl, fun _ => .inl rfl, fun _ _ => .inl rfl,
      fun _ => .inl rfl⟩
  | succ fuel ih =>
    refine ⟨fun c => ?_, parseSumTail_settles ih, fun c => ?_, parseProductTail_settles ih,
      parseOperand_settles ih⟩
    · rw [parseSum, parseSum]
      exact (ih.product c).bind fun left => ih.sumTail left.1 left.2
    · rw [parseProduct, parseProduct]
      exact (ih.operand c).bind fun left => ih.productTail left.1 left.2

end Formulas

/-! ## Enough fuel -/

/-- A routine at `c` ends. More than `need` units of fuel are enough for it: it does not stall,
where it succeeds it leaves `least` tokens less at least, and its answer is the same for all such
fuel. -/
structure Ends {α : Type} (run : Nat → Except ParseError (α × Tokens)) (need least : Nat)
    (c : Tokens) : Prop where
  takes : ∀ fuel, need < fuel → Takes least c (run fuel)
  same : ∀ fuel fuel', need < fuel → need < fuel' → run fuel = run fuel'

theorem settles_add {α : Type} {run : Nat → Except ParseError α}
    (h : ∀ fuel, Settles (run fuel) (run (fuel + 1))) (fuel more : Nat) :
    Settles (run fuel) (run (fuel + more)) := by
  induction more with
  | zero => exact .refl _
  | succ more ih => exact ih.trans (h (fuel + more))

/-- Fuel that is enough, and one unit more that leaves the answer as it is. -/
theorem Ends.of_settles {α : Type} {run : Nat → Except ParseError (α × Tokens)} {need least : Nat}
    {c : Tokens} (htakes : ∀ fuel, need < fuel → Takes least c (run fuel))
    (hstep : ∀ fuel, Settles (run fuel) (run (fuel + 1))) : Ends run need least c := by
  have hfirst (fuel : Nat) (hfuel : need < fuel) : run fuel = run (need + 1) := by
    obtain ⟨more, rfl⟩ := Nat.exists_eq_add_of_le (Nat.succ_le_of_lt hfuel)
    refine (settles_add hstep (need + 1) more).resolve_left ?_
    exact (htakes (need + 1) (Nat.lt_succ_self need)).ne_stalled
  exact ⟨htakes, fun fuel fuel' h h' => (hfirst fuel h).trans (hfirst fuel' h').symm⟩

/-- All loops and all nested constructs of the parser end at `c`, and what a loop reads in one turn
takes a token. What begins with a token of its own fails when no token is left; what may be empty
then leaves the tokens as they are. -/
structure RoutinesEnd (c : Tokens) : Prop where
  decls : ∀ file, Ends (parseDecls · file c) (2 * c.rest.length + 1) 0 c
  decl : ∀ file, Ends (parseDecl · file c) (2 * c.rest.length) 1 c
  fields : Ends (parseFields · c) (2 * c.rest.length + 1) 1 c
  field : Ends (parseField · c) (2 * c.rest.length) 1 c
  modifiers : Ends (parseModifiers · c) (2 * c.rest.length + 1) 0 c
  modifier : ∀ fuel, 2 * c.rest.length < fuel →
    parseModifier fuel c = .ok (none, c) ∨ Takes 1 c (parseModifier fuel c)
  arguments : Ends (attributeArgs · c) (2 * c.rest.length + 1) 1 c
  enumValues : Ends (parseEnumValues · c) c.rest.length 1 c
  workflowItems : Ends (parseWorkflowItems · c) (2 * c.rest.length + 1) 1 c
  body : Ends (parseBody · c) (2 * c.rest.length) 1 c
  props : Ends (parseProps · c) (2 * c.rest.length + 1) 1 c
  prop : Ends (parseProp · c) (2 * c.rest.length) 1 c
  value : Ends (parseValue · c) (2 * c.rest.length) 1 c
  items : ∀ close separator, close ≠ .eof →
    Ends (parseItems · close separator c) (2 * c.rest.length + 1) 1 c
  path : Ends (pathTail · c) c.rest.length 0 c
  sum : Ends (parseSum · c) (3 * c.rest.length + 2) 1 c
  sumTail : ∀ left, Ends (parseSumTail · left c) (3 * c.rest.length) 0 c
  product : Ends (parseProduct · c) (3 * c.rest.length + 1) 1 c
  productTail : ∀ left, Ends (parseProductTail · left c) (3 * c.rest.length) 0 c
  operand : Ends (parseOperand · c) (3 * c.rest.length) 1 c

theorem routinesEnd {c : Tokens} (hc : c.last.kind = .eof) : RoutinesEnd c where
  decls file := .of_settles (fun _ h => parseDecls_takes file hc h) (parseDecls_settles · file c)
  decl file := .of_settles (fun _ h => parseDecl_takes file hc h) (parseDecl_settles · file c)
  fields := .of_settles (fun _ h => parseFields_takes hc h) (parseFields_settles · c)
  field := .of_settles (fun _ h => parseField_takes hc h) (parseField_settles · c)
  modifier _ h := parseModifier_takes hc (Nat.lt_succ_of_lt h)
  modifiers := .of_settles (fun _ h => parseModifiers_takes hc h) (parseModifiers_settles · c)
  arguments := .of_settles (fun _ h => attributeArgs_takes hc h) (attributeArgs_settles · c)
  enumValues := .of_settles (fun _ h => parseEnumValues_takes hc h) (parseEnumValues_settles · c)
  workflowItems :=
    .of_settles (fun _ h => parseWorkflowItems_takes hc h) (parseWorkflowItems_settles · c)
  body := .of_settles (fun _ h => parseBody_takes hc h) (parseBody_settles · c)
  props := .of_settles (fun fuel h => (values_take fuel).props hc h)
    fun fuel => (values_settle fuel).props c
  prop := .of_settles (fun fuel h => (values_take fuel).prop hc h)
    fun fuel => (values_settle fuel).prop c
  value := .of_settles (fun fuel h => (values_take fuel).value hc h)
    fun fuel => (values_settle fuel).value c
  items close separator hne :=
    .of_settles (fun fuel h => (values_take fuel).items separator hne hc h)
      fun fuel => (values_settle fuel).items close separator c
  path := .of_settles (fun _ h => pathTail_takes hc h) (pathTail_settles · c)
  sum := .of_settles (fun fuel h => (formulas_take fuel).sum hc h)
    fun fuel => (formulas_settle fuel).sum c
  sumTail left := .of_settles (fun fuel h => (formulas_take fuel).sumTail left hc h)
    fun fuel => (formulas_settle fuel).sumTail left c
  product := .of_settles (fun fuel h => (formulas_take fuel).product hc h)
    fun fuel => (formulas_settle fuel).product c
  productTail left := .of_settles (fun fuel h => (formulas_take fuel).productTail left hc h)
    fun fuel => (formulas_settle fuel).productTail left c
  operand := .of_settles (fun fuel h => (formulas_take fuel).operand hc h)
    fun fuel => (formulas_settle fuel).operand c

/-! ## Past the end -/

/-- Where no token is left and the last one is a comma, there is always one more comma to pass over:
a loop that does so stalls with any fuel. -/
theorem commas_stall {c : Tokens} (hrest : c.rest = []) (hlast : c.last.kind = .comma)
    (fuel : Nat) : parseProps fuel c = .error .stalled ∧ parseFields fuel c = .error .stalled ∧
      parseEnumValues fuel c = .error .stalled ∧ parseWorkflowItems fuel c = .error .stalled := by
  obtain ⟨rest, last⟩ := c
  subst hrest
  have hkind : Tokens.kind ⟨[], last⟩ = .comma := hlast
  have hsame : Tokens.advance ⟨[], last⟩ = ⟨[], last⟩ := rfl
  induction fuel with
  | zero => exact ⟨rfl, rfl, rfl, rfl⟩
  | succ fuel ih =>
    rw [parseProps, parseFields, parseEnumValues, parseWorkflowItems]
    simpa only [hkind, hsame] using ih

/-- A block that is cut off behind a comma, without the end of input. -/
example : parseTokens "" [⟨.keyword, "page", .start⟩, ⟨.ident, "A", .start⟩,
    ⟨.lbrace, "\x7b", .start⟩, ⟨.comma, ",", .start⟩] = .error .stalled := rfl

/-! ## Sources and formulas -/

/-- Parsing always ends. Tokens the last of which ends the input have an answer, and more fuel does
not change it; the tokens of every text are of this kind, so every source and every formula has an
answer as well. From any place in such tokens all loops and nested constructs of the parser end, and
none of them goes on without taking a token. -/
theorem parsing_ends :
    (∀ (file : String) (tokens : List Token), (tokens.getLastD Token.none).kind = .eof →
      parseTokens file tokens ≠ .error .stalled ∧
      ∀ fuel, 2 * tokens.length + 1 < fuel →
        (do
          let (decls, _) ← parseDecls fuel file (.ofList tokens)
          .ok ⟨file, decls⟩) = parseTokens file tokens) ∧
    (∀ (source : List Text.Rune) (tokens : List Token), lex source = .ok tokens →
      (tokens.getLastD Token.none).kind = .eof) ∧
    (∀ (path file : String) (source : List Text.Rune),
      parseSource path source ≠ .error ⟨file, .structural .stalled⟩ ∧
      parseFormula source ≠ .error ⟨file, .structural .stalled⟩) ∧
    ∀ c : Tokens, c.last.kind = .eof → RoutinesEnd c := by
  refine ⟨fun file tokens hlast => ?_, fun source tokens hl => ofList_ended (lexFrom_spelled hl).1,
    fun path file source => ⟨parseSource_ne_stalled path file source,
      parseFormula_ne_stalled file source⟩, fun c => routinesEnd⟩
  have hends := (routinesEnd (c := .ofList tokens) hlast).decls file
  have hfuel : 2 * tokens.length + 1 < parseFuel tokens.length := by
    rw [parseFuel]
    omega
  refine ⟨fun hstalled => ?_, fun fuel h => ?_⟩
  · rcases bind_eq_error.mp hstalled with herr | ⟨p, -, hok⟩
    · exact (hends.takes _ hfuel).ne_stalled herr
    · cases hok
  · rw [parseTokens, hends.same fuel (parseFuel tokens.length) h hfuel]

/-- Lists in a list in a call, all of them cut off by the end of input, which stands there twice. -/
def cutOff : List Token :=
  [⟨.keyword, "config", .start⟩, ⟨.lbrace, "\x7b", .start⟩, ⟨.ident, "name", .start⟩,
    ⟨.colon, ":", .start⟩, ⟨.ident, "f", .start⟩, ⟨.lparen, "(", .start⟩,
    ⟨.lbracket, "[", .start⟩, ⟨.lbracket, "[", .start⟩, ⟨.eof, "", .start⟩, ⟨.eof, "", .start⟩]

theorem cutOff_ends : (cutOff.getLastD Token.none).kind = .eof ∧
    parseTokens "" cutOff = .error (.mismatch .value ⟨.eof, "", .start⟩) ∧
    parseTokens "" cutOff ≠ .error .stalled ∧ RoutinesEnd (.ofList cutOff) :=
  ⟨rfl, rfl, (parsing_ends.1 "" cutOff rfl).1, parsing_ends.2.2.2 (.ofList cutOff) rfl⟩

end Scaffold.Source
