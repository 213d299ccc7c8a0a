import Scaffold.Proofs.Check.Typing
import Scaffold.Proofs.Code.Layout
import Scaffold.Proofs.Server.Resolvers
import Scaffold.Proofs.Unguarded.Server

/-! # Resolvers read back

The value of a resolver is written as a text. Read as code, it is the formula that it was made
from: the same operations on the same operands in the same order, with members in place of fields
and conversions around some operands. That holds for the text as it is put together and for the
text as it is laid out, provided that the members are names of the code: a field whose name has no
letter, or a digit before its first one, has a member that is none. -/
namespace Scaffold.Server

open Scaffold.Model Scaffold.Code
open Scaffold.Source (Operator IsSigned)
open Scaffold.Storage (Table plan)
open Scaffold.Text (quoted)

/-! ## Formulas as code -/

/-- Values of these kinds are texts. -/
def isText (kind : TypeKind) : Bool := kind = .string || kind = .text

theorem isText_eq_false {kind : TypeKind} (hstring : kind ≠ .string) (htext : kind ≠ .text) :
    isText kind = false := by
  simp [isText, hstring, htext]

/-- Code is the tree of a formula, in a text or elsewhere: fields are members of the record, a
number in a text is quoted, and any part may be converted. -/
inductive Renders : (inText : Bool) → Expr → Expression → Prop
  | field {inText : Bool} (name : String) :
    Renders inText (.field name) (.select (.name "r") (fieldMember name))
  | string {inText : Bool} (value : String) :
    Renders inText (.literal .string value) (.literal (quoted value))
  | number {kind : TypeKind} (raw : String) : kind ≠ .string →
    Renders false (.literal kind raw) (.literal raw)
  | digits (kind : TypeKind) (raw : String) :
    Renders true (.literal kind raw) (.literal (quoted raw))
  | binary {inText : Bool} {op : Operator} {left right : Expr} {kind : TypeKind}
    {l r : Expression} : Renders (isText kind) left l → Renders (isText kind) right r →
    Renders inText (.binary op left right kind) (.binary op l r)
  | converted {inText : Bool} {e : Expr} {c : Expression} (conversion : Conversion) :
    Renders inText e c → Renders inText e (conversion.apply c)

/-- The text of a term before it is laid out. -/
theorem layout_termText (t : Term) : Layout t (Unguarded.termText t).toList := by
  induction t with
  | field name => simpa [Unguarded.termText] using Layout.field name
  | number raw => exact .number raw
  | text value => exact .text value
  | call function arg more ih =>
    have h := Layout.call function more ih
    simpa [Unguarded.termText, toList_intercalate, -String.toList_intercalate] using h
  | method target name arg ih =>
    have h := Layout.method name arg ih
    simpa [Unguarded.termText] using h
  | parens inner ih =>
    have h := Layout.parens ih
    simpa [Unguarded.termText] using h
  | binary op left right ihl ihr =>
    have h := @Layout.binary op left right _ _ [' '] (.inl rfl) ihl ihr
    simpa [Unguarded.termText, toList_symbol] using h

/-! ## Operands -/

/-- A term is converted to an atom, or stays what it is. -/
def Converted (t : Term) (c : Expression) (t' : Term) : Prop :=
  (∃ conversion : Conversion, IsAtom t' (conversion.apply c)) ∨ t' = t

/-- An expression is no literal. -/
def IsCompound (e : Expr) : Prop := ∀ kind value, e ≠ .literal kind value

section Converted

variable {e : Expr} {t : Term} {c : Expression}

theorem asText_converted (he : IsCompound e) (h : Stands .sum t c) {kind : TypeKind}
    (htime : kind = .dateTime → IsAtom t c) : Converted t c (Formula.asText e t kind) := by
  have hkind : Formula.asText e t kind = Formula.asText (.field "") t kind := by
    cases e with
    | literal kind value => exact absurd rfl (he kind value)
    | _ => rfl
  rw [hkind]
  cases kind with
  | enum => exact .inl ⟨.text, isAtom_string h⟩
  | dateTime => exact .inl ⟨.time, isAtom_time (htime rfl)⟩
  | int => exact .inl ⟨.int, isAtom_formatInt h⟩
  | decimal => exact .inl ⟨.decimal, isAtom_formatFloat h⟩
  | _ => exact .inr rfl

theorem asDecimal_converted (he : IsCompound e) (h : Stands .sum t c) (kind : TypeKind) :
    Converted t c (Formula.asDecimal e t kind) := by
  have hkind : Formula.asDecimal e t kind = Formula.asDecimal (.field "") t kind := by
    cases e with
    | literal kind value => exact absurd rfl (he kind value)
    | _ => cases kind <;> rfl
  rw [hkind]
  cases kind with
  | int => exact .inl ⟨.float, isAtom_float h⟩
  | _ => exact .inr rfl

/-- What is no literal is the same code in a text and elsewhere. -/
theorem Renders.anywhere {inText : Bool} (h : Renders inText e c) (he : IsCompound e)
    (inText' : Bool) : Renders inText' e c := by
  induction h with
  | field name => exact .field name
  | string value => exact absurd rfl (he _ value)
  | number raw => exact absurd rfl (he _ raw)
  | digits kind raw => exact absurd rfl (he kind raw)
  | binary hl hr => exact .binary hl hr
  | converted conversion _ ih => exact .converted conversion (ih he)

end Converted

/-! ## Formulas -/

/-- A formula can be read back: the members of its fields are names of the code, its numbers are
numerals, and its operations give numbers or texts. -/
inductive Legible : Expr → Prop
  | field {name : String} : isIdentifier (fieldMember name) = true → Legible (.field name)
  | string (value : String) : Legible (.literal .string value)
  | number {kind : TypeKind} {raw : String} : kind ≠ .string → IsSigned raw →
    Legible (.literal kind raw)
  | binary {op : Operator} {left right : Expr} {kind : TypeKind} : Legible left → Legible right →
    kind ≠ .dateTime → Legible (.binary op left right kind)

/-- A term of a kind is read back as a formula, as an operand and by itself. -/
structure ReadsBack (t : Term) (kind : TypeKind) (e : Expr) (c : Expression) : Prop where
  operand : IsOperand t c
  atom : IsCompound e → IsAtom t c
  stripped : Stands .sum t.stripped c
  renders : Renders false e c
  time : kind = .dateTime → t.stripped = t

section ReadsBack

variable {e left right : Expr} {t lt rt : Term} {kind lk rk : TypeKind} {c l r : Expression}

theorem exists_literal (h : ¬ IsCompound e) : ∃ kind value, e = .literal kind value := by
  simpa [IsCompound] using h

theorem ReadsBack.text (h : ReadsBack t kind e c) :
    ∃ d, IsOperand (Formula.asText e t kind) d ∧ Renders true e d := by
  by_cases he : IsCompound e
  · have hrenders := h.renders.anywhere he true
    rcases asText_converted he h.operand.sum fun _ => h.atom he with ⟨conversion, hatom⟩ | heq
    · exact ⟨_, hatom.operand, .converted conversion hrenders⟩
    · exact ⟨c, by rw [heq]; exact h.operand, hrenders⟩
  · obtain ⟨kind', value, rfl⟩ := exists_literal he
    exact ⟨_, (isAtom_text value).operand, .digits kind' value⟩

theorem ReadsBack.decimal (h : ReadsBack t kind e c) :
    ∃ d, IsOperand (Formula.asDecimal e t kind) d ∧ Renders false e d := by
  by_cases he : IsCompound e
  · rcases asDecimal_converted he h.operand.sum kind with ⟨conversion, hatom⟩ | heq
    · exact ⟨_, hatom.operand, .converted conversion h.renders⟩
    · exact ⟨c, by rw [heq]; exact h.operand, h.renders⟩
  · obtain ⟨kind', value, rfl⟩ := exists_literal he
    exact ⟨c, h.operand, h.renders⟩

/-- Without its parentheses, an operation can be converted still. -/
theorem ReadsBack.strippedText (h : ReadsBack t kind e c) :
    ∃ d, Stands .sum (Formula.asText e t.stripped kind) d ∧ Renders true e d := by
  by_cases he : IsCompound e
  · have hrenders := h.renders.anywhere he true
    have htime : kind = .dateTime → IsAtom t.stripped c := by
      intro hkind
      rw [h.time hkind]
      exact h.atom he
    rcases asText_converted he h.stripped htime with ⟨conversion, hatom⟩ | heq
    · exact ⟨_, hatom.operand.sum, .converted conversion hrenders⟩
    · exact ⟨c, by rw [heq]; exact h.stripped, hrenders⟩
  · obtain ⟨kind', value, rfl⟩ := exists_literal he
    exact ⟨_, (isAtom_text value).operand.sum, .digits kind' value⟩

theorem readsBack_field {name : String} (h : isIdentifier (fieldMember name) = true) :
    ReadsBack (.field (fieldMember name)) kind (.field name)
      (.select (.name "r") (fieldMember name)) where
  operand := (isAtom_field h).operand
  atom := fun _ => isAtom_field h
  stripped := (isAtom_field h).operand.sum
  renders := .field name
  time := fun _ => rfl

theorem readsBack_string (value : String) :
    ReadsBack (.text value) .string (.literal .string value) (.literal (quoted value)) where
  operand := (isAtom_text value).operand
  atom := fun _ => isAtom_text value
  stripped := (isAtom_text value).operand.sum
  renders := .string value
  time := fun _ => rfl

theorem readsBack_number {raw : String} (hkind : kind ≠ .string) (h : IsSigned raw) :
    ReadsBack (.number raw) kind (.literal kind raw) (.literal raw) where
  operand := isOperand_number h
  atom := fun he => absurd rfl (he kind raw)
  stripped := (isOperand_number h).sum
  renders := .number raw hkind
  time := fun _ => rfl

theorem readsBack_binary (op : Operator) (hl : IsOperand lt l) (hr : IsOperand rt r)
    (hleft : Renders (isText kind) left l) (hright : Renders (isText kind) right r)
    (hkind : kind ≠ .dateTime) :
    ReadsBack (.parens (.binary op lt rt)) kind (.binary op left right kind) (.binary op l r) where
  operand := (isAtom_parens (stands_binary op hl hr)).operand
  atom := fun _ => isAtom_parens (stands_binary op hl hr)
  stripped := stands_binary op hl hr
  renders := .binary hleft hright
  time := fun h => absurd h hkind

end ReadsBack

theorem term_number (owner : Entity) {kind : TypeKind} (h : kind ≠ .string) (raw : String) :
    Formula.term owner (.literal kind raw) = (.number raw, kind) := by
  cases kind <;> first | rfl | exact absurd rfl h

/-- A legible formula is read back: by induction on the formula. The operands of an operation are
converted as its kind asks for. -/
theorem Legible.readsBack {e : Expr} (h : Legible e) (owner : Entity) :
    ∃ c, ReadsBack (Formula.term owner e).1 (Formula.term owner e).2 e c := by
  induction h with
  | field h => exact ⟨_, readsBack_field h⟩
  | string value => exact ⟨_, readsBack_string value⟩
  | number hkind h =>
    rw [term_number owner hkind]
    exact ⟨_, readsBack_number hkind h⟩
  | @binary op _ _ kind _ _ hkind ihl ihr =>
    obtain ⟨l, hl⟩ := ihl
    obtain ⟨r, hr⟩ := ihr
    cases kind with
    | string | text =>
      obtain ⟨x, hx, hleft⟩ := hl.text
      obtain ⟨y, hy, hright⟩ := hr.text
      exact ⟨_, readsBack_binary op hx hy hleft hright hkind⟩
    | decimal =>
      obtain ⟨x, hx, hleft⟩ := hl.decimal
      obtain ⟨y, hy, hright⟩ := hr.decimal
      exact ⟨_, readsBack_binary op hx hy hleft hright hkind⟩
    | _ => exact ⟨_, readsBack_binary op hl.operand hr.operand hl.renders hr.renders hkind⟩

/-- The value of a formula, without the outermost parentheses and converted to what is asked for,
is the formula still. -/
theorem ReadsBack.value {owner : Entity} {e : Expr} {c : Expression}
    (h : ReadsBack (Formula.term owner e).1 (Formula.term owner e).2 e c) (want : TypeKind) :
    ∃ d, Stands .sum (Formula.value owner e want) d ∧ Renders (isText want) e d := by
  unfold Formula.value
  generalize Formula.term owner e = p at h ⊢
  obtain ⟨t, kind⟩ := p
  obtain ⟨d, hd, htext⟩ := h.strippedText
  simp only at h ⊢
  split
  · exact ⟨_, (isAtom_float h.stripped).operand.sum, .converted .float h.renders⟩
  · exact ⟨d, hd, htext⟩
  · exact ⟨d, hd, htext⟩
  next hstring htext _ =>
    exact ⟨c, h.stripped, isText_eq_false hstring htext ▸ h.renders⟩

/-! ## Formulas of an application -/

/-- Every field of a formula has a member that is a name of the code. -/
def NamesMembers (e : Expr) : Prop := ∀ name ∈ e.mentions, isIdentifier (fieldMember name) = true

instance (e : Expr) : Decidable (NamesMembers e) := inferInstanceAs (Decidable (∀ _ ∈ _, _))

/-- The text of a formula, put together from its parts and cut free of the outermost parentheses,
is one expression, and so is the value of its resolver as it is laid out. Both are the formula. The
record that the resolver takes is that of the entity and has a member for every field that the
formula mentions. -/
structure Resolver.Recovers (r : Resolver) (a : Application) (owner : Entity) (e : Expr)
    (want : TypeKind) : Prop where
  reads : NamesMembers e → ∃ text c, Unguarded.valueText? (some owner) e want = some (.ok text) ∧
    (∀ c', Reads text c' ↔ c' = c) ∧ (∀ c', Reads (r.value.print 1) c' ↔ c' = c) ∧
    Renders (isText want) e c
  selects : ∀ tables, plan a = .ok tables → ∃ record, IsRecord a tables owner record ∧
    record.name = r.receiver ∧ ∀ name ∈ e.mentions, ∃ m ∈ record.members, m.name = fieldMember name

/-- Every formula of an application is recovered from the code of its resolver. -/
structure ResolversRecovered (a : Application) : Prop where
  computed : ∀ e ∈ a.entities, ∀ f ∈ e.fields, ∀ v, f.virtual = some v →
    ∃ r, virtualResolver? e f = some r ∧ r.Recovers a e v.expr f.type.kind
  shown : ∀ v ∈ a.views, ∀ f ∈ v.fields, ∀ source expr, f.value = .formula source expr →
    ∃ e r, a.entity? v.source = some e ∧ viewResolver? a v f = some r ∧
      r.Recovers a e expr f.resultType

theorem reads_iff {text : String} {c : Expression} (h : Reads text c) (c' : Expression) :
    Reads text c' ↔ c' = c :=
  ⟨fun h' => h'.unique h, fun heq => heq ▸ h⟩

section Accepted

open Scaffold.Source Scaffold.Check Scaffold.Build
open Scaffold.Storage (Plannable)

variable {s : Symbols} {d : EntityDecl} {e : Expr} {source : String} {result : TypeKind}

theorem legible_lowered {kindOf : String → Option TypeKind} {formula : Formula}
    (h : Lowered kindOf formula e) (hnumbers : Grammar.AllSigned formula)
    (hnames : NamesMembers e) : Legible e := by
  induction h with
  | field name p => exact .field (hnames name (List.mem_singleton.mpr rfl))
  | string text p => exact .string text
  | number raw p =>
    refine .number ?_ hnumbers
    rcases numberKind_cases raw with hk | hk <;> simp [hk]
  | @binary op left right l r p k _ _ typed _ ihl ihr =>
    obtain ⟨hl, hr⟩ := List.forall_mem_append.mp hnames
    obtain ⟨lk, rk, -, -, hsum⟩ := typeOf_binary typed
    refine .binary (ihl hnumbers.1 hl) (ihr hnumbers.2 hr) ?_
    rcases sumKind_ok hsum with ⟨rfl, -⟩ | ⟨rfl, -⟩ | ⟨rfl, -⟩ <;> decide

theorem mentions_lowered {kindOf : String → Option TypeKind} {formula : Formula}
    (h : Lowered kindOf formula e) : e.mentions = formula.mentions.map (·.1) := by
  induction h with
  | binary _ _ _ _ ihl ihr => simp [Expr.mentions, Formula.mentions, ihl, ihr]
  | _ => rfl

/-- The fields of a formula are fields of its entity that take part in formulas. -/
theorem declaredKind_of_mentions {owner : Entity} (h : FormulaLowered s d owner source e result)
    {name : String} (hname : name ∈ e.mentions) :
    ∃ k, declaredKind s d name = some k ∧ (k.isNumeric || k.isTextual) = true := by
  obtain ⟨formula, -, htyped, hlowered⟩ := h.tree
  rw [mentions_lowered hlowered] at hname
  obtain ⟨m, hm, rfl⟩ := List.mem_map.mp hname
  exact known_of_typeOf (formulaKind_checked htyped).1 m hm

theorem reads_lowered (h : FormulaLowered s d (buildEntity s d) source e result)
    (want : TypeKind) (hnames : NamesMembers e) :
    ∃ text c, Unguarded.valueText? (some (buildEntity s d)) e want = some (.ok text) ∧
      (∀ c', Reads text c' ↔ c' = c) ∧
      (∀ c', Reads ((Formula.value (buildEntity s d) e want).print 1) c' ↔ c' = c) ∧
      Renders (isText want) e c := by
  have hdeclared : ∀ name ∈ e.mentions, (buildEntity s d).Declares name := by
    intro name hname
    obtain ⟨k, hk, -⟩ := declaredKind_of_mentions h hname
    obtain ⟨f, hf, -⟩ := Option.bind_eq_some_iff.mp hk
    exact declares_of_findField? (Option.isSome_iff_exists.mpr ⟨f, hf⟩)
  obtain ⟨formula, hparsed, -, hlowered⟩ := h.tree
  have hlegible := legible_lowered hlowered (Grammar.allSigned_parseFormula hparsed) hnames
  obtain ⟨_, hback⟩ := hlegible.readsBack (buildEntity s d)
  obtain ⟨c, hstands, hrenders⟩ := hback.value want
  exact ⟨_, c, Unguarded.valueText?_eq hdeclared want,
    reads_iff (hstands _ (layout_termText _)).reads,
    reads_iff (hstands _ (layout_print _ 1)).reads, hrenders⟩

/-- The record of an entity has a member for every field that a formula over the entity mentions. -/
theorem exists_selected {extra : List String} (hs : s.Accepted extra) (hn : EntitiesNamed s)
    (hd : d ∈ s.entities) {app : String} {given : List String}
    (ha : Plannable (build s app) given) {tables : List Table}
    (hplan : plan (build s app) = .ok tables) {owner : Entity}
    (h : FormulaLowered s d owner source e result) :
    ∃ record, IsRecord (build s app) tables (buildEntity s d) record ∧
      record.name = typeName d.name ∧
      ∀ name ∈ e.mentions, ∃ m ∈ record.members, m.name = fieldMember name := by
  obtain ⟨t, hfilled, hrecord⟩ := exists_record hs hd ha hplan
  refine ⟨_, hrecord, rfl, fun name hname => ?_⟩
  obtain ⟨k, hk, husable⟩ := declaredKind_of_mentions h hname
  obtain ⟨-, -, -, m, hm, hmember, -⟩ := exists_usable_member hs hn hd hfilled hk husable
  exact ⟨m, hm, hmember⟩

end Accepted

end Scaffold.Server

namespace Scaffold

open Scaffold.Source Scaffold.Model Scaffold.Build Scaffold.Server Scaffold.Check
open Scaffold.Storage (compile_plannable)
open Scaffold.Code (Reads)

/-- The resolvers of a compiled application compute the formulas that they were made from: where
the members of its fields are names, the code of a formula is read back as the formula. The fields
that it selects are members of the record at hand in any case. -/
theorem compile_readback {path : String} {source : List Text.Rune} {opts : CompileOptions}
    {app : Application} (h : compile path source opts = .ok app) : ResolversRecovered app := by
  have hplannable := compile_plannable h
  obtain ⟨f, -, hnamed, hs, rfl⟩ := compile_ok h
  have hn := entitiesNamed_of_named hnamed
  constructor
  · refine List.forall_mem_map.mpr fun d hd => List.forall_mem_map.mpr fun g hg v hv => ?_
    have hlowered := (virtual_lowered hs hd hg hv).formula
    refine ⟨_, by rw [virtualResolver?, hv, Option.map_some], ?_⟩
    exact ⟨reads_lowered hlowered _,
      fun tables hplan => exists_selected hs hn hd hplannable hplan hlowered⟩
  · refine List.forall_mem_map.mpr fun v hv g hg text expr hvalue => ?_
    obtain ⟨d, members, hview⟩ := hs.view hv
    obtain ⟨hd, -, hbuilt⟩ := view_built hview hs.distinct hn
    rw [hbuilt] at hg ⊢
    have hlowered := shown_lowered hview hg hvalue
    have howner : (build ⟨f.decls⟩ opts.name).entity? d.name = some (buildEntity ⟨f.decls⟩ d) :=
      build_entity? hs.distinct opts.name _ (mem_entities hd)
    refine ⟨_, _, howner, by rw [viewResolver?, hvalue, howner], ?_⟩
    exact ⟨reads_lowered hlowered _,
      fun tables hplan => exists_selected hs hn hd hplannable hplan hlowered⟩

/-- The formulas of an application, with their owners and the kinds that are asked for. -/
def formulas (a : Application) : List (Option Entity × Expr × TypeKind) :=
  (a.entities.flatMap fun e => e.fields.filterMap fun f =>
    f.virtual.map fun v => (some e, v.expr, f.type.kind)) ++
  a.views.flatMap fun v => v.fields.filterMap fun f => match f.value with
    | .formula _ expr => some (a.entity? v.source, expr, f.resultType)
    | .ref _ => none

def formulaTexts (a : Application) : List (Option (Except String String)) :=
  (formulas a).map fun (owner, e, want) => Unguarded.valueText? owner e want

theorem tickets_readback : ∃ app, compile "" tickets ⟨[], ""⟩ = .ok app ∧
    formulaTexts app = [some (.ok "r.Price - float64((-2 * r.ID))"),
      some (.ok "\"No \" + strconv.FormatInt((r.ID + 1), 10)")] ∧
    (∀ x ∈ formulas app, NamesMembers x.2.1) ∧ ResolversRecovered app := by
  obtain ⟨app, happ, hp⟩ := exists_ok_of_any (x := compile "" tickets ⟨[], ""⟩)
    (p := fun app => decide (formulaTexts app = [some (.ok "r.Price - float64((-2 * r.ID))"),
        some (.ok "\"No \" + strconv.FormatInt((r.ID + 1), 10)")] ∧
      ∀ x ∈ formulas app, NamesMembers x.2.1))
    (by simp only [tickets, List.flatMap_cons]; repeat rw [Text.runes_ofList]
        decide +kernel)
  obtain ⟨htexts, hnames⟩ := of_decide_eq_true hp
  exact ⟨app, happ, htexts, hnames, compile_readback happ⟩

/-- Items with a field whose name is a mere underscore. -/
def blankItems : List Text.Rune := [
  "entity Item \x7b ",
  "id: Int primaryKey ",
  "_: Int ",
  "n: Int ",
  "@virtual(from: \"_ + 1\") ",
  "\x7d"].flatMap Text.runes

/-- The member of that field has no name, and what selects it is no expression. -/
theorem blankItems_unreadable : ∃ app, compile "" blankItems ⟨[], ""⟩ = .ok app ∧
    formulaTexts app = [some (.ok "r. + 1")] ∧ ∀ c, ¬ Reads "r. + 1" c := by
  obtain ⟨app, happ, hp⟩ := exists_ok_of_any (x := compile "" blankItems ⟨[], ""⟩)
    (p := fun app => decide (formulaTexts app = [some (.ok "r. + 1")]))
    (by simp only [blankItems, List.flatMap_cons]; repeat rw [Text.runes_ofList]
        decide +kernel)
  refine ⟨app, happ, of_decide_eq_true hp, ?_⟩
  rintro c ⟨ls, hlex, hderives⟩
  have hlexed : Code.Lexes "r. + 1".toList [.name "r", .mark '.', .mark '+', .number "1"] :=
    .cons rfl (.cons rfl (.blank (.cons rfl (.blank (.cons rfl .nil)))))
  rw [hlex.unique hlexed] at hderives
  obtain ⟨_, _, hrun, -⟩ := Code.runs_of_derives hderives [] trivial
  cases hrun

end Scaffold
