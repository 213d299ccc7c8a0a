import Scaffold.Proofs.Check.Typing
import Scaffold.Server.Resolvers

/-! # The types of generated terms

A term has a type over a record, or is a constant that takes the type of its context. Only how terms
are put together matters here: how a number is spelled is judged with the text of a term, and what a
constant amounts to is not looked at. A term that stands for a formula has the type that the checks
gave the formula, where the record has every usable field under its own member and with its own
type. -/
namespace Scaffold.Server

open Scaffold.Model Scaffold.Code Scaffold.Build Scaffold.Check
open Scaffold.Source (Operator)

/-! ## Types -/

/-- The type of a term. A constant has no type yet: it only has the type it would have by itself. -/
inductive TermType
  | typed (type : ValueType)
  | untyped (type : ValueType)
  deriving DecidableEq, Repr

namespace TermType

def base : TermType → ValueType
  | typed t | untyped t => t

/-- The type of a variable that is declared by its value alone. An integer constant makes it a
machine integer, a type that no member of a record has. -/
def declared : TermType → Option ValueType
  | typed t => some t
  | untyped .int => none
  | untyped t => some t

/-- Whether a constant can take a type. -/
def adapts (constant context : ValueType) : Bool :=
  constant = context || (constant = .int && context = .float)

/-- The common type of two operands. -/
def join : TermType → TermType → Option TermType
  | typed s, typed t => if s = t then some (typed t) else none
  | untyped c, typed t | typed t, untyped c => if adapts c t then some (typed t) else none
  | untyped c, untyped d =>
    if adapts c d then some (untyped d) else if adapts d c then some (untyped c) else none

/-- Whether a value can be passed where a type is asked for. -/
def passes (τ : TermType) (t : ValueType) : Bool := τ.join (typed t) = some (typed t)

end TermType

/-- Numbers can be reckoned with, and texts can be put together. -/
def supports (op : Operator) : ValueType → Bool
  | .int | .float => true
  | .string => op = .add
  | _ => false

/-- The type of an operation: that of both operands. -/
def operate (op : Operator) (l r : TermType) : Option TermType :=
  (l.join r).filter (supports op ·.base)

/-- The type of what a function makes of a value. -/
def applied? (function : String) (more : List String) (τ : TermType) : Option ValueType :=
  if function = "float64" ∧ more = [] then
    if τ.base = .int ∨ τ.base = .float then some .float else none
  else if function = "string" ∧ more = [] then
    match τ with
    | .typed (.named _) | .typed .string => some .string
    | _ => none
  else if function = "strconv.FormatInt" ∧ more = ["10"] then
    if τ.passes .int then some .string else none
  else if function = "strconv.FormatFloat" ∧ more = ["'f'", "-1", "64"] then
    if τ.passes .float then some .string else none
  else none

def Record.member? (record : Record) (name : String) : Option Member :=
  record.members.find? (·.name == name)

/-- The type of a term over a record. -/
def termType? (record : Record) : Term → Option TermType
  | .field name => (record.member? name).map (.typed ·.type)
  | .number raw => some (.untyped (if raw.toList.contains '.' then .float else .int))
  | .text _ => some (.untyped .string)
  | .call function arg more => do
    let τ ← termType? record arg
    (applied? function more τ).map .typed
  | .method target name arg => do
    let τ ← termType? record target
    if τ = .typed .time ∧ name = "Format" ∧ arg = "time.RFC3339" then some (.typed .string)
    else none
  | .parens inner => termType? record inner
  | .binary op left right => do
    let l ← termType? record left
    let r ← termType? record right
    operate op l r

theorem termType?_stripped (record : Record) (t : Term) :
    termType? record t.stripped = termType? record t := by
  cases t <;> rfl

/-! ## Operands -/

/-- The type of whole numbers; `bare` tells that a formula is made of constants. -/
def TermType.whole (bare : Bool) : TermType := if bare then .untyped .int else .typed .int

/-- How a term stands for a value of a kind. -/
def Fits (bare : Bool) : TypeKind → TermType → Prop
  | .int, τ => τ = .whole bare
  | .decimal, τ => τ.base = .float
  | .string, τ => τ.base = .string
  | .text, τ | .uuid, τ => τ = .typed .string
  | .dateTime, τ => τ = .typed .time
  | .enum, τ => ∃ name, τ = .typed (.named name)
  | _, _ => False

/-- A member stands for a value of its kind. -/
theorem fits_member {k : TypeKind} (h : (k.isNumeric || k.isTextual) = true) (enum : String) :
    Fits false k (.typed (.of k enum)) := by
  cases k <;> first | rfl | exact ⟨_, rfl⟩ | cases h

theorem base_whole (bare : Bool) : (TermType.whole bare).base = .int := by cases bare <;> rfl

theorem join_whole (l r : Bool) :
    (TermType.whole l).join (.whole r) = some (.whole (l && r)) := by
  cases l <;> cases r <;> rfl

theorem join_string {l r : TermType} (hl : l.base = .string) (hr : r.base = .string) :
    ∃ τ, l.join r = some τ ∧ τ.base = .string := by
  cases l <;> cases r <;> cases hl <;> cases hr <;> exact ⟨_, rfl, rfl⟩

/-- A decimal operand makes a decimal of an integer constant. -/
theorem join_float {l r : TermType} (hl : l.base = .float ∨ l = .untyped .int)
    (hr : r.base = .float ∨ r = .untyped .int) (h : l.base = .float ∨ r.base = .float) :
    ∃ τ, l.join r = some τ ∧ τ.base = .float := by
  rcases hl with hl | rfl
  · rcases hr with hr | rfl
    · cases l <;> cases r <;> cases hl <;> cases hr <;> exact ⟨_, rfl, rfl⟩
    · cases l <;> cases hl <;> exact ⟨_, rfl, rfl⟩
  · rcases hr with hr | rfl
    · cases r <;> cases hr <;> exact ⟨_, rfl, rfl⟩
    · rcases h with h | h <;> cases h

theorem operate_eq {op : Operator} {l r τ : TermType} (h : l.join r = some τ)
    (hop : supports op τ.base = true) : operate op l r = some τ := by
  simp [operate, h, hop]

section Conversions

variable {record : Record} {t : Term} {k : TypeKind} {τ : TermType}

/-- Whatever takes part in formulas can be made a text. -/
theorem asText_typed {bare : Bool} (e : Expr) (ht : termType? record t = some τ)
    (hfits : Fits bare k τ) :
    ∃ σ, termType? record (Formula.asText e t k) = some σ ∧ σ.base = .string := by
  cases e with
  | literal type value => exact ⟨.untyped .string, rfl, rfl⟩
  | field name | binary op left right type =>
    cases k with
    | int =>
      refine ⟨.typed .string, ?_, rfl⟩
      cases bare <;> cases hfits <;> simp [Formula.asText, termType?, ht] <;> rfl
    | decimal =>
      refine ⟨.typed .string, ?_, rfl⟩
      cases τ <;> cases hfits <;> simp [Formula.asText, termType?, ht] <;> rfl
    | enum =>
      obtain ⟨name, rfl⟩ := hfits
      refine ⟨.typed .string, ?_, rfl⟩
      simp [Formula.asText, termType?, ht, applied?]
    | dateTime =>
      cases hfits
      exact ⟨.typed .string, by simp [Formula.asText, termType?, ht], rfl⟩
    | string => exact ⟨τ, ht, hfits⟩
    | text | uuid =>
      cases hfits
      exact ⟨.typed .string, ht, rfl⟩
    | boolean | json | password | relation | other => cases hfits

/-- A number can be made a decimal; an integer constant becomes one beside a decimal. -/
theorem asDecimal_typed {e : Expr} (hk : k.isNumeric = true) (ht : termType? record t = some τ)
    (hfits : Fits e.mentions.isEmpty k τ) :
    ∃ σ, termType? record (Formula.asDecimal e t k) = some σ ∧
      (σ.base = .float ∨ σ = .untyped .int) ∧ (k = .decimal → σ.base = .float) := by
  cases k with
  | decimal =>
    refine ⟨τ, ?_, .inl hfits, fun _ => hfits⟩
    cases e <;> exact ht
  | int =>
    cases e with
    | literal type value =>
      cases hfits
      exact ⟨.untyped .int, ht, .inr rfl, fun h => by cases h⟩
    | field name | binary op left right type =>
      refine ⟨.typed .float, ?_, .inl rfl, fun _ => rfl⟩
      have hbase : τ.base = .int := hfits ▸ base_whole _
      simp [Formula.asDecimal, termType?, ht, applied?, hbase]
  | _ => cases hk

end Conversions

/-! ## Formulas -/

/-- The record has every usable field of an entity under its own member, with its own type. -/
def Backs (record : Record) (owner : Entity) (kindOf : String → Option TypeKind) : Prop :=
  ∀ name k, kindOf name = some k → (k.isNumeric || k.isTextual) = true →
    ∃ f, owner.field? name = some f ∧ f.type.kind = k ∧
      (record.member? (fieldMember name)).map (·.type) = some (.of k f.type.ref)

section Formulas

variable {record : Record} {owner : Entity} {kindOf : String → Option TypeKind}

theorem field_typed (hb : Backs record owner kindOf) {name : String} {k : TypeKind}
    (hk : kindOf name = some k) (husable : (k.isNumeric || k.isTextual) = true) :
    ∃ f, owner.field? name = some f ∧ f.type.kind = k ∧
      termType? record (.field (fieldMember name)) = some (.typed (.of k f.type.ref)) := by
  obtain ⟨f, hf, hkind, hmember⟩ := hb name k hk husable
  obtain ⟨m, hm, htype⟩ := Option.map_eq_some_iff.mp hmember
  exact ⟨f, hf, hkind, by simp [termType?, hm, htype]⟩

theorem number_typed (record : Record) (owner : Entity) (raw : String) :
    Formula.term owner (.literal (numberKind raw) raw) = (.number raw, numberKind raw) ∧
      ∃ τ, termType? record (.number raw) = some τ ∧ Fits true (numberKind raw) τ := by
  unfold numberKind
  split
  next hpoint => exact ⟨rfl, .untyped .float, by rw [termType?, if_pos hpoint], rfl⟩
  next hpoint => exact ⟨rfl, .untyped .int, by rw [termType?, if_neg hpoint], rfl⟩

/-- The term of a formula has the type that the formula has: by induction on the formula, where each
operation converts its operands to what they have in common. -/
theorem term_typed (hb : Backs record owner kindOf) {formula : Source.Formula} {k : TypeKind}
    (h : typeOf kindOf formula = .ok k) :
    (Formula.term owner (lower kindOf formula)).2 = k ∧
      ∃ τ, termType? record (Formula.term owner (lower kindOf formula)).1 = some τ ∧
        Fits (lower kindOf formula).mentions.isEmpty k τ := by
  induction formula generalizing k with
  | string text p =>
    cases h
    exact ⟨rfl, .untyped .string, rfl, rfl⟩
  | number raw p =>
    cases h
    obtain ⟨hterm, htyped⟩ := number_typed record owner raw
    rw [lower, hterm]
    exact ⟨rfl, htyped⟩
  | field name p =>
    obtain ⟨hk, husable⟩ := typeOf_field h
    obtain ⟨f, hf, hkind, htyped⟩ := field_typed hb hk husable
    refine ⟨?_, _, htyped, fits_member husable f.type.ref⟩
    simp [lower, Formula.term, Entity.fieldKind, hf, hkind]
  | binary op left right p ihl ihr =>
    obtain ⟨lk, rk, hl, hr, hsum⟩ := typeOf_binary h
    obtain ⟨hlk, l, htl, hfl⟩ := ihl hl
    obtain ⟨hrk, r, htr, hfr⟩ := ihr hr
    have hkind : formulaKind kindOf (.binary op left right p) = k := by simp [formulaKind, h]
    rw [lower, hkind]
    rcases sumKind_ok hsum with ⟨rfl, rfl⟩ | ⟨rfl, hnl, hnr, hdecimal⟩ | ⟨rfl, rfl, rfl⟩
    · obtain ⟨σ, hσ, hσs⟩ := asText_typed (lower kindOf left) htl hfl
      obtain ⟨ρ, hρ, hρs⟩ := asText_typed (lower kindOf right) htr hfr
      obtain ⟨τ, hjoin, hτ⟩ := join_string hσs hρs
      refine ⟨rfl, τ, ?_, hτ⟩
      simp only [Formula.term, termType?, hlk, hrk, hσ, hρ]
      exact operate_eq hjoin (by rw [hτ]; rfl)
    · obtain ⟨σ, hσ, hσn, hσd⟩ := asDecimal_typed hnl htl hfl
      obtain ⟨ρ, hρ, hρn, hρd⟩ := asDecimal_typed hnr htr hfr
      obtain ⟨τ, hjoin, hτ⟩ := join_float hσn hρn (hdecimal.imp hσd hρd)
      refine ⟨rfl, τ, ?_, hτ⟩
      simp only [Formula.term, termType?, hlk, hrk, hσ, hρ]
      exact operate_eq hjoin (by rw [hτ]; rfl)
    · refine ⟨rfl, _, ?_, rfl⟩
      have hbare : (Expr.binary op (lower kindOf left) (lower kindOf right) .int).mentions.isEmpty =
          ((lower kindOf left).mentions.isEmpty && (lower kindOf right).mentions.isEmpty) := by
        rw [Expr.mentions]
        cases (lower kindOf left).mentions <;> rfl
      rw [hbare]
      simp only [Formula.term, termType?, htl, htr]
      rw [hfl, hfr]
      exact operate_eq (join_whole _ _) (by rw [base_whole]; rfl)

/-! ## Whole formulas -/

/-- A whole number is asked for and the formula has no field, so its value is a constant. -/
def Bare (want : TypeKind) (e : Expr) : Prop := want = .int ∧ e.mentions = []

/-- A value of an enum is asked for, and the formula shows a field of another enum. -/
def OtherEnum (owner : Entity) (want : FieldType) (e : Expr) : Prop :=
  want.kind = .enum ∧ ∃ name f, e = .field name ∧ owner.field? name = some f ∧
    typeName f.type.ref ≠ typeName want.ref

theorem declared_of_base {τ : TermType} {t : ValueType} (h : τ.base = t) (ht : t ≠ .int) :
    τ.declared = some t := by
  subst h
  cases τ with
  | typed t => rfl
  | untyped t =>
    cases t with
    | int => exact absurd rfl ht
    | _ => rfl

theorem declared_whole (bare : Bool) :
    (TermType.whole bare).declared = some .int ↔ bare = false := by
  cases bare <;> decide

/-- The term of a whole formula has a type. A variable declared by it has the type that is asked
for, unless that is an integer type and the formula is made of constants, or another enum. -/
theorem value_typed (hb : Backs record owner kindOf) {formula : Source.Formula} {k : TypeKind}
    (h : typeOf kindOf formula = .ok k) (want : FieldType)
    (hassign : want.kind.assignable k = true) :
    ∃ τ, termType? record (Formula.value owner (lower kindOf formula) want.kind) = some τ ∧
      (τ.declared = some (.of want.kind want.ref) ↔
        ¬ (Bare want.kind (lower kindOf formula) ∨
          OtherEnum owner want (lower kindOf formula))) := by
  obtain ⟨hk, τ, ht, hfits⟩ := term_typed hb h
  rw [← termType?_stripped] at ht
  cases hw : want.kind with
  | string | text =>
    obtain ⟨σ, hσ, hs⟩ := asText_typed (lower kindOf formula) ht hfits
    refine ⟨σ, by simpa [Formula.value, hk] using hσ, ?_⟩
    simp [declared_of_base hs, ValueType.of, Bare, OtherEnum, hw]
  | decimal =>
    obtain ⟨σ, hσ, hs⟩ : ∃ σ, termType? record
        (Formula.value owner (lower kindOf formula) .decimal) = some σ ∧ σ.base = .float := by
      rw [hw] at hassign
      cases k with
      | decimal => exact ⟨τ, by simpa [Formula.value, hk] using ht, hfits⟩
      | int =>
        have hbase : τ.base = .int := hfits ▸ base_whole _
        refine ⟨.typed .float, ?_, rfl⟩
        simp [Formula.value, hk, termType?, ht, applied?, hbase]
      | _ => cases hassign
    refine ⟨σ, hσ, ?_⟩
    simp [declared_of_base hs, ValueType.of, Bare, OtherEnum, hw]
  | int =>
    obtain rfl : .int = k := by simpa [hw, TypeKind.assignable] using hassign
    refine ⟨τ, by simpa [Formula.value, hk] using ht, ?_⟩
    rw [hfits, ValueType.of, declared_whole]
    simp [Bare, OtherEnum, hw, List.isEmpty_eq_false_iff]
  | uuid | dateTime =>
    obtain rfl : _ = k := by simpa [hw, TypeKind.assignable] using hassign
    refine ⟨τ, by simpa [Formula.value, hk] using ht, ?_⟩
    rw [hfits]
    simp [TermType.declared, ValueType.of, Bare, OtherEnum, hw]
  | enum =>
    obtain rfl : .enum = k := by simpa [hw, TypeKind.assignable] using hassign
    obtain ⟨name, p, rfl, hname⟩ := typeOf_enum h
    obtain ⟨f, hf, hkind, htyped⟩ := field_typed hb hname rfl
    refine ⟨_, by simpa [Formula.value, lower, Formula.term, Term.stripped] using htyped, ?_⟩
    simp [TermType.declared, ValueType.of, Bare, OtherEnum, lower, hf, hw]
  | boolean | json | password | relation | other =>
    obtain rfl : _ = k := by simpa [hw, TypeKind.assignable] using hassign
    cases hfits

end Formulas

end Scaffold.Server
