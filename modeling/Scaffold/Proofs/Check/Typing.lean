import Scaffold.Build.Entity
import Scaffold.Proofs.Outcome

/-! # The types of formulas

A formula has the type of a value that takes part in formulas: sums and products have three types
at most, and every other type is that of a field. The builder knows the types of more fields than
the checks do, and gives a formula the same type.

The type is decided operation by operation. As a whole it depends on what stands at the ends of the
tree only: a text among the leaves makes a string, a fraction a decimal, and no operation but a sum
may have a text anywhere below it. -/
namespace Scaffold.Check

open Scaffold.Source Scaffold.Model Scaffold.Build

/-- The types an operation can have, by those of its operands. -/
theorem sumKind_ok {op : Operator} {l r k : TypeKind} (h : sumKind op l r = .ok k) :
    (k = .string ∧ op = .add) ∨
      (k = .decimal ∧ l.isNumeric = true ∧ r.isNumeric = true ∧ (l = .decimal ∨ r = .decimal)) ∨
      (k = .int ∧ l = .int ∧ r = .int) := by
  unfold sumKind at h
  split at h
  next hadd =>
    cases h
    rw [Bool.and_eq_true_iff, decide_eq_true_eq] at hadd
    exact .inl ⟨rfl, hadd.1⟩
  next =>
    split at h
    · cases h
    next hnumeric =>
      obtain ⟨hl, hr⟩ : l.isNumeric = true ∧ r.isNumeric = true := by simpa using hnumeric
      split at h
      next hdecimal =>
        cases h
        exact .inr (.inl ⟨rfl, hl, hr, by simpa using hdecimal⟩)
      next hdecimal =>
        cases h
        -- Numbers that are no decimals are integers.
        have hint (k : TypeKind) (hk : k.isNumeric = true) (hne : k ≠ .decimal) : k = .int := by
          cases k <;> simp_all [TypeKind.isNumeric]
        obtain ⟨hdl, hdr⟩ : l ≠ .decimal ∧ r ≠ .decimal := by simpa using hdecimal
        exact .inr (.inr ⟨rfl, hint l hl hdl, hint r hr hdr⟩)

theorem typeOf_field {kindOf : String → Option TypeKind} {name : String} {p : Pos} {k : TypeKind}
    (h : typeOf kindOf (.field name p) = .ok k) :
    kindOf name = some k ∧ (k.isNumeric || k.isTextual) = true := by
  unfold typeOf at h
  split at h
  · cases h
  next k' hk =>
    split at h
    next husable =>
      cases h
      exact ⟨hk, husable⟩
    · cases h

theorem typeOf_binary {kindOf : String → Option TypeKind} {op : Operator} {left right : Formula}
    {p : Pos} {k : TypeKind} (h : typeOf kindOf (.binary op left right p) = .ok k) :
    ∃ l r, typeOf kindOf left = .ok l ∧ typeOf kindOf right = .ok r ∧ sumKind op l r = .ok k := by
  obtain ⟨l, hl, h⟩ := bind_eq_ok.mp h
  obtain ⟨r, hr, h⟩ := bind_eq_ok.mp h
  exact ⟨l, r, hl, hr, h⟩

theorem numberKind_cases (raw : String) : numberKind raw = .decimal ∨ numberKind raw = .int := by
  unfold numberKind
  split
  · exact .inl rfl
  · exact .inr rfl

/-- A formula has a type of values that take part in formulas. -/
theorem typeOf_usable {kindOf : String → Option TypeKind} {formula : Formula} {k : TypeKind}
    (h : typeOf kindOf formula = .ok k) : (k.isNumeric || k.isTextual) = true := by
  cases formula with
  | field name p => exact (typeOf_field h).2
  | string text p =>
    cases h
    rfl
  | number raw p =>
    cases h
    rcases numberKind_cases raw with hk | hk <;> rw [hk] <;> rfl
  | binary op left right p =>
    obtain ⟨l, r, -, -, hsum⟩ := typeOf_binary h
    rcases sumKind_ok hsum with ⟨rfl, -⟩ | ⟨rfl, -⟩ | ⟨rfl, -⟩ <;> rfl

/-- A field of the type of a formula can hold its values. -/
theorem assignable_self {kindOf : String → Option TypeKind} {formula : Formula} {k : TypeKind}
    (h : typeOf kindOf formula = .ok k) : k.assignable k = true := by
  have husable := typeOf_usable h
  cases k <;> first | rfl | cases husable

/-- Where a formula has a type, only the fields that can be used matter. -/
theorem typeOf_of_imp {kindOf kindOf' : String → Option TypeKind}
    (hkinds : ∀ name k, kindOf name = some k → (k.isNumeric || k.isTextual) = true →
      kindOf' name = some k) {formula : Formula} {k : TypeKind}
    (h : typeOf kindOf formula = .ok k) : typeOf kindOf' formula = .ok k := by
  induction formula generalizing k with
  | field name p =>
    obtain ⟨hk, husable⟩ := typeOf_field h
    simp [typeOf, hkinds name k hk husable, husable]
  | string text p => exact h
  | number raw p => exact h
  | binary op left right p ihl ihr =>
    obtain ⟨l, r, hl, hr, hsum⟩ := typeOf_binary h
    exact bind_eq_ok.mpr ⟨l, ihl hl, bind_eq_ok.mpr ⟨r, ihr hr, hsum⟩⟩

/-- Only a field has the type of an enum. -/
theorem typeOf_enum {kindOf : String → Option TypeKind} {formula : Formula}
    (h : typeOf kindOf formula = .ok .enum) :
    ∃ name p, formula = .field name p ∧ kindOf name = some .enum := by
  cases formula with
  | field name p => exact ⟨name, p, rfl, (typeOf_field h).1⟩
  | string text p => cases h
  | number raw p =>
    have hnumber : numberKind raw = .enum := by simpa [typeOf] using h
    rcases numberKind_cases raw with hk | hk <;> simp [hk] at hnumber
  | binary op left right p =>
    obtain ⟨l, r, -, -, hsum⟩ := typeOf_binary h
    rcases sumKind_ok hsum with ⟨hk, -⟩ | ⟨hk, -⟩ | ⟨hk, -⟩ <;> cases hk

/-- The builder knows the type of a field that the checks let be used. -/
theorem declaredKind_of_fieldKind? {s : Symbols} {e : EntityDecl} {name : String} {k : TypeKind}
    (h : fieldKind? s e name = some k) (husable : (k.isNumeric || k.isTextual) = true) :
    declaredKind s e name = some k := by
  obtain ⟨f, hf, hk⟩ := Option.map_eq_some_iff.mp h
  split at hk
  next t ht =>
    split at hk
    · cases hk
      cases husable
    · simp [declaredKind, hf, ht, hk]
  next =>
    cases hk
    cases husable

/-- The builder gives a checked formula the type that the checks give it. -/
theorem formulaKind_checked {s : Symbols} {e : EntityDecl} {formula : Formula} {k : TypeKind}
    (h : typeOf (fieldKind? s e) formula = .ok k) :
    typeOf (declaredKind s e) formula = .ok k ∧ formulaKind (declaredKind s e) formula = k := by
  have hk := typeOf_of_imp (fun _ _ => declaredKind_of_fieldKind?) h
  exact ⟨hk, by simp [formulaKind, hk]⟩

/-! ## The type by the leaves -/

/-- The literals and mentions of a formula, in order. -/
def leaves : Formula → List Formula
  | .binary _ left right _ => leaves left ++ leaves right
  | leaf => [leaf]

/-- The operations of a formula, outer ones first: each by its operator, with its leaves. -/
def operations : Formula → List (Operator × List Formula)
  | .binary op left right p =>
    (op, leaves (.binary op left right p)) :: (operations left ++ operations right)
  | _ => []

section Leaves

variable (kindOf : String → Option TypeKind)

/-- A string literal or a textual field. -/
def isTextLeaf : Formula → Bool
  | .string .. => true
  | .field name _ => (kindOf name).any (·.isTextual)
  | _ => false

/-- A literal with a fraction or a decimal field. -/
def isDecimalLeaf : Formula → Bool
  | .number raw _ => raw.toList.contains '.'
  | .field name _ => kindOf name = some .decimal
  | _ => false

/-- Every field that a formula mentions is known, with a type whose values take part in
formulas. -/
def Known (formula : Formula) : Prop :=
  ∀ mention ∈ formula.mentions,
    ∃ k, kindOf mention.1 = some k ∧ (k.isNumeric || k.isTextual) = true

/-- No difference, product or quotient has a text anywhere below it. -/
def Arithmetical (formula : Formula) : Prop :=
  ∀ operation ∈ operations formula,
    operation.1 ≠ .add → operation.2.any (isTextLeaf kindOf) = false

/-- The type of an operation over leaves. -/
def kindOver (ends : List Formula) : TypeKind :=
  if ends.any (isTextLeaf kindOf) then .string
  else if ends.any (isDecimalLeaf kindOf) then .decimal
  else .int

/-- The type of a formula, read off its leaves. -/
def kindByLeaves : Formula → TypeKind
  | .string .. => .string
  | .number raw _ => numberKind raw
  | .field name _ => (kindOf name).getD .int
  | .binary op left right p => kindOver kindOf (leaves (.binary op left right p))

end Leaves

variable {kindOf : String → Option TypeKind}

theorem known_binary {op : Operator} {left right : Formula} {p : Pos} :
    Known kindOf (.binary op left right p) ↔ Known kindOf left ∧ Known kindOf right := by
  simp only [Known, Formula.mentions, List.forall_mem_append]

theorem known_of_typeOf {formula : Formula} {k : TypeKind} (h : typeOf kindOf formula = .ok k) :
    Known kindOf formula := by
  induction formula generalizing k with
  | field name p => exact List.forall_mem_singleton.mpr ⟨k, typeOf_field h⟩
  | binary op left right p ihl ihr =>
    obtain ⟨l, r, hl, hr, -⟩ := typeOf_binary h
    exact known_binary.mpr ⟨ihl hl, ihr hr⟩
  | _ => simp [Known, Formula.mentions]

theorem arithmetical_binary {op : Operator} {left right : Formula} {p : Pos} :
    Arithmetical kindOf (.binary op left right p) ↔
      (op ≠ .add → (leaves left).any (isTextLeaf kindOf) = false ∧
        (leaves right).any (isTextLeaf kindOf) = false) ∧
      Arithmetical kindOf left ∧ Arithmetical kindOf right := by
  simp only [Arithmetical, operations, leaves, List.forall_mem_cons, List.forall_mem_append,
    List.any_append, Bool.or_eq_false_iff]

/-- Types that take part in formulas are textual or numeric, and not both. -/
theorem isNumeric_eq_not_isTextual {k : TypeKind} (h : (k.isNumeric || k.isTextual) = true) :
    k.isNumeric = !k.isTextual := by
  cases k <;> first | rfl | cases h

theorem kindOver_isTextual (ends : List Formula) :
    (kindOver kindOf ends).isTextual = ends.any (isTextLeaf kindOf) := by
  unfold kindOver
  split
  next htext => rw [htext]; rfl
  next htext =>
    rw [Bool.not_eq_true] at htext
    split <;> rw [htext] <;> rfl

theorem kindOver_usable (ends : List Formula) :
    ((kindOver kindOf ends).isNumeric || (kindOver kindOf ends).isTextual) = true := by
  unfold kindOver
  split
  · rfl
  · split <;> rfl

/-- What the leaves say of the type of a formula over known fields: whether it takes part in
arithmetic, and whether it has a fraction there. -/
structure Summary (kindOf : String → Option TypeKind) (formula : Formula) : Prop where
  usable : ((kindByLeaves kindOf formula).isNumeric ||
    (kindByLeaves kindOf formula).isTextual) = true
  textual : (kindByLeaves kindOf formula).isTextual = (leaves formula).any (isTextLeaf kindOf)
  decimal : (leaves formula).any (isTextLeaf kindOf) = false →
    (kindByLeaves kindOf formula = .decimal ↔
      (leaves formula).any (isDecimalLeaf kindOf) = true)

theorem summary_of_known {formula : Formula} (h : Known kindOf formula) :
    Summary kindOf formula := by
  cases formula with
  | field name p =>
    obtain ⟨k, hk, husable⟩ := h (name, p) (by simp [Formula.mentions])
    refine ⟨?_, ?_, fun _ => ?_⟩
    · simpa [kindByLeaves, hk] using husable
    · simp [kindByLeaves, leaves, isTextLeaf, hk]
    · simp [kindByLeaves, leaves, isDecimalLeaf, hk]
  | string text p => exact ⟨rfl, rfl, fun h => by cases h⟩
  | number raw p =>
    refine ⟨?_, ?_, fun _ => ?_⟩
    · rcases numberKind_cases raw with hk | hk <;> simp [kindByLeaves, hk, TypeKind.isNumeric]
    · rcases numberKind_cases raw with hk | hk <;>
        simp [kindByLeaves, hk, leaves, isTextLeaf, TypeKind.isTextual]
    · simp [kindByLeaves, leaves, isDecimalLeaf, numberKind]
  | binary op left right p =>
    refine ⟨kindOver_usable _, kindOver_isTextual _, fun htext => ?_⟩
    simp [kindByLeaves, kindOver, htext]

/-- An operation on types that take part in formulas: only a sum takes texts. -/
theorem sumKind_iff {op : Operator} {l r k : TypeKind}
    (hl : (l.isNumeric || l.isTextual) = true) (hr : (r.isNumeric || r.isTextual) = true) :
    sumKind op l r = .ok k ↔
      (op ≠ .add → l.isTextual = false ∧ r.isTextual = false) ∧
      k = if l.isTextual || r.isTextual then .string
        else if l = .decimal ∨ r = .decimal then .decimal else .int := by
  simp only [sumKind, isNumeric_eq_not_isTextual hl, isNumeric_eq_not_isTextual hr, Bool.not_not]
  cases htext : (l.isTextual || r.isTextual) with
  | true =>
    by_cases hadd : op = .add
    · simp [hadd, @eq_comm _ k]
    · rw [Bool.or_eq_true_iff] at htext
      rcases htext with htext | htext <;> simp [hadd, htext]
  | false =>
    obtain ⟨hlt, hrt⟩ := Bool.or_eq_false_iff.mp htext
    by_cases hdecimal : l = .decimal ∨ r = .decimal <;> simp [hlt, hrt, hdecimal, @eq_comm _ k]

/-- The type of an operation by the leaves of both sides. -/
theorem kindOver_append {left right : Formula} (hl : Summary kindOf left)
    (hr : Summary kindOf right) :
    kindOver kindOf (leaves left ++ leaves right) =
      if (kindByLeaves kindOf left).isTextual || (kindByLeaves kindOf right).isTextual then .string
      else if kindByLeaves kindOf left = .decimal ∨ kindByLeaves kindOf right = .decimal then
        .decimal
      else .int := by
  rw [kindOver, List.any_append, List.any_append, hl.textual, hr.textual]
  cases htext : ((leaves left).any (isTextLeaf kindOf) || (leaves right).any (isTextLeaf kindOf))
    with
  | true => rfl
  | false =>
    obtain ⟨hlt, hrt⟩ := Bool.or_eq_false_iff.mp htext
    simp only [hl.decimal hlt, hr.decimal hrt, Bool.or_eq_true]

/-- Whether a formula has a type, and which, as its leaves tell it. -/
theorem typeOf_eq_ok_iff (kindOf : String → Option TypeKind) (formula : Formula) (k : TypeKind) :
    typeOf kindOf formula = .ok k ↔
      Known kindOf formula ∧ Arithmetical kindOf formula ∧ k = kindByLeaves kindOf formula := by
  induction formula generalizing k with
  | field name p =>
    simp only [typeOf, Known, Arithmetical, kindByLeaves, Formula.mentions, operations,
      List.forall_mem_singleton, List.not_mem_nil, false_imp_iff, implies_true, true_and]
    cases hk : kindOf name with
    | none => simp
    | some k' =>
      by_cases husable : k'.isNumeric = true ∨ k'.isTextual = true <;>
        simp [husable, @eq_comm _ k]
  | string text p =>
    simp [typeOf, Known, Arithmetical, kindByLeaves, Formula.mentions, operations, @eq_comm _ k]
  | number raw p =>
    simp [typeOf, Known, Arithmetical, kindByLeaves, Formula.mentions, operations, @eq_comm _ k]
  | binary op left right p ihl ihr =>
    have hsplit : typeOf kindOf (.binary op left right p) = .ok k ↔
        ∃ l, typeOf kindOf left = .ok l ∧
          ∃ r, typeOf kindOf right = .ok r ∧ sumKind op l r = .ok k := by
      simp only [typeOf, bind_eq_ok]
    rw [hsplit, known_binary, arithmetical_binary]
    constructor
    · rintro ⟨l, hl, r, hr, hsum⟩
      obtain ⟨hknownl, hplainl, rfl⟩ := (ihl l).mp hl
      obtain ⟨hknownr, hplainr, rfl⟩ := (ihr r).mp hr
      have sl := summary_of_known hknownl
      have sr := summary_of_known hknownr
      obtain ⟨htexts, rfl⟩ := (sumKind_iff sl.usable sr.usable).mp hsum
      rw [sl.textual, sr.textual] at htexts
      exact ⟨⟨hknownl, hknownr⟩, ⟨htexts, hplainl, hplainr⟩, (kindOver_append sl sr).symm⟩
    · rintro ⟨⟨hknownl, hknownr⟩, ⟨htexts, hplainl, hplainr⟩, rfl⟩
      have sl := summary_of_known hknownl
      have sr := summary_of_known hknownr
      rw [← sl.textual, ← sr.textual] at htexts
      exact ⟨_, (ihl _).mpr ⟨hknownl, hplainl, rfl⟩, _, (ihr _).mpr ⟨hknownr, hplainr, rfl⟩,
        (sumKind_iff sl.usable sr.usable).mpr ⟨htexts, kindOver_append sl sr⟩⟩

end Scaffold.Check
