import Scaffold.Proofs.Build.Closed
import Scaffold.Proofs.Check.Typing
import Scaffold.Proofs.Source.FormulaGrammar

/-! # Lowered formulas

The checks and the builder parse and type every formula on their own, over what each of them knows
of the fields of an entity. The expression that the builder keeps is the checked formula: the same
tree, and at each operation the type that the checks found. -/
namespace Scaffold.Build

open Scaffold.Source Scaffold.Check Scaffold.Model

/-- An expression is the tree of a formula; each operation carries the type that the formula has
there, which is never empty. -/
inductive Lowered (kindOf : String → Option TypeKind) : Formula → Expr → Prop
  | field (name : String) (p : Pos) : Lowered kindOf (.field name p) (.field name)
  | string (text : String) (p : Pos) :
    Lowered kindOf (.string text p) (.literal .string text)
  | number (raw : String) (p : Pos) :
    Lowered kindOf (.number raw p) (.literal (numberKind raw) raw)
  | binary {op : Operator} {left right : Formula} {l r : Expr} {p : Pos} {k : TypeKind}
      (lowerLeft : Lowered kindOf left l) (lowerRight : Lowered kindOf right r)
      (typed : typeOf kindOf (.binary op left right p) = .ok k) (given : k.name ≠ "") :
    Lowered kindOf (.binary op left right p) (.binary op l r k)

/-- What the builder makes of the source of a formula over an entity. -/
structure FormulaLowered (s : Symbols) (d : EntityDecl) (owner : Entity) (source : String)
    (expr : Expr) (result : TypeKind) : Prop where
  tree : ∃ formula, parseFormula (Text.runes source) = .ok formula ∧
    typeOf (fieldKind? s d) formula = .ok result ∧ Lowered (fieldKind? s d) formula expr
  type : expr.type owner.fieldKind = result

/-- What the builder makes of a computed field. -/
structure VirtualLowered (s : Symbols) (d : EntityDecl) (owner : Entity) (f : Field)
    (v : Virtual) : Prop where
  formula : FormulaLowered s d owner v.source v.expr v.resultType
  dependsOn : v.dependsOn = v.expr.refs
  declared : ∀ name ∈ v.dependsOn, owner.Declares name
  assignable : f.type.kind.assignable v.resultType = true

/-- Every formula of an application is lowered from a declaration. -/
structure FormulasLowered (s : Symbols) (app : Application) : Prop where
  computed : ∀ e ∈ app.entities, ∃ d, s.entity? e.name = some d ∧
    ∀ f ∈ e.fields, ∀ v, f.virtual = some v → VirtualLowered s d e f v
  shown : ∀ v ∈ app.views, ∃ d owner, s.entity? v.source = some d ∧
    app.entity? v.source = some owner ∧ ∀ f ∈ v.fields, ∀ source expr,
      f.value = .formula source expr → FormulaLowered s d owner source expr f.resultType

section Formula

variable {s : Symbols} {e : EntityDecl} {formula : Formula} {k : TypeKind}

theorem name_ne_empty {kindOf : String → Option TypeKind} (h : typeOf kindOf formula = .ok k) :
    k.name ≠ "" := by
  have husable := typeOf_usable h
  cases k <;> first | decide | cases husable

/-- A formula with a type is lowered, over the fields as the builder knows them, to its own tree. -/
theorem lowered_lower (h : typeOf (fieldKind? s e) formula = .ok k) :
    Lowered (fieldKind? s e) formula (lower (declaredKind s e) formula) := by
  induction formula generalizing k with
  | field name p => exact .field name p
  | string text p => exact .string text p
  | number raw p => exact .number raw p
  | binary op left right p ihl ihr =>
    obtain ⟨l, r, hl, hr, -⟩ := typeOf_binary h
    rw [lower, (formulaKind_checked h).2]
    exact .binary (ihl hl) (ihr hr) h (name_ne_empty h)

theorem findField?_build {name : String} {f : FieldDecl} (h : findField? e name = some f) :
    (buildEntity s e).field? name = some (buildField s e f) := by
  have hfields : (buildEntity s e).field? name = (findField? e name).map (buildField s e) :=
    List.find?_map
  rw [hfields, h, Option.map_some]

/-- The entity of the model knows the type of a field that the checks let be used. -/
theorem fieldKind_build {name : String} (h : declaredKind s e name = some k) :
    (buildEntity s e).fieldKind name = k := by
  obtain ⟨f, hf, hk⟩ := Option.bind_eq_some_iff.mp h
  obtain ⟨t, ht, rfl⟩ := Option.map_eq_some_iff.mp hk
  simp [Entity.fieldKind, findField?_build hf, buildField, ht]

theorem type_lower (h : typeOf (fieldKind? s e) formula = .ok k) :
    (lower (declaredKind s e) formula).type (buildEntity s e).fieldKind = k := by
  obtain ⟨hdeclared, hkind⟩ := formulaKind_checked h
  cases formula with
  | field name p => exact fieldKind_build (typeOf_field hdeclared).1
  | string text p =>
    cases h
    rfl
  | number raw p =>
    cases h
    rfl
  | binary op left right p => exact hkind

theorem formulaLowered {source : String} (hparsed : parseFormula (Text.runes source) = .ok formula)
    (h : typeOf (fieldKind? s e) formula = .ok k) :
    FormulaLowered s e (buildEntity s e) source (lower (declaredKind s e) formula) k :=
  ⟨⟨formula, hparsed, h, lowered_lower h⟩, type_lower h⟩

theorem refs_lower (kindOf : String → Option TypeKind) (formula : Formula) :
    (lower kindOf formula).refs = formula.refs.map (·.1) := by
  have hrefs : (lower kindOf formula).refs = (lower kindOf formula).mentions.eraseDups :=
    foldl_contains _
  rw [hrefs, mentions_lower, Grammar.names_refs]

end Formula

section Accepted

variable {s : Symbols} {extra : List String} {e : EntityDecl}

/-- The formula of a computed field is lowered from its declaration. -/
theorem virtual_lowered (hs : s.Accepted extra) (he : e ∈ s.entities) {f : FieldDecl}
    (hf : f ∈ e.fields) {v : Virtual} (hv : (buildField s e f).virtual = some v) :
    VirtualLowered s e (buildEntity s e) (buildField s e f) v := by
  obtain ⟨⟨source, p⟩, hsource, hv⟩ := Option.bind_eq_some_iff.mp hv
  obtain ⟨t, ht⟩ := (hs.entity he).field f hf
  obtain ⟨formula, hparsed, haccepted⟩ := (hs.entity he).formula f hf source p hsource
  obtain ⟨formula', k, hparsed', hk, hassign⟩ := hs.assignable he hf hsource ht.type
  obtain rfl : formula' = formula := Except.ok.inj (hparsed'.symm.trans hparsed)
  simp only [hparsed, Except.toOption, Option.bind_eq_bind, Option.bind_some,
    Option.some.injEq] at hv
  subst hv
  have hkind := (formulaKind_checked hk).2
  constructor
  · rw [hkind]
    exact formulaLowered hparsed hk
  · exact (refs_lower _ formula').symm
  · intro name hname
    obtain ⟨r, hr, rfl⟩ := List.mem_map.mp hname
    exact declares_of_findField? (haccepted.known r hr)
  · rw [hkind]
    simpa [buildField, ht.type] using hassign

/-- The formula of a member of a view is lowered from the text of the member. -/
theorem shown_lowered {members : List Property} {v : BlockDecl} (h : ViewAccepted s v e members)
    {f : ViewField} (hf : f ∈ members.filterMap (buildViewField (declaredKind s e) v.name))
    {source : String} {expr : Expr} (hvalue : f.value = .formula source expr) :
    FormulaLowered s e (buildEntity s e) source expr f.resultType := by
  obtain ⟨p, hp, hbuilt⟩ := List.mem_filterMap.mp hf
  have hmember := h.member p hp
  unfold buildViewField at hbuilt
  split at hbuilt
  · cases hbuilt
    cases hvalue
  next text at_ hv =>
    rw [hv] at hmember
    cases hmember with
    | formula _ parsed accepted =>
      obtain ⟨k, hk⟩ := accepted.typed
      simp only [parsed, Except.toOption, Option.bind_eq_bind, Option.bind_some,
        Option.some.injEq] at hbuilt
      subst hbuilt
      cases hvalue
      rw [(formulaKind_checked hk).2]
      exact formulaLowered parsed hk
  · cases hbuilt

end Accepted

end Scaffold.Build

namespace Scaffold

open Scaffold.Source Scaffold.Check Scaffold.Model Scaffold.Build

/-- Every formula of a compiled application is the checked one: parsed from its source, with the
types that the checks gave it. A computed field depends on exactly the fields it mentions and can
hold what its formula gives. -/
theorem compile_formulas {path : String} {source : List Text.Rune} {opts : CompileOptions}
    {app : Application} (h : compile path source opts = .ok app) :
    ∃ file, parseSource path source = .ok file ∧ FormulasLowered ⟨file.decls⟩ app := by
  obtain ⟨file, hfile, hnamed, hs, rfl⟩ := compile_ok h
  have hn := entitiesNamed_of_named hnamed
  refine ⟨file, hfile, List.forall_mem_map.mpr fun e he => ?_,
    List.forall_mem_map.mpr fun v hv => ?_⟩
  · exact ⟨e, hs.distinct.entity? he, List.forall_mem_map.mpr fun f hf v hv =>
      virtual_lowered hs he hf hv⟩
  · obtain ⟨e, members, hview⟩ := hs.view hv
    obtain ⟨he, -, hbuilt⟩ := view_built hview hs.distinct hn
    rw [hbuilt]
    exact ⟨e, buildEntity ⟨file.decls⟩ e, hs.distinct.entity? he,
      entity?_build hs.distinct he opts.name, fun f hf source expr hvalue =>
        shown_lowered hview hf hvalue⟩

/-- Tickets with a price and a label made from it. -/
def tickets : List Text.Rune := [
  "entity Ticket \x7b ",
  "id: Int primaryKey ",
  "price: Decimal ",
  "total: Decimal ",
  "@virtual(from: \"price - -2 * id\") \x7d ",
  "view Tickets \x7b ",
  "source: Ticket fields: \x7b ",
  "label: \"'No ' + (id + 1)\" ",
  "\x7d \x7d"].flatMap Text.runes

theorem tickets_formulas : ∃ app, compile "" tickets ⟨[], ""⟩ = .ok app ∧
    (app.entities.flatMap fun e => e.fields.filterMap fun f =>
      f.virtual.map fun v => (v.expr, v.dependsOn)) =
      [(.binary .sub (.field "price")
        (.binary .mul (.literal .int "-2") (.field "id") .int) .decimal, ["price", "id"])] ∧
    (app.views.flatMap fun v => v.fields.map (·.resultType)) = [.string] ∧
    ∃ file, parseSource "" tickets = .ok file ∧ FormulasLowered ⟨file.decls⟩ app := by
  obtain ⟨app, happ, hformulas⟩ := exists_ok_of_any (x := compile "" tickets ⟨[], ""⟩)
    (p := fun app => decide ((app.entities.flatMap fun e => e.fields.filterMap fun f =>
      f.virtual.map fun v => (v.expr, v.dependsOn)) =
        [(.binary .sub (.field "price")
          (.binary .mul (.literal .int "-2") (.field "id") .int) .decimal, ["price", "id"])] ∧
      (app.views.flatMap fun v => v.fields.map (·.resultType)) = [.string]))
    (by simp only [tickets, List.flatMap_cons]; repeat rw [Text.runes_ofList]
        decide +kernel)
  obtain ⟨hvirtuals, hshown⟩ := of_decide_eq_true hformulas
  exact ⟨app, happ, hvirtuals, hshown, compile_formulas happ⟩

end Scaffold
