import Scaffold.Proofs.Model.Printed
import Scaffold.Proofs.Server.Inputs
import Scaffold.Proofs.Server.Readback

/-! # Numbers read back

The numbers of formulas and of inputs go into the code as they are written in the source. The code
of a formula keeps their values exactly when none of them is misread, and so does the code of an
input. -/
namespace Scaffold.Server

open Scaffold.Model Scaffold.Code
open Scaffold.Source (Operator)
open Scaffold.Text (quoted)

/-! ## Numbers of a formula -/

/-- The numbers of a formula that are written as numbers. In a text they are quoted. -/
def plainNumbers (inText : Bool) : Expr → List String
  | .literal kind raw => if inText || kind = .string then [] else [raw]
  | .field _ => []
  | .binary _ left right kind => plainNumbers (isText kind) left ++ plainNumbers (isText kind) right

@[simp] theorem plainNumbers_field (inText : Bool) (name : String) :
    plainNumbers inText (.field name) = [] := rfl

@[simp] theorem plainNumbers_literal (inText : Bool) (kind : TypeKind) (raw : String) :
    plainNumbers inText (.literal kind raw) =
      if inText || kind = .string then [] else [raw] := rfl

@[simp] theorem plainNumbers_binary (inText : Bool) (op : Operator) (left right : Expr)
    (kind : TypeKind) : plainNumbers inText (.binary op left right kind) =
      plainNumbers (isText kind) left ++ plainNumbers (isText kind) right := rfl

/-- Code is the tree of a formula, as `Renders` has it, and each number in it stands for the number
of the source. -/
inductive Exact : (inText : Bool) → Expr → Expression → Prop
  | field {inText : Bool} (name : String) :
    Exact inText (.field name) (.select (.name "r") (fieldMember name))
  | string {inText : Bool} (value : String) :
    Exact inText (.literal .string value) (.literal (quoted value))
  | number {kind : TypeKind} {raw : String} : kind ≠ .string → codeValue raw = decimalValue raw →
    Exact false (.literal kind raw) (.literal raw)
  | digits (kind : TypeKind) (raw : String) :
    Exact true (.literal kind raw) (.literal (quoted raw))
  | binary {inText : Bool} {op : Operator} {left right : Expr} {kind : TypeKind}
    {l r : Expression} : Exact (isText kind) left l → Exact (isText kind) right r →
    Exact inText (.binary op left right kind) (.binary op l r)
  | converted {inText : Bool} {e : Expr} {c : Expression} (conversion : Conversion) :
    Exact inText e c → Exact inText e (conversion.apply c)

theorem Renders.exact {inText : Bool} {e : Expr} {c : Expression} (h : Renders inText e c)
    (hvalues : ∀ raw ∈ plainNumbers inText e, codeValue raw = decimalValue raw) :
    Exact inText e c := by
  induction h with
  | field name => exact .field name
  | string value => exact .string value
  | number raw hkind => exact .number hkind (hvalues raw (by simp [hkind]))
  | digits kind raw => exact .digits kind raw
  | binary _ _ ihl ihr =>
    obtain ⟨hleft, hright⟩ := List.forall_mem_append.mp hvalues
    exact .binary (ihl hleft) (ihr hright)
  | converted conversion _ ih => exact .converted conversion (ih hvalues)

theorem Exact.values {inText : Bool} {e : Expr} {c : Expression} (h : Exact inText e c) :
    ∀ raw ∈ plainNumbers inText e, codeValue raw = decimalValue raw := by
  induction h with
  | field name => simp
  | string value => simp
  | number hkind hvalue => simp [hkind, hvalue]
  | digits kind raw => simp
  | binary _ _ ihl ihr => exact List.forall_mem_append.mpr ⟨ihl, ihr⟩
  | converted _ _ ih => exact ih

/-- The code of a formula keeps its numbers unless one of them is misread. -/
theorem Renders.exact_iff {inText : Bool} {e : Expr} {c : Expression} (h : Renders inText e c)
    (hsound : ∀ raw ∈ plainNumbers inText e, isNumberLiteral raw = true) :
    Exact inText e c ↔ ∀ raw ∈ plainNumbers inText e, isMisread raw = false := by
  have hvalues : Exact inText e c ↔
      ∀ raw ∈ plainNumbers inText e, codeValue raw = decimalValue raw :=
    ⟨Exact.values, h.exact⟩
  exact hvalues.trans (forall₂_congr fun raw hraw => codeValue_eq_iff (hsound raw hraw))

/-! ## Formulas of valid code -/

/-- The members of a formula are names of the code, and its numbers are number literals. -/
def IsWritten (inText : Bool) (e : Expr) : Prop :=
  NamesMembers e ∧ ∀ raw ∈ plainNumbers inText e, isNumberLiteral raw = true

theorem namesMembers_literal (kind : TypeKind) (value : String) :
    NamesMembers (.literal kind value) := List.forall_mem_nil _

theorem namesMembers_binary {op : Operator} {left right : Expr} {kind : TypeKind} :
    NamesMembers (.binary op left right kind) ↔ NamesMembers left ∧ NamesMembers right :=
  List.forall_mem_append

theorem isWritten_binary {inText : Bool} {op : Operator} {left right : Expr} {kind : TypeKind} :
    IsWritten inText (.binary op left right kind) ↔
      IsWritten (isText kind) left ∧ IsWritten (isText kind) right := by
  simp only [IsWritten, namesMembers_binary, plainNumbers_binary, List.forall_mem_append]
  exact and_and_and_comm

theorem IsWritten.anywhere {inText : Bool} {e : Expr} (h : IsWritten inText e) (he : IsCompound e)
    (inText' : Bool) : IsWritten inText' e := by
  cases e with
  | literal kind value => exact absurd rfl (he kind value)
  | _ => exact h

theorem isWritten_literal (kind : TypeKind) (value : String) :
    IsWritten true (.literal kind value) := by
  simp [IsWritten, namesMembers_literal]

theorem isSound_stripped (t : Term) : t.stripped.isSound = t.isSound := by cases t <;> rfl

theorem isSound_asDecimal (e : Expr) (t : Term) (kind : TypeKind) :
    (Formula.asDecimal e t kind).isSound = t.isSound := by
  unfold Formula.asDecimal
  split <;> rfl

/-- A term of a formula is converted to a text, and so are its numbers. -/
theorem isWritten_asText {e : Expr} {t : Term} {kind : TypeKind}
    (ht : t.isSound = true → IsWritten false e) (h : (Formula.asText e t kind).isSound = true) :
    IsWritten true e := by
  by_cases he : IsCompound e
  · have hsound : (Formula.asText e t kind).isSound = t.isSound := by
      unfold Formula.asText
      split
      · exact absurd rfl (he _ _)
      · split <;> rfl
    exact (ht (hsound ▸ h)).anywhere he true
  · obtain ⟨kind', value, rfl⟩ := exists_literal he
    exact isWritten_literal kind' value

/-- What valid code is made of is written: by induction on the formula. -/
theorem isWritten_term (owner : Entity) {e : Expr}
    (h : (Formula.term owner e).1.isSound = true) : IsWritten false e := by
  induction e with
  | field name =>
    refine ⟨List.forall_mem_singleton.mpr h, ?_⟩
    simp
  | literal kind raw =>
    by_cases hkind : kind = .string
    · subst hkind
      simp [IsWritten, namesMembers_literal]
    · rw [term_number owner hkind] at h
      refine ⟨namesMembers_literal kind raw, ?_⟩
      simpa [hkind, Term.isSound] using h
  | binary op left right kind ihl ihr =>
    rw [isWritten_binary]
    cases kind with
    | string | text =>
      obtain ⟨hl, hr⟩ := Bool.and_eq_true_iff.mp h
      exact ⟨isWritten_asText ihl hl, isWritten_asText ihr hr⟩
    | decimal =>
      obtain ⟨hl, hr⟩ := Bool.and_eq_true_iff.mp h
      exact ⟨ihl (isSound_asDecimal _ _ _ ▸ hl), ihr (isSound_asDecimal _ _ _ ▸ hr)⟩
    | _ =>
      obtain ⟨hl, hr⟩ := Bool.and_eq_true_iff.mp h
      exact ⟨ihl hl, ihr hr⟩

theorem isWritten_value {owner : Entity} {e : Expr} {want : TypeKind}
    (h : (Formula.value owner e want).isSound = true) : IsWritten (isText want) e := by
  have hterm : (Formula.term owner e).1.stripped.isSound = true → IsWritten false e := fun h =>
    isWritten_term owner (isSound_stripped _ ▸ h)
  unfold Formula.value at h
  generalize Formula.term owner e = p at h hterm
  obtain ⟨t, kind⟩ := p
  simp only at h hterm
  split at h
  · exact hterm h
  · exact isWritten_asText hterm h
  · exact isWritten_asText hterm h
  next hstring htext _ =>
    exact isText_eq_false hstring htext ▸ hterm h

/-! ## Numbers of an application -/

section Application

open Scaffold.Source Scaffold.Build Scaffold.Check

/-- The value of a resolver stands in a text, on a line of its own. It is read as the formula of
the source, and its numbers are those of the source exactly when none of them is misread. -/
structure Resolver.KeepsNumbers (r : Resolver) (text source : String) (e : Expr)
    (want : TypeKind) : Prop where
  given : ∃ formula kindOf, parseFormula (Text.runes source) = .ok formula ∧
    Lowered kindOf formula e
  stands : ("\tv := " ++ r.value.print 1 ++ "\n").toList <:+: text.toList
  reads : ∃ c, (∀ c', Reads (r.value.print 1) c' ↔ c' = c) ∧ Renders (isText want) e c ∧
    (Exact (isText want) e c ↔ ∀ raw ∈ plainNumbers (isText want) e, isMisread raw = false)

/-- An input with a literal of the source stands in a text, on a line of its own. It is read as the
literal, and its numbers are those of the source exactly when none of them is misread. -/
structure InputKeepsNumbers (f : File) (i : Input) (j : Json) (text : String) : Prop where
  given : ∃ d ∈ f.decls, ∃ v ∈ d.values, j = literalValue v
  stands : ∃ blanks,
    ("\t\t\t" ++ entryLine (quoted i.key) (literalCode j) blanks ++ "\n").toList <:+: text.toList
  reads : datumOf? (literalCode j) = some (datum codeValue j)
  exact : datum codeValue j = datum decimalValue j ↔ ∀ raw ∈ j.numbers, isMisread raw = false

/-- What becomes of the numbers of an application in the texts of its resolvers and handlers. -/
structure NumbersKept (f : File) (a : Application) (resolvers handlers : String) : Prop where
  computed : ∀ e ∈ a.entities, ∀ g ∈ e.fields, ∀ v, g.virtual = some v →
    ∃ r, virtualResolver? e g = some r ∧ r.KeepsNumbers resolvers v.source v.expr g.type.kind
  shown : ∀ v ∈ a.views, ∀ g ∈ v.fields, ∀ source expr, g.value = .formula source expr →
    ∃ r, viewResolver? a v g = some r ∧ r.KeepsNumbers resolvers source expr g.resultType
  inputs : ∀ w ∈ a.workflows, ∀ s ∈ w.steps, ∀ i ∈ s.inputs, ∀ j, i.value = .literal j →
    InputKeepsNumbers f i j handlers

theorem text?_eq_some {l : Listing} {text : String} (h : l.text? = some text) :
    l.isSound = true ∧ l.text = text := by
  simpa [Listing.text?] using h

theorem part_mem {a : Application} {r : Resolver} (hr : r ∈ resolvers a) :
    r.part ∈ (resolverListing a).parts := by
  have hsome : (resolvers a).isEmpty = false := by simp [List.ne_nil_of_mem hr]
  simp only [resolverListing, hsome, Bool.false_eq_true, if_false]
  exact List.mem_map_of_mem hr

/-- A computed field has a resolver. -/
theorem exists_computed {a : Application} {e : Entity} (he : e ∈ a.entities) {g : Field}
    (hg : g ∈ e.fields) {v : Virtual} (hv : g.virtual = some v) :
    ∃ r ∈ resolvers a, virtualResolver? e g = some r ∧
      r.value = Formula.value e v.expr g.type.kind := by
  refine ⟨_, List.mem_append_left _ (List.mem_flatMap.mpr ⟨e, he, ?_⟩),
    by rw [virtualResolver?, hv, Option.map_some], rfl⟩
  exact List.mem_filterMap.mpr ⟨g, hg, by rw [virtualResolver?, hv, Option.map_some]⟩

/-- A formula of a view has a resolver. -/
theorem exists_shown {a : Application} {v : View} (hv : v ∈ a.views) {g : ViewField}
    (hg : g ∈ v.fields) {source : String} {expr : Expr} (hvalue : g.value = .formula source expr)
    {owner : Entity} (howner : a.entity? v.source = some owner) :
    ∃ r ∈ resolvers a, viewResolver? a v g = some r ∧
      r.value = Formula.value owner expr g.resultType := by
  refine ⟨_, List.mem_append_right _ (List.mem_flatMap.mpr ⟨v, hv, ?_⟩),
    by rw [viewResolver?, hvalue, howner], rfl⟩
  exact List.mem_filterMap.mpr ⟨g, hg, by rw [viewResolver?, hvalue, howner]⟩

theorem keepsNumbers {a : Application} {text : String}
    (htext : (resolverListing a).text? = some text) {r : Resolver} (hr : r ∈ resolvers a)
    {s : Symbols} {d : EntityDecl} {source : String} {e : Expr} {result want : TypeKind}
    (h : FormulaLowered s d (buildEntity s d) source e result)
    (hvalue : r.value = Formula.value (buildEntity s d) e want) :
    r.KeepsNumbers text source e want := by
  obtain ⟨hsound, rfl⟩ := text?_eq_some htext
  obtain ⟨formula, hparsed, -, hlowered⟩ := h.tree
  have hpart : r.part.sound = true := List.all_eq_true.mp hsound _ (part_mem hr)
  have hterm : (Formula.value (buildEntity s d) e want).isSound = true := by
    simp only [Resolver.part, Bool.and_eq_true] at hpart
    exact hvalue ▸ hpart.1.1.2
  obtain ⟨hnames, hnumbers⟩ := isWritten_value hterm
  obtain ⟨_, c, -, -, hreads, hrenders⟩ := reads_lowered h want hnames
  exact ⟨⟨formula, _, hparsed, hlowered⟩, infix_text (part_mem hr) (by simp [Resolver.part]),
    c, hvalue ▸ hreads, hrenders, hrenders.exact_iff hnumbers⟩

theorem inputKeepsNumbers {path : String} {source : List Text.Rune} {f : File}
    (hf : parseSource path source = .ok f) {name text : String}
    (htext : (workflowListing (build ⟨f.decls⟩ name)).text? = some text) {w : Workflow}
    (hw : w ∈ (build ⟨f.decls⟩ name).workflows) {s : WorkflowStep} (hs : s ∈ w.steps) {i : Input}
    (hi : i ∈ s.inputs) {j : Json} (hj : i.value = .literal j) :
    InputKeepsNumbers f i j text := by
  obtain ⟨hsound, rfl⟩ := text?_eq_some htext
  have hliteral : j ∈ (build ⟨f.decls⟩ name).literals := by
    refine List.mem_append_right _ (List.mem_flatMap.mpr ⟨w, hw, List.mem_flatMap.mpr ⟨s, hs, ?_⟩⟩)
    exact List.mem_flatMap.mpr ⟨i, hi, by simp [Input.literals, hj]⟩
  obtain ⟨d, hd, v, hv, hvalue⟩ := literals_build hliteral
  have hpart : (handlerPart w).sound = true := by
    refine List.all_eq_true.mp hsound _ ?_
    exact List.mem_append_left _ (List.mem_append_right _ (List.mem_map_of_mem hw))
  have hnumbers : isLiteralSound j = true := by
    have hinput := List.all_eq_true.mp (List.all_eq_true.mp hpart s hs) i hi
    simpa [isInputSound, hj] using hinput
  have hwritable : IsWritable j := by
    refine fun raw hraw => ⟨?_, isLiteralSound_iff.mp hnumbers raw hraw⟩
    obtain ⟨p, hp⟩ := numbers_literalValue v raw (hvalue ▸ hraw)
    exact parseSource_values hf d hd v hv _ hp
  have hstands := infix_workflows hw hs hi
  rw [hj] at hstands
  exact ⟨⟨d, hd, v, hv, hvalue⟩, hstands, datumOf?_literalCode hwritable,
    datum_codeValue_iff hwritable⟩

end Application

end Scaffold.Server

namespace Scaffold

open Scaffold.Source Scaffold.Model Scaffold.Build Scaffold.Server Scaffold.Check
open Scaffold.Code (codeValue decimalValue isMisread)

/-- The numbers of a compiled application whose resolvers and handlers are written stand in their
texts as they stand in the source. Read as code, they keep their values exactly when no whole number
has a zero in front and two digits or more behind its zeros. -/
theorem compile_numerals {path : String} {source : List Text.Rune} {opts : CompileOptions}
    {app : Application} (h : compile path source opts = .ok app) {resolvers handlers : String}
    (hresolvers : (resolverListing app).text? = some resolvers)
    (hhandlers : (workflowListing app).text? = some handlers) :
    ∃ f, parseSource path source = .ok f ∧ NumbersKept f app resolvers handlers := by
  obtain ⟨f, hf, hnamed, hs, rfl⟩ := compile_ok h
  have hn := entitiesNamed_of_named hnamed
  refine ⟨f, hf, ?_, ?_, fun w hw s hstep i hi j hj =>
    inputKeepsNumbers hf hhandlers hw hstep hi hj⟩
  · refine List.forall_mem_map.mpr fun d hd => List.forall_mem_map.mpr fun g hg v hv => ?_
    obtain ⟨r, hmem, hr, hvalue⟩ :=
      exists_computed (a := build ⟨f.decls⟩ opts.name) (mem_entities hd) (List.mem_map_of_mem hg) hv
    exact ⟨r, hr, keepsNumbers hresolvers hmem (virtual_lowered hs hd hg hv).formula hvalue⟩
  · refine List.forall_mem_map.mpr fun v hv g hg text expr hvalue => ?_
    obtain ⟨d, members, hview⟩ := hs.view hv
    obtain ⟨hd, -, hbuilt⟩ := view_built hview hs.distinct hn
    have hfield : g ∈ members.filterMap (buildViewField (declaredKind ⟨f.decls⟩ d) v.name) := by
      rwa [hbuilt] at hg
    have howner : (build ⟨f.decls⟩ opts.name).entity? (buildView ⟨f.decls⟩ v).source =
        some (buildEntity ⟨f.decls⟩ d) := by
      rw [hbuilt]
      exact build_entity? hs.distinct opts.name _ (mem_entities hd)
    obtain ⟨r, hmem, hr, hformula⟩ :=
      exists_shown (a := build ⟨f.decls⟩ opts.name) (List.mem_map_of_mem hv) hg hvalue howner
    exact ⟨r, hr, keepsNumbers hresolvers hmem (shown_lowered hview hfield hvalue) hformula⟩

/-- The numbers of all formulas that are written as numbers. -/
def formulaNumbers (a : Application) : List String :=
  (formulas a).flatMap fun (_, e, want) => plainNumbers (isText want) e

/-- Bills with a surcharge, and a step with numbers of its own. -/
def bills : List Text.Rune := Text.runes
  "entity Bill \x7b id: Int primaryKey price: Decimal
  total: Decimal @virtual(from: \"price * 1.50 - -2\") \x7d
  view Bills \x7b source: Bill
  fields: \x7b next: \"id + 100\" label: \"'No ' + 007\" \x7d \x7d
  workflow Remind \x7b trigger: \"bill.due\"
  step mail \x7b times: 3 data: \x7b rates: [0.5, -10] \x7d \x7d \x7d"

theorem bills_numerals : ∃ app resolvers handlers f,
    compile "" bills ⟨[], ""⟩ = .ok app ∧ (resolverListing app).text? = some resolvers ∧
    (workflowListing app).text? = some handlers ∧
    formulaNumbers app = ["1.50", "-2", "100"] ∧ app.numbers = ["3", "0.5", "-10"] ∧
    (∀ raw ∈ formulaNumbers app ++ app.numbers, isMisread raw = false) ∧
    parseSource "" bills = .ok f ∧ NumbersKept f app resolvers handlers := by
  have hok : (compile "" bills ⟨[], ""⟩).toOption.any (fun app =>
      (resolverListing app).isSound ∧ (workflowListing app).isSound ∧
        formulaNumbers app = ["1.50", "-2", "100"] ∧ app.numbers = ["3", "0.5", "-10"] ∧
        ∀ raw ∈ formulaNumbers app ++ app.numbers, isMisread raw = false) = true := by
    rw [bills, Text.runes_ofList]
    decide +kernel
  obtain ⟨app, happ, hp⟩ := exists_ok_of_any hok
  obtain ⟨hresolvers, hhandlers, hformulas, hliterals, hread⟩ := of_decide_eq_true hp
  have hr : (resolverListing app).text? = some (resolverListing app).text := if_pos hresolvers
  have hw : (workflowListing app).text? = some (workflowListing app).text := if_pos hhandlers
  obtain ⟨f, hf, hkept⟩ := compile_numerals happ hr hw
  exact ⟨app, _, _, f, happ, hr, hw, hformulas, hliterals, hread, hf, hkept⟩

/-- Lockers whose numbers are padded. -/
def lockers : List Text.Rune := Text.runes
  "entity Locker \x7b id: Int primaryKey next: Int @virtual(from: \"id + 010\") \x7d
  workflow Open \x7b trigger: \"locker.open\" step unlock \x7b seconds: 010 \x7d \x7d"

/-- Ten of the source is eight in the code, in a formula and in an input. -/
theorem lockers_numerals : ∃ app resolvers handlers,
    compile "" lockers ⟨[], ""⟩ = .ok app ∧ (resolverListing app).text? = some resolvers ∧
    (workflowListing app).text? = some handlers ∧
    (Server.resolvers app).map (·.value.print 1) = ["r.ID + 010"] ∧
    Code.Reads "r.ID + 010" (.binary .add (.select (.name "r") "ID") (.literal "010")) ∧
    app.literals.map literalCode = ["010"] ∧
    decimalValue "010" = 10 ∧ codeValue "010" = 8 := by
  have hok : (compile "" lockers ⟨[], ""⟩).toOption.any (fun app =>
      (resolverListing app).isSound ∧ (workflowListing app).isSound ∧
        (Server.resolvers app).map (·.value.print 1) = ["r.ID + 010"] ∧
        app.literals.map literalCode = ["010"]) = true := by
    rw [lockers, Text.runes_ofList]
    decide +kernel
  obtain ⟨app, happ, hp⟩ := exists_ok_of_any hok
  obtain ⟨hresolvers, hhandlers, hvalues, hinputs⟩ := of_decide_eq_true hp
  have hlexed : Code.Lexes "r.ID + 010".toList
      [.name "r", .mark '.', .name "ID", .mark '+', .number "010"] :=
    .cons rfl (.cons rfl (.cons rfl (.blank (.cons rfl (.blank (.cons rfl .nil))))))
  have hselect : Code.Derives .primary [.name "r", .mark '.', .name "ID"]
      (.select (.name "r") "ID") := .select "ID" (.name "r")
  have htight : Code.tight .add = false := rfl
  have hsum := Code.Derives.add htight (.term (.factor (.unsigned hselect)))
    (.factor (.unsigned (.number "010")))
  exact ⟨app, _, _, happ, if_pos hresolvers, if_pos hhandlers, hvalues, ⟨_, hlexed, hsum⟩, hinputs,
    by decide +kernel, by decide +kernel⟩

end Scaffold
