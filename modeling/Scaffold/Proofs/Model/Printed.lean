import Scaffold.Cli.Run
import Scaffold.Meta.Server
import Scaffold.Model.Encode
import Scaffold.Proofs.Json.Number
import Scaffold.Proofs.Storage.Script

/-! # Which applications can be printed

A literal default and a literal input of a step keep the numbers of the source as they are written
there. All else in an application has a printed form, so the application has one exactly when
these numbers are numbers of JSON. -/
namespace Scaffold

open Scaffold.Source Scaffold.Check Scaffold.Model Scaffold.Build
open Scaffold.Json (isNumber IsPlain unsigned)
open Scaffold.Storage (mem_values_of_default)

/-! ## Members -/

namespace Json

@[simp] theorem printable_string (text : String) : (string text).printable = true := rfl

@[simp] theorem printable_null : null.printable = true := rfl

@[simp] theorem printable_bool (value : Bool) : (bool value).printable = true := rfl

@[simp] theorem printable_array (xs : List Json) : (array xs).printable = xs.all printable := by
  rw [printable, allPrintable_eq]

@[simp] theorem printable_object (ms : List (String × Json)) :
    (object ms).printable = ms.all (·.2.printable) := by
  rw [printable, membersPrintable_eq]

@[simp] theorem printable_strings (xs : List String) : (strings xs).printable = true := by
  simp [strings]

@[simp] theorem printable_ofNat (n : Nat) : (ofNat n).printable = true := isNumber_ofNat n

@[simp] theorem printable_ofInt (n : Int) : (ofInt n).printable = true := isNumber_ofInt n

@[simp] theorem all_textMember (key text : String) :
    (textMember key text).all (·.2.printable) = true := by
  unfold textMember
  split <;> simp

@[simp] theorem all_flagMember (key : String) (flag : Bool) :
    (flagMember key flag).all (·.2.printable) = true := by
  unfold flagMember
  split <;> simp

@[simp] theorem all_listMember (key : String) (xs : List String) :
    (listMember key xs).all (·.2.printable) = true := by
  unfold listMember
  split <;> simp

@[simp] theorem all_optionMember {α : Type} (key : String) (f : α → Json) (x : Option α) :
    (optionMember key f x).all (·.2.printable) = x.all fun y => (f y).printable := by
  cases x <;> simp [optionMember]

theorem mem_insertMember {key : String} {value : Json} {ms : List (String × Json)}
    {m : String × Json} (h : m ∈ insertMember key value ms) : m = (key, value) ∨ m ∈ ms := by
  induction ms with
  | nil => exact .inl (List.mem_singleton.mp h)
  | cons n ms ih =>
    obtain ⟨k, v⟩ := n
    rw [insertMember] at h
    split at h
    · exact List.mem_cons.mp h
    split at h
    · exact (List.mem_cons.mp h).imp_right (.tail _)
    · rcases List.mem_cons.mp h with rfl | h
      · exact .inr (.head _)
      · exact (ih h).imp_right (.tail _)

/-- Sorting brings in no member. -/
theorem mem_sortedMembers {ms : List (String × Json)} {m : String × Json}
    (h : m ∈ sortedMembers ms) : m ∈ ms := by
  have hfold (ns acc : List (String × Json)) :
      m ∈ ns.foldl (fun acc m => insertMember m.1 m.2 acc) acc → m ∈ acc ∨ m ∈ ns := by
    induction ns generalizing acc with
    | nil => exact .inl
    | cons n ns ih =>
      intro h
      rcases ih (insertMember n.1 n.2 acc) h with h | h
      · rcases mem_insertMember h with rfl | h
        · exact .inr (.head _)
        · exact .inl h
      · exact .inr (.tail _ h)
  exact (hfold ms [] h).resolve_left List.not_mem_nil

theorem printable_table {ms : List (String × Json)} (h : ms.all (·.2.printable) = true) :
    (table ms).printable = true := by
  rw [table, printable_object, List.all_eq_true]
  exact fun m hm => List.all_eq_true.mp h m (mem_sortedMembers hm)

end Json

/-! ## Literals of an application -/

namespace Model

/-- The value of a default that is a literal. -/
def Default.literals : Default → List Json
  | literal value => [value]
  | function _ => []

/-- The value of an input that is a literal. -/
def Input.literals (i : Input) : List Json :=
  match i.value with
  | .literal value => [value]
  | _ => []

def Field.literals (f : Field) : List Json := (f.default.map Default.literals).getD []

/-- The literals of an application: those of defaults and those of inputs. -/
def Application.literals (a : Application) : List Json :=
  a.entities.flatMap (·.fields.flatMap Field.literals) ++
    a.workflows.flatMap (·.steps.flatMap (·.inputs.flatMap Input.literals))

/-- The numbers in the literals of an application, at any depth. -/
def Application.numbers (a : Application) : List String := a.literals.flatMap Json.numbers

theorem printable_expr (e : Expr) : e.json.printable = true := by
  induction e with
  | field name => simp [Expr.json]
  | literal type value => simp [Expr.json]
  | binary op left right type hl hr => simp [Expr.json, hl, hr]

theorem printable_secret (s : Secret) : s.json.printable = true := by
  unfold Secret.json
  split
  · simp
  split <;> simp

theorem printable_config (c : Config) : c.json.printable = true := by
  have htagged (provider : String) {members : List (String × Json)}
      (h : members.all (·.2.printable) = true) :
      (Config.tagged provider members).printable = true :=
    Json.printable_table (by simp [h])
  have hauth (a : Auth) : (Config.tagged a.provider a.members).printable = true := by
    refine htagged _ ?_
    cases a <;> simp [Auth.members, printable_secret]
  have hemail (e : Email) : (Config.tagged e.provider e.members).printable = true := by
    refine htagged _ ?_
    cases e with
    | smtp host port user password sender =>
      by_cases hport : port = 0 <;> simp [Email.members, printable_secret, hport]
    | _ => simp [Email.members, printable_secret]
  have hmonitoring (m : Monitoring) : (Config.tagged m.provider m.members).printable = true := by
    refine htagged _ ?_
    cases m <;> simp [Monitoring.members, printable_secret]
  simp [Config.json, hauth, hemail, hmonitoring]

theorem printable_field (f : Field) : f.json.printable = f.literals.all Json.printable := by
  have hdefault (d : Default) : d.json.printable = d.literals.all Json.printable := by
    cases d <;> simp [Default.json, Default.literals]
  have hvirtual (v : Virtual) : v.json.printable = true := by simp [Virtual.json, printable_expr]
  have hrelation (r : RelationRef) : r.json.printable = true := by simp [RelationRef.json]
  have htype (t : FieldType) : t.json.printable = true := by simp [FieldType.json]
  cases hd : f.default <;>
    simp [Field.json, Field.literals, hd, hdefault, hvirtual, hrelation, htype]

theorem printable_input (i : Input) : i.json.printable = i.literals.all Json.printable := by
  cases hi : i.value <;> simp [Input.json, hi, Input.literals]

theorem printable_view (v : View) : v.json.printable = true := by
  have hfield (f : ViewField) : f.json.printable = true := by
    cases hf : f.value <;> simp [ViewField.json, hf, printable_expr]
  simp [View.json, hfield]

/-- Only the literals of an application can keep it from being printed. -/
theorem printable_application (a : Application) :
    a.json.printable = a.literals.all Json.printable := by
  have hentity (e : Entity) :
      e.json.printable = (e.fields.flatMap Field.literals).all Json.printable := by
    simp [Entity.json, List.all_map, Function.comp_def, printable_field, List.all_flatMap]
  have hworkflow (w : Workflow) : w.json.printable =
      (w.steps.flatMap (·.inputs.flatMap Input.literals)).all Json.printable := by
    simp [Workflow.json, WorkflowStep.json, List.all_map, Function.comp_def, printable_input,
      List.all_flatMap]
  have henum (e : Enum) : e.json.printable = true := by simp [Enum.json]
  have hpage (p : Page) : p.json.printable = true := by simp [Page.json]
  have hrelation (r : Relation) : r.json.printable = true := by simp [Relation.json]
  have hall {α : Type} (xs : List α) : (xs.all fun _ => true) = true :=
    List.all_eq_true.mpr fun _ _ => rfl
  simp [Application.json, Application.literals, List.all_map, Function.comp_def, hentity,
    hworkflow, henum, hpage, hrelation, printable_view, printable_config, List.all_flatMap, hall]

end Model

/-! ## Numbers of a source -/

namespace Build

mutual

/-- The induction is on the value: what a literal is built of stands in it. -/
theorem numbers_literalValue : (v : Value) → ∀ raw ∈ (literalValue v).numbers,
    ∃ p, .number raw p ∈ v.parts
  | .string .., raw, h | .boolean .., raw, h | .ident .., raw, h | .env .., raw, h
  | .call .., raw, h => by simp [literalValue, Json.numbers] at h
  | .number text p, raw, h => by
    obtain rfl : raw = text := by simpa [literalValue, Json.numbers] using h
    exact ⟨p, mem_parts_self _⟩
  | .array elems p, raw, h => by
    rw [literalValue, Json.numbers, Json.elemNumbers_eq] at h
    obtain ⟨q, hq⟩ := numbers_literalValues elems raw h
    exact ⟨q, .tail _ hq⟩
  | .object props p, raw, h => by
    rw [literalValue, Json.table, Json.numbers, Json.memberNumbers_eq] at h
    obtain ⟨m, hm, hraw⟩ := List.mem_flatMap.mp h
    obtain ⟨q, hq⟩ := numbers_literalMembers props raw
      (List.mem_flatMap.mpr ⟨m, Json.mem_sortedMembers hm, hraw⟩)
    exact ⟨q, .tail _ hq⟩

theorem numbers_literalValues : (vs : List Value) →
    ∀ raw ∈ (literalValues vs).flatMap Json.numbers, ∃ p, .number raw p ∈ valuesParts vs
  | [], raw, h => by simp [literalValues] at h
  | v :: vs, raw, h => by
    rcases List.mem_append.mp h with h | h
    · obtain ⟨q, hq⟩ := numbers_literalValue v raw h
      exact ⟨q, List.mem_append_left _ hq⟩
    · obtain ⟨q, hq⟩ := numbers_literalValues vs raw h
      exact ⟨q, List.mem_append_right _ hq⟩

theorem numbers_literalMembers : (ps : List Property) →
    ∀ raw ∈ (literalMembers ps).flatMap (Json.numbers ·.2), ∃ p, .number raw p ∈ membersParts ps
  | [], raw, h => by simp [literalMembers] at h
  | ⟨key, pos, v⟩ :: ps, raw, h => by
    rcases List.mem_append.mp h with h | h
    · obtain ⟨q, hq⟩ := numbers_literalValue v raw h
      exact ⟨q, List.mem_append_left _ hq⟩
    · obtain ⟨q, hq⟩ := numbers_literalMembers ps raw h
      exact ⟨q, List.mem_append_right _ hq⟩

end

theorem literals_buildDefault (v : Value) :
    (buildDefault v).literals = [] ∨ (buildDefault v).literals = [literalValue v] := by
  cases v with
  | call name args p => exact .inl rfl
  | _ => exact .inr rfl

theorem literals_buildField {s : Symbols} {e : EntityDecl} {f : FieldDecl} {j : Json}
    (h : j ∈ (buildField s e f).literals) : ∃ v, f.default = some v ∧ j = literalValue v := by
  simp only [Field.literals, buildField] at h
  split at h
  · simp at h
  · cases hd : f.default with
    | none => simp [hd] at h
    | some v =>
      rw [hd, Option.map_some, Option.map_some, Option.getD_some] at h
      rcases literals_buildDefault v with hnone | hone
      · rw [hnone] at h
        cases h
      · rw [hone] at h
        exact ⟨v, rfl, List.mem_singleton.mp h⟩

theorem literals_buildInput {p : Property} {j : Json} (h : j ∈ (buildInput p).literals) :
    j = literalValue p.value := by
  simp only [Input.literals, buildInput] at h
  split at h
  next value heq =>
    split at heq <;> cases heq
    exact List.mem_singleton.mp h
  next => cases h

/-- A literal of an application is built of a value that stands in a block of the source. -/
theorem literals_build {f : File} {name : String} {j : Json}
    (h : j ∈ (build ⟨f.decls⟩ name).literals) :
    ∃ d ∈ f.decls, ∃ v ∈ d.values, j = literalValue v := by
  rcases List.mem_append.mp h with h | h
  · obtain ⟨e, he, h⟩ := List.mem_flatMap.mp h
    obtain ⟨d, hd, rfl⟩ := List.mem_map.mp he
    obtain ⟨g, hg, h⟩ := List.mem_flatMap.mp h
    obtain ⟨fd, hfd, rfl⟩ := List.mem_map.mp hg
    obtain ⟨v, hv, rfl⟩ := literals_buildField h
    obtain ⟨decl, hdecl, hpick⟩ := List.mem_filterMap.mp hd
    cases decl <;> cases hpick
    exact ⟨_, hdecl, v, List.mem_flatMap.mpr ⟨fd, hfd, mem_values_of_default hv⟩, rfl⟩
  · obtain ⟨w, hw, h⟩ := List.mem_flatMap.mp h
    obtain ⟨d, hd, rfl⟩ := List.mem_map.mp hw
    obtain ⟨st, hst, h⟩ := List.mem_flatMap.mp h
    obtain ⟨sd, hsd, rfl⟩ := List.mem_map.mp hst
    obtain ⟨i, hi, h⟩ := List.mem_flatMap.mp h
    obtain ⟨p, hp, rfl⟩ := List.mem_map.mp hi
    obtain ⟨decl, hdecl, hpick⟩ := List.mem_filterMap.mp hd
    cases decl <;> cases hpick
    refine ⟨_, hdecl, p.value, ?_, literals_buildInput h⟩
    exact List.mem_append_right _ (List.mem_flatMap.mpr ⟨sd, hsd, List.mem_map_of_mem hp⟩)

/-- Numbers of values are numerals, perhaps with a sign. -/
theorem isNumeral_of_isSpelled {raw : String} {p : Pos} (h : (Value.number raw p).IsSpelled) :
    IsNumeral (unsigned raw.toList) := by
  rcases h with h | ⟨digits, hraw, h⟩
  · rwa [Json.unsigned_numeral h]
  · rw [hraw]
    exact h

end Build

/-! ## The printed form of a source -/

/-- The numbers in the literals of a compiled application stand as numbers in its source. -/
theorem compile_numbers {path : String} {source : List Text.Rune} {opts : CompileOptions}
    {app : Application} (h : compile path source opts = .ok app) :
    ∃ f, parseSource path source = .ok f ∧ ∀ raw ∈ app.numbers,
      ∃ d ∈ f.decls, ∃ v ∈ d.values, ∃ p, .number raw p ∈ v.parts := by
  obtain ⟨f, hf, -, -, rfl⟩ := compile_ok h
  refine ⟨f, hf, fun raw hraw => ?_⟩
  obtain ⟨j, hj, hraw⟩ := List.mem_flatMap.mp hraw
  obtain ⟨d, hd, v, hv, rfl⟩ := literals_build hj
  exact ⟨d, hd, v, hv, numbers_literalValue v raw hraw⟩

/-- Whether each number in a literal is a plain numeral, with a sign or without. -/
def Model.Application.NumbersPlain (a : Application) : Prop :=
  ∀ raw ∈ a.numbers, IsPlain (unsigned raw.toList)

theorem compile_printable_iff {path : String} {source : List Text.Rune} {opts : CompileOptions}
    {app : Application} (h : compile path source opts = .ok app) :
    app.json.printable = true ↔ app.NumbersPlain := by
  obtain ⟨f, hf, hnumbers⟩ := compile_numbers h
  have hraw : ∀ raw ∈ app.numbers, isNumber raw = true ↔ IsPlain (unsigned raw.toList) := by
    intro raw hraw
    obtain ⟨d, hd, v, hv, p, hp⟩ := hnumbers raw hraw
    exact Json.isNumber_numeral (isNumeral_of_isSpelled (parseSource_values hf d hd v hv _ hp))
  calc app.json.printable = true ↔ ∀ v ∈ app.literals, v.printable = true := by
        rw [printable_application, List.all_eq_true]
    _ ↔ ∀ raw ∈ app.numbers, isNumber raw = true := by
        simp only [Json.printable_iff, Application.numbers, List.mem_flatMap]
        exact ⟨fun h raw ⟨v, hv, hraw⟩ => h v hv raw hraw, fun h v hv raw hraw => h raw ⟨v, hv, hraw⟩⟩
    _ ↔ app.NumbersPlain := forall₂_congr hraw

/-- A body that is an object is empty only if the object has no printed form. -/
theorem Meta.content_object (ms : List (String × Json)) :
    (Meta.Body.json (.object ms)).content ≠ "" ↔ (Json.object ms).printable = true := by
  have htext : (Json.object ms).compact true ≠ "" := by
    intro h
    have hchars := congrArg String.toList h
    simp [Json.compact] at hchars
  change (Json.object ms).text?.getD "" ≠ "" ↔ _
  unfold Json.text?
  split
  next hyes => exact iff_of_true htext hyes
  next hno => exact iff_of_false (fun h => h rfl) hno

/-- A compiled application has a printed form exactly when each number in a literal default or a
literal input, at any depth, is a plain numeral: digits of ASCII without a zero too many. That is
when it can be dumped, and when the meta server can send it. These are numbers of the source. -/
theorem compile_printable {path : String} {source : List Text.Rune} {opts : CompileOptions}
    {app : Application} (h : compile path source opts = .ok app) :
    (app.json.text?.isSome = true ↔ app.NumbersPlain) ∧
    (∀ disk (v : Settings.FlagValues), v.dump = true →
      Cli.compileSource disk v.settings = .ok app →
        ((∃ o, Cli.runValidate disk v = .ok o) ↔ app.NumbersPlain)) ∧
    (∀ loadedAt, ((Meta.Server.mk app loadedAt).answer .model).body.content ≠ "" ↔
      app.NumbersPlain) ∧
    ∃ f, parseSource path source = .ok f ∧ ∀ raw ∈ app.numbers,
      ∃ d ∈ f.decls, ∃ v ∈ d.values, ∃ p, .number raw p ∈ v.parts := by
  have hprintable := compile_printable_iff h
  refine ⟨?_, ?_, ?_, compile_numbers h⟩
  · rw [Json.isSome_text?, hprintable]
  · intro disk v hdump happ
    rw [← hprintable, ← Json.isSome_lines?]
    unfold Cli.runValidate
    rw [happ, ok_bind, if_pos hdump]
    cases app.json.lines? <;> simp
  · intro loadedAt
    rw [← hprintable]
    exact Meta.content_object _

/-- A price, settings and a step, whose numbers are plain. -/
def shop : List Text.Rune := Text.runes
  "entity Item \x7b id: Int primaryKey price: Decimal default(-0.50)
  limits: JSON default(\x7b sizes: [1, 20] \x7d) \x7d
  workflow Restock \x7b trigger: \"item.sold\" step order \x7b amount: 100 \x7d \x7d"

theorem shop_printable : ∃ app, compile "" shop ⟨[], ""⟩ = .ok app ∧ app.numbers.length = 4 ∧
    app.json.text?.isSome = true := by
  have hok : (compile "" shop ⟨[], ""⟩).toOption.any (fun app =>
      app.numbers.length = 4 ∧ ∀ raw ∈ app.numbers, IsPlain (unsigned raw.toList)) = true := by
    rw [shop, Text.runes_ofList]
    decide +kernel
  obtain ⟨app, happ, hnumbers⟩ := exists_ok_of_any hok
  obtain ⟨hlength, hplain⟩ := of_decide_eq_true hnumbers
  exact ⟨app, happ, hlength, (compile_printable happ).1.mpr hplain⟩

/-- A default with zeros in front. -/
def padded : List Text.Rune :=
  Text.runes "entity Note \x7b id: Int primaryKey n: Int default(007) \x7d"

/-- The model of a source that is accepted has no printed form. -/
theorem padded_unprintable : ∃ app, compile "" padded ⟨[], ""⟩ = .ok app ∧
    app.json.text? = none ∧ app.json.lines? = none := by
  have hok : (compile "" padded ⟨[], ""⟩).toOption.any (fun app =>
      !app.json.printable) = true := by
    rw [padded, Text.runes_ofList]
    decide +kernel
  obtain ⟨app, happ, hnot⟩ := exists_ok_of_any hok
  have hnot : ¬ app.json.printable = true := by simpa using hnot
  exact ⟨app, happ, if_neg hnot, if_neg hnot⟩

end Scaffold
