import Scaffold.Proofs.Server.Members
import Scaffold.Proofs.Unguarded.Build
import Scaffold.Proofs.Unguarded.Storage
import Scaffold.Server.Resolvers

/-! # The server without a guard

A record is made from the entity of its table, and a resolver from the text of a formula, whose
outermost parentheses are cut off by position. -/
namespace Scaffold.Unguarded

open Scaffold.Model Scaffold.Code Scaffold.Server Scaffold.Storage
open Scaffold.Text (quoted)

/-! ## Records -/

/-- Records of the tables that have an entity, which has to be there. -/
def entityRecords? (a : Application) (tables : List Table) : Option (List Record) :=
  (tables.filter (·.entity ≠ "")).mapM fun t => do
    let e ← a.entity? t.entity
    some (entityRecord e t.columns)

def records? (a : Application) (tables : List Table) : Option (List Record) := do
  let own ← entityRecords? a tables
  some (own ++ a.views.map (viewRecord a))

theorem entityRecords?_eq {a : Application} {tables : List Table} (hnone : a.entity? "" = none)
    (h : ∀ t ∈ tables, t.entity ≠ "" → ∃ e, a.entity? t.entity = some e) :
    entityRecords? a tables = some (entityRecords a tables) := by
  have hfound : ∀ t ∈ tables.filter (·.entity ≠ ""), ∃ r,
      ((a.entity? t.entity).bind fun e => some (entityRecord e t.columns)) = some r := by
    intro t ht
    obtain ⟨ht, hne⟩ := List.mem_filter.mp ht
    obtain ⟨e, he⟩ := h t ht (by simpa using hne)
    exact ⟨entityRecord e t.columns, by rw [he]; rfl⟩
  rw [entityRecords?, entityRecords]
  refine (mapM_eq_filterMap hfound).trans (congrArg some ?_)
  rw [List.filterMap_filter]
  refine List.filterMap_congr fun t _ => ?_
  by_cases ht : t.entity = ""
  · simp [ht, hnone]
  · simp [ht, Option.map_eq_bind, Function.comp_def]

theorem records?_eq {a : Application} {given : List String} (ha : a.Closed given)
    (hnone : a.entity? "" = none) {tables : List Table} (h : plan a = .ok tables) :
    records? a tables = some (records a tables) := by
  have hfound : ∀ t ∈ tables, t.entity ≠ "" → ∃ e, a.entity? t.entity = some e := by
    obtain ⟨own, joins, rfl, hown, hjoins⟩ := plan_ok h
    intro t ht hne
    rcases List.mem_append.mp ht with ht | ht
    · obtain ⟨e, he, htable⟩ := exists_of_mem_right hown ht
      exact ⟨e, by rw [htable.entity, entity?_of_mem ha he]⟩
    · obtain ⟨r, -, left, right, rfl⟩ := exists_of_mem_right hjoins ht
      exact absurd rfl hne
  rw [records?, entityRecords?_eq hnone hfound]
  rfl

/-! ## Formulas -/

/-- The text of a term before it is laid out: every operator has blanks around it. -/
def termText : Term → String
  | .field name => "r." ++ name
  | .number raw => raw
  | .text value => quoted value
  | .call function arg more => function ++ "(" ++ ", ".intercalate (termText arg :: more) ++ ")"
  | .method target name arg => termText target ++ "." ++ name ++ "(" ++ arg ++ ")"
  | .parens inner => "(" ++ termText inner ++ ")"
  | .binary op left right => termText left ++ " " ++ op.symbol ++ " " ++ termText right

/-- A text of a formula as that of a text. -/
def asText (e : Expr) (s : String) (kind : TypeKind) : String :=
  match e with
  | .literal _ value => quoted value
  | _ =>
    match kind with
    | .enum => "string(" ++ s ++ ")"
    | .dateTime => s ++ ".Format(time.RFC3339)"
    | .int => "strconv.FormatInt(" ++ s ++ ", 10)"
    | .decimal => "strconv.FormatFloat(" ++ s ++ ", 'f', -1, 64)"
    | _ => s

/-- A text of a formula as that of a decimal. -/
def asDecimal (e : Expr) (s : String) (kind : TypeKind) : String :=
  match e, kind with
  | .literal .., _ => s
  | _, .int => "float64(" ++ s ++ ")"
  | _, _ => s

/-- The text of a formula over a record and its kind, or the field that is missing. Only a field
asks for the owner, which has to be there then. -/
def formulaText? (owner : Option Entity) : Expr → Option (Except String (String × TypeKind))
  | .literal .string value => some (.ok (quoted value, .string))
  | .literal kind value => some (.ok (value, kind))
  | .field name => do
    let e ← owner
    match e.field? name with
    | none => some (.error name)
    | some f => some (.ok ("r." ++ fieldMember name, f.type.kind))
  | .binary op left right kind =>
    andThen? (formulaText? owner left) fun (l, lk) =>
      andThen? (formulaText? owner right) fun (r, rk) =>
        let (l, r) := match kind with
          | .string | .text => (asText left l lk, asText right r rk)
          | .decimal => (asDecimal left l lk, asDecimal right r rk)
          | _ => (l, r)
        some (.ok ("(" ++ l ++ " " ++ op.symbol ++ " " ++ r ++ ")", kind))

/-- The text of an operation without its first and its last character. -/
def unwrapped? (e : Expr) (s : String) : Option String :=
  match e with
  | .binary .. => (slice? s.toList 1 (s.toList.length - 1)).map String.ofList
  | _ => some s

/-- The text of a whole formula. -/
def valueText? (owner : Option Entity) (e : Expr) (want : TypeKind) :
    Option (Except String String) :=
  andThen? (formulaText? owner e) fun (s, kind) => do
    let s ← unwrapped? e s
    some <| .ok <| match want, kind with
      | .decimal, .int => "float64(" ++ s ++ ")"
      | .string, _ | .text, _ => asText e s kind
      | _, _ => s

theorem termText_asText (e : Expr) (t : Term) (kind : TypeKind) :
    termText (Formula.asText e t kind) = asText e (termText t) kind := by
  cases e with
  | literal => rfl
  | _ => cases kind <;>
    simp [Formula.asText, asText, termText, String.append_assoc]

theorem termText_asDecimal (e : Expr) (t : Term) (kind : TypeKind) :
    termText (Formula.asDecimal e t kind) = asDecimal e (termText t) kind := by
  cases e with
  | literal => rfl
  | _ => cases kind <;> simp [Formula.asDecimal, asDecimal, termText]

/-- The term of an operation stands in parentheses. -/
theorem term_binary (owner : Entity) (op : Source.Operator) (left right : Expr) (kind : TypeKind) :
    ∃ t, Formula.term owner (.binary op left right kind) = (.parens t, kind) := by
  cases kind <;> exact ⟨_, rfl⟩

theorem formulaText?_eq {owner : Entity} {e : Expr} (h : ∀ m ∈ e.mentions, owner.Declares m) :
    formulaText? (some owner) e =
      some (.ok (termText (Formula.term owner e).1, (Formula.term owner e).2)) := by
  induction e with
  | field name =>
    obtain ⟨f, hf⟩ : ∃ f, owner.field? name = some f := by
      obtain ⟨f, hf, hname⟩ := h name (by simp [Expr.mentions])
      rw [Entity.field?, ← Option.isSome_iff_exists, List.find?_isSome]
      exact ⟨f, hf, by simpa using hname⟩
    simp [formulaText?, Formula.term, termText, Entity.fieldKind, hf]
  | literal kind value => cases kind <;> rfl
  | binary op left right kind ihl ihr =>
    obtain ⟨hl, hr⟩ := List.forall_mem_append.mp h
    rw [formulaText?, ihl hl, ihr hr]
    cases kind <;>
      simp [andThen?, Formula.term, termText, termText_asText, termText_asDecimal,
        String.append_assoc]

theorem slice?_parens (s : String) :
    slice? ("(" ++ s ++ ")").toList 1 (("(" ++ s ++ ")").toList.length - 1) = some s.toList := by
  have h := slice?_append ['('] s.toList [')']
  simpa [Nat.add_comm] using h

theorem unwrapped?_eq (owner : Entity) (e : Expr) :
    unwrapped? e (termText (Formula.term owner e).1) =
      some (termText (Formula.term owner e).1.stripped) := by
  cases e with
  | field => rfl
  | literal kind value => cases kind <;> rfl
  | binary op left right kind =>
    obtain ⟨t, ht⟩ := term_binary owner op left right kind
    simp only [unwrapped?, ht, termText, Term.stripped, slice?_parens, Option.map_some,
      String.ofList_toList]

theorem valueText?_eq {owner : Entity} {e : Expr} (h : ∀ m ∈ e.mentions, owner.Declares m)
    (want : TypeKind) :
    valueText? (some owner) e want = some (.ok (termText (Formula.value owner e want))) := by
  rw [valueText?, formulaText?_eq h]
  simp only [andThen?, unwrapped?_eq, Option.bind_eq_bind, Option.bind_some, Formula.value]
  generalize (Formula.term owner e).2 = kind
  split <;> simp [termText, termText_asText]

/-! ## Resolvers -/

/-- A resolver with the text of its value. -/
structure Draft where
  name : String
  receiver : String
  type : ValueType
  doc : String
  value : String
  deriving DecidableEq, Repr

def draft (r : Resolver) : Draft := ⟨r.name, r.receiver, r.type, r.doc, termText r.value⟩

/-- What each element gives, in order, up to the first that fails. -/
def gather? {α β ε : Type} (f : α → Option (Except ε (List β))) :
    List α → Option (Except ε (List β))
  | [] => some (.ok [])
  | x :: xs => andThen? (f x) fun ys => andThen? (gather? f xs) fun zs => some (.ok (ys ++ zs))

def virtualDrafts? (e : Entity) (f : Field) : Option (Except String (List Draft)) :=
  match f.virtual with
  | none => some (.ok [])
  | some v => andThen? (valueText? (some e) v.expr f.type.kind) fun value =>
    some (.ok [⟨v.resolver, typeName e.name, .of f.type.kind f.type.ref,
      e.name ++ "." ++ f.name ++ " = " ++ v.source, value⟩])

/-- The source of a view is looked up once and asked for by its formulas only. -/
def viewDrafts? (owner : Option Entity) (v : View) (f : ViewField) :
    Option (Except String (List Draft)) :=
  match f.value with
  | .ref _ => some (.ok [])
  | .formula source expr => andThen? (valueText? owner expr f.resultType) fun value =>
    some (.ok [⟨f.resolver, typeName v.source, .of f.resultType "",
      v.name ++ "." ++ f.name ++ " = " ++ source, value⟩])

def resolvers? (a : Application) : Option (Except String (List Draft)) :=
  andThen? (gather? (fun e => gather? (virtualDrafts? e) e.fields) a.entities) fun own =>
    andThen? (gather? (fun v => gather? (viewDrafts? (a.entity? v.source) v) v.fields) a.views)
      fun views => some (.ok (own ++ views))

theorem gather?_eq {α β ε : Type} {f : α → Option (Except ε (List β))} {g : α → List β}
    {xs : List α} (h : ∀ x ∈ xs, f x = some (.ok (g x))) :
    gather? f xs = some (.ok (xs.flatMap g)) := by
  induction xs with
  | nil => rfl
  | cons x xs ih =>
    obtain ⟨hx, hxs⟩ := List.forall_mem_cons.mp h
    rw [gather?, hx, ih hxs]
    rfl

theorem map_filterMap_draft {α : Type} (f : α → Option Resolver) (xs : List α) :
    (xs.filterMap f).map draft = xs.flatMap fun x => ((f x).map draft).toList := by
  rw [List.map_filterMap, List.filterMap_eq_flatMap_toList]

/-- Every formula of a closed application is over declared fields. -/
theorem resolvers?_eq {a : Application} {given : List String} (ha : a.Closed given) :
    resolvers? a = some (.ok ((resolvers a).map draft)) := by
  have hown : ∀ e ∈ a.entities, gather? (virtualDrafts? e) e.fields =
      some (.ok ((e.fields.filterMap (virtualResolver? e)).map draft)) := by
    intro e he
    rw [map_filterMap_draft]
    refine gather?_eq fun f hf => ?_
    rw [virtualDrafts?, virtualResolver?]
    cases hv : f.virtual with
    | none => rfl
    | some v =>
      simp only [valueText?_eq (ha.formulas e he f hf v hv), andThen?]
      rfl
  have hviews : ∀ v ∈ a.views, gather? (viewDrafts? (a.entity? v.source) v) v.fields =
      some (.ok ((v.fields.filterMap (viewResolver? a v)).map draft)) := by
    intro v hv
    obtain ⟨e, he, hname, hfields⟩ := (ha.views v hv).source
    have howner : a.entity? v.source = some e := by rw [← hname, entity?_of_mem ha he]
    rw [map_filterMap_draft, howner]
    refine gather?_eq fun f hf => ?_
    have hclosed := hfields f hf
    rw [viewDrafts?, viewResolver?, howner]
    cases hvalue : f.value with
    | ref name => rfl
    | formula source expr =>
      rw [hvalue] at hclosed
      simp only [valueText?_eq hclosed, andThen?]
      rfl
  rw [resolvers?, gather?_eq hown, gather?_eq hviews, resolvers, List.map_append,
    List.map_flatMap, List.map_flatMap]
  rfl

end Scaffold.Unguarded
