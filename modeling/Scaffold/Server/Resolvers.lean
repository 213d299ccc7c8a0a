import Scaffold.Output.Region
import Scaffold.Server.Records

/-! # Resolvers

One function for each computed field of an entity and each formula of a view. Its value is the
formula over the record at hand; a custom region lets its reader amend the value. -/
namespace Scaffold.Server

open Scaffold.Model Scaffold.Code
open Scaffold.Source (Operator)

namespace Formula

/-- A term as text. A literal is quoted; a value that is no text is converted. -/
def asText (e : Expr) (t : Term) (kind : TypeKind) : Term :=
  match e with
  | .literal _ value => .text value
  | _ =>
    match kind with
    | .enum => .call "string" t []
    | .dateTime => .method t "Format" "time.RFC3339"
    | .int => .call "strconv.FormatInt" t ["10"]
    | .decimal => .call "strconv.FormatFloat" t ["'f'", "-1", "64"]
    | _ => t

/-- A term as a decimal. A literal takes the type of its context. -/
def asDecimal (e : Expr) (t : Term) (kind : TypeKind) : Term :=
  match e, kind with
  | .literal .., _ => t
  | _, .int => .call "float64" t []
  | _, _ => t

/-- The term of a formula over a record, and its kind. An operation stands in parentheses. -/
def term (owner : Entity) : Expr → Term × TypeKind
  | .literal .string value => (.text value, .string)
  | .literal kind value => (.number value, kind)
  | .field name => (.field (fieldMember name), owner.fieldKind name)
  | .binary op left right kind =>
    let (l, lk) := term owner left
    let (r, rk) := term owner right
    match kind with
    | .string | .text => (.parens (.binary op (asText left l lk) (asText right r rk)), kind)
    | .decimal => (.parens (.binary op (asDecimal left l lk) (asDecimal right r rk)), kind)
    | _ => (.parens (.binary op l r), kind)

/-- The term of a whole formula whose value is kept as `want`. -/
def value (owner : Entity) (e : Expr) (want : TypeKind) : Term :=
  let (t, kind) := term owner e
  match want, kind with
  | .decimal, .int => .call "float64" t.stripped []
  | .string, _ | .text, _ => asText e t.stripped kind
  | _, _ => t.stripped

end Formula

/-- Packages that a term uses. -/
def termImports : Term → List String
  | .call function arg _ =>
    (if function.startsWith "strconv." then ["strconv"] else []) ++ termImports arg
  | .method target _ _ => "time" :: termImports target
  | .parens inner => termImports inner
  | .binary _ left right => termImports left ++ termImports right
  | _ => []

structure Resolver where
  name : String
  /-- The record type that the value is computed from. -/
  receiver : String
  type : ValueType
  /-- The field and the text of its formula. -/
  doc : String
  value : Term
  deriving DecidableEq, Repr

namespace Resolver

def region (r : Resolver) : String := Output.region "\t//" r.name ""

def comment (r : Resolver) : String := r.name ++ " computes " ++ r.doc ++ "."

def part (r : Resolver) : Part where
  lines := [docComment r.comment,
    "func " ++ r.name ++ "(r *" ++ r.receiver ++ ") (" ++ r.type.text ++ ", error) \x7b",
    "\tv := " ++ r.value.print 1,
    r.region ++ "\treturn v, nil",
    "\x7d"]
  sound := isIdentifier r.receiver && r.value.isSound && isCommentText r.comment &&
    match r.type with
    | .named name => isIdentifier name
    | _ => true

def imports (r : Resolver) : List String := r.type.imports ++ termImports r.value

end Resolver

def virtualResolver? (e : Entity) (f : Field) : Option Resolver :=
  f.virtual.map fun v =>
    ⟨v.resolver, typeName e.name, .of f.type.kind f.type.ref,
      e.name ++ "." ++ f.name ++ " = " ++ v.source, Formula.value e v.expr f.type.kind⟩

def viewResolver? (a : Application) (v : View) (f : ViewField) : Option Resolver :=
  match f.value, a.entity? v.source with
  | .formula source expr, some owner =>
    some ⟨f.resolver, typeName v.source, .of f.resultType "",
      v.name ++ "." ++ f.name ++ " = " ++ source, Formula.value owner expr f.resultType⟩
  | _, _ => none

def resolvers (a : Application) : List Resolver :=
  (a.entities.flatMap fun e => e.fields.filterMap (virtualResolver? e)) ++
    a.views.flatMap fun v => v.fields.filterMap (viewResolver? a v)

def resolverListing (a : Application) : Listing where
  imports := (resolvers a).flatMap Resolver.imports
  parts :=
    if (resolvers a).isEmpty then [⟨["// No computed fields are declared."], true⟩]
    else (resolvers a).map Resolver.part

end Scaffold.Server
