import Scaffold.Source.Parser

/-! # The grammar of a source

A derivation is a tree over the tokens of a source. Its leaves are tokens of the kinds that the
grammar asks for, `tokens` reads them off from left to right, and the declaration it stands for is
read off without any parsing. -/
namespace Scaffold.Source.Grammar

/-! ## Leaves -/

/-- A token of one kind. -/
abbrev Terminal (k : TokenKind) := { t : Token // t.kind = k }

/-- An identifier, or a keyword where a name is due. -/
abbrev Name := { t : Token // t.isName = true }

/-- An identifier that spells a word. -/
abbrev Word (w : String) := { t : Token // t.kind = .ident ∧ t.lexeme = w }

/-- A keyword that spells a word. -/
abbrev Keyword (w : String) := { t : Token // t.kind = .keyword ∧ t.lexeme = w }

/-! ## Bodies -/

/-- Items with any number of commas before, between and after them. -/
inductive Body (α : Type)
  | nil
  | comma (t : Terminal .comma) (rest : Body α)
  | item (a : α) (rest : Body α)

namespace Body

variable {α : Type}

def tokens (f : α → List Token) : Body α → List Token
  | nil => []
  | comma t rest => t.1 :: rest.tokens f
  | item a rest => f a ++ rest.tokens f

def items : Body α → List α
  | nil => []
  | comma _ rest => rest.items
  | item a rest => a :: rest.items

end Body

/-- A body between braces. -/
structure Braced (α : Type) where
  opening : Terminal .lbrace
  body : Body α
  closing : Terminal .rbrace

namespace Braced

variable {α : Type}

def tokens (f : α → List Token) (b : Braced α) : List Token :=
  b.opening.1 :: (b.body.tokens f ++ [b.closing.1])

def items (b : Braced α) : List α := b.body.items

end Braced

/-! ## Values -/

mutual

inductive ValueTree
  | string (t : Terminal .string)
  | number (t : Terminal .number)
  | negative (sign : Terminal .minus) (t : Terminal .number)
  | boolean (t : Terminal .bool)
  | path (head : Name) (more : List (Terminal .dot × Name))
  | array (opening : Terminal .lbracket) (items : ItemsTree) (closing : Terminal .rbracket)
  | object (block : Braced PropTree)
  | env (word : { t : Name // t.1.lexeme = "env" }) (opening : Terminal .lparen) (var : Name)
      (closing : Terminal .rparen)
  | call (name : { t : Name // t.1.lexeme ≠ "env" }) (opening : Terminal .lparen)
      (args : ItemsTree) (closing : Terminal .rparen)

/-- Values separated by commas; a comma may stand after the last. -/
inductive ItemsTree
  | nil
  | last (v : ValueTree)
  | more (v : ValueTree) (comma : Terminal .comma) (rest : ItemsTree)

inductive PropTree
  | mk (key : Name) (colon : Terminal .colon) (value : ValueTree)

end

def pathTokens : List (Terminal .dot × Name) → List Token
  | [] => []
  | (dot, name) :: rest => dot.1 :: name.1 :: pathTokens rest

mutual

def ValueTree.tokens : ValueTree → List Token
  | .string t => [t.1]
  | .number t => [t.1]
  | .negative sign t => [sign.1, t.1]
  | .boolean t => [t.1]
  | .path head more => head.1 :: pathTokens more
  | .array opening items closing => opening.1 :: (items.tokens ++ [closing.1])
  | .object ⟨opening, body, closing⟩ => opening.1 :: (propsTokens body ++ [closing.1])
  | .env word opening var closing => [word.1.1, opening.1, var.1, closing.1]
  | .call name opening args closing => name.1.1 :: opening.1 :: (args.tokens ++ [closing.1])

def ItemsTree.tokens : ItemsTree → List Token
  | .nil => []
  | .last v => v.tokens
  | .more v comma rest => v.tokens ++ comma.1 :: rest.tokens

def PropTree.tokens : PropTree → List Token
  | .mk key colon value => key.1 :: colon.1 :: value.tokens

def propsTokens : Body PropTree → List Token
  | .nil => []
  | .comma t rest => t.1 :: propsTokens rest
  | .item p rest => p.tokens ++ propsTokens rest

end

mutual

def ValueTree.value : ValueTree → Value
  | .string t => .string t.1.lexeme t.1.pos
  | .number t => .number t.1.lexeme t.1.pos
  | .negative sign t => .number ("-" ++ t.1.lexeme) sign.1.pos
  | .boolean t => .boolean (t.1.lexeme = "true") t.1.pos
  | .path head more => .ident (head.1.lexeme :: more.map (·.2.1.lexeme)) head.1.pos
  | .array opening items _ => .array items.values opening.1.pos
  | .object ⟨opening, body, _⟩ => .object (propsOf body) opening.1.pos
  | .env word _ var _ => .env var.1.lexeme word.1.1.pos
  | .call name _ args _ => .call name.1.1.lexeme args.values name.1.1.pos

def ItemsTree.values : ItemsTree → List Value
  | .nil => []
  | .last v => [v.value]
  | .more v _ rest => v.value :: rest.values

def PropTree.prop : PropTree → Property
  | .mk key _ value => ⟨key.1.lexeme, key.1.pos, value.value⟩

def propsOf : Body PropTree → List Property
  | .nil => []
  | .comma _ rest => propsOf rest
  | .item p rest => p.prop :: propsOf rest

end

theorem propsTokens_eq (b : Body PropTree) : propsTokens b = b.tokens PropTree.tokens := by
  induction b with
  | nil => rw [propsTokens, Body.tokens]
  | comma t rest ih => rw [propsTokens, Body.tokens, ih]
  | item p rest ih => rw [propsTokens, Body.tokens, ih]

theorem propsOf_eq (b : Body PropTree) : propsOf b = b.items.map PropTree.prop := by
  induction b with
  | nil => simp [propsOf, Body.items]
  | comma t rest ih => simp [propsOf, Body.items, ih]
  | item p rest ih => simp [propsOf, Body.items, ih]

/-! ## Fields -/

structure TypeTree where
  name : Name
  brackets : Option (Terminal .lbracket × Terminal .rbracket)

namespace TypeTree

def tokens (t : TypeTree) : List Token :=
  t.name.1 :: match t.brackets with
    | none => []
    | some (opening, closing) => [opening.1, closing.1]

def ref (t : TypeTree) : TypeRef := ⟨t.name.1.lexeme, t.brackets.isSome, t.name.1.pos⟩

end TypeTree

/-- Arguments of an attribute: separated by commas, with none after the last. -/
structure ArgsTree where
  first : PropTree
  others : List (Terminal .comma × PropTree)

namespace ArgsTree

def otherTokens : List (Terminal .comma × PropTree) → List Token
  | [] => []
  | (comma, p) :: rest => comma.1 :: (p.tokens ++ otherTokens rest)

def tokens (a : ArgsTree) : List Token := a.first.tokens ++ otherTokens a.others

def props (a : ArgsTree) : List Property := a.first.prop :: a.others.map (·.2.prop)

end ArgsTree

inductive ModifierTree
  | primaryKey (t : Word "primaryKey")
  | unique (t : Word "unique")
  | optional (t : Word "optional")
  | default (word : Word "default") (opening : Terminal .lparen) (value : ValueTree)
      (closing : Terminal .rparen)
  | attr (opening : Terminal .attr) (args : Option ArgsTree) (closing : Terminal .rparen)

namespace ModifierTree

def tokens : ModifierTree → List Token
  | primaryKey t => [t.1]
  | unique t => [t.1]
  | optional t => [t.1]
  | default word opening value closing => word.1 :: opening.1 :: (value.tokens ++ [closing.1])
  | attr opening args closing =>
    opening.1 :: ((args.map ArgsTree.tokens).getD [] ++ [closing.1])

def modifier : ModifierTree → Modifier
  | primaryKey _ => .primaryKey
  | unique _ => .unique
  | optional _ => .optional
  | default _ _ value _ => .default value.value
  | attr opening args _ =>
    .attr ⟨opening.1.lexeme, opening.1.pos, (args.map ArgsTree.props).getD []⟩

/-- Whether the modifier is a single word. -/
def isWord : ModifierTree → Bool
  | primaryKey _ | unique _ | optional _ => true
  | _ => false

end ModifierTree

structure FieldTree where
  name : Name
  colon : Terminal .colon
  type : TypeTree
  modifiers : List ModifierTree

namespace FieldTree

def tokens (f : FieldTree) : List Token :=
  f.name.1 :: f.colon.1 :: (f.type.tokens ++ f.modifiers.flatMap ModifierTree.tokens)

def decl (f : FieldTree) : FieldDecl :=
  ⟨f.name.1.lexeme, f.name.1.pos, f.type.ref, f.modifiers.map ModifierTree.modifier⟩

end FieldTree

/-- The tokens begin with one of a class. -/
def Starts (p : Token → Prop) (ts : List Token) : Prop := ∃ t rest, ts = t :: rest ∧ p t

/-- A word that is followed by a colon is no modifier: it names the next field. -/
def ModifiersApart : List ModifierTree → (next : List Token) → Prop
  | [], _ => True
  | m :: ms, next =>
    (m.isWord = true → ¬ Starts (·.kind = .colon) (ms.flatMap ModifierTree.tokens ++ next)) ∧
      ModifiersApart ms next

def FieldsApart : Body FieldTree → (next : List Token) → Prop
  | .nil, _ => True
  | .comma _ rest, next => FieldsApart rest next
  | .item f rest, next =>
    ModifiersApart f.modifiers (rest.tokens FieldTree.tokens ++ next) ∧ FieldsApart rest next

/-! ## Blocks -/

structure StepTree where
  word : Word "step"
  action : Name
  inputs : Braced PropTree

namespace StepTree

def tokens (s : StepTree) : List Token :=
  s.word.1 :: s.action.1 :: s.inputs.tokens PropTree.tokens

def decl (s : StepTree) : StepDecl :=
  ⟨s.action.1.lexeme, s.word.1.pos, s.inputs.items.map PropTree.prop⟩

end StepTree

inductive WorkflowItem
  | prop (p : PropTree)
  | step (s : StepTree)

namespace WorkflowItem

def tokens : WorkflowItem → List Token
  | prop p => p.tokens
  | step s => s.tokens

def prop? : WorkflowItem → Option Property
  | prop p => some p.prop
  | step _ => none

def step? : WorkflowItem → Option StepDecl
  | prop _ => none
  | step s => some s.decl

end WorkflowItem

inductive DeclTree
  | entity (keyword : Keyword "entity") (name : Name) (block : Braced FieldTree)
  | enum (keyword : Keyword "enum") (name : Name) (block : Braced Name)
  | page (keyword : Keyword "page") (name : Name) (block : Braced PropTree)
  | view (keyword : Keyword "view") (name : Name) (block : Braced PropTree)
  | workflow (keyword : Keyword "workflow") (name : Name) (block : Braced WorkflowItem)
  | config (keyword : Keyword "config") (name : Option Name) (block : Braced PropTree)

namespace DeclTree

def tokens : DeclTree → List Token
  | entity keyword name block => keyword.1 :: name.1 :: block.tokens FieldTree.tokens
  | enum keyword name block => keyword.1 :: name.1 :: block.tokens fun t => [t.1]
  | page keyword name block => keyword.1 :: name.1 :: block.tokens PropTree.tokens
  | view keyword name block => keyword.1 :: name.1 :: block.tokens PropTree.tokens
  | workflow keyword name block => keyword.1 :: name.1 :: block.tokens WorkflowItem.tokens
  | config keyword name block =>
    keyword.1 :: ((name.map fun t => t.1).toList ++ block.tokens PropTree.tokens)

/-- The block of a file, at its keyword. -/
def decl (file : String) : DeclTree → Decl
  | entity keyword name block =>
    .entity ⟨⟨name.1.lexeme, keyword.1.pos, file⟩, block.items.map FieldTree.decl⟩
  | enum keyword name block =>
    .enum ⟨⟨name.1.lexeme, keyword.1.pos, file⟩, block.items.map fun t => ⟨t.1.lexeme, t.1.pos⟩⟩
  | page keyword name block =>
    .page ⟨⟨name.1.lexeme, keyword.1.pos, file⟩, block.items.map PropTree.prop⟩
  | view keyword name block =>
    .view ⟨⟨name.1.lexeme, keyword.1.pos, file⟩, block.items.map PropTree.prop⟩
  | workflow keyword name block =>
    .workflow ⟨⟨name.1.lexeme, keyword.1.pos, file⟩, block.items.filterMap WorkflowItem.prop?,
      block.items.filterMap WorkflowItem.step?⟩
  | config keyword name block =>
    .config ⟨⟨(name.map fun t => t.1.lexeme).getD "", keyword.1.pos, file⟩,
      block.items.map PropTree.prop⟩

def Apart : DeclTree → Prop
  | entity _ _ block => FieldsApart block.body [block.closing.1]
  | _ => True

end DeclTree

/-- A derivation of a whole source. -/
structure FileTree where
  decls : List DeclTree
  eof : Terminal .eof

namespace FileTree

def tokens (d : FileTree) : List Token := d.decls.flatMap DeclTree.tokens ++ [d.eof.1]

def file (path : String) (d : FileTree) : File := ⟨path, d.decls.map (DeclTree.decl path)⟩

/-- Every word among the modifiers of a field is one. -/
def Apart (d : FileTree) : Prop := ∀ x ∈ d.decls, x.Apart

end FileTree

end Scaffold.Source.Grammar
