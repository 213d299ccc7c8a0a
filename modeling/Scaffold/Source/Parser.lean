import Scaffold.Source.Decl
import Scaffold.Source.Lexer

/-! # Parser

Recursive descent over a token list. Every loop and every nested construct takes one unit of fuel;
`parseTokens` supplies enough of it for any list that ends with the end-of-input token. A list
that does not end so can hold a loop at its last token for ever, which is reported as `stalled`. -/
namespace Scaffold.Source

/-- What the parser was looking for. -/
inductive Expected
  | token (kind : TokenKind)
  | blockKeyword
  | knownBlockKeyword
  | entityName | enumName | pageName | viewName | workflowName
  | fieldNameOrBrace
  | fieldType
  | fieldModifier
  | enumValueOrBrace
  | propertyName
  | value
  | nameAfterDot
  | envVariable
  | commaOrParen
  | commaOrBracket
  | expression
  | operatorOrEnd
  | operand
  deriving DecidableEq, Repr

def Expected.text : Expected → String
  | token kind => kind.name
  | blockKeyword => "block keyword (entity, page, view, workflow, enum, config)"
  | knownBlockKeyword => "block keyword"
  | entityName => "entity name"
  | enumName => "enum name"
  | pageName => "page name"
  | viewName => "view name"
  | workflowName => "workflow name"
  | fieldNameOrBrace => "field name or '\x7d'"
  | fieldType => "field type"
  | fieldModifier => "field modifier, ',' or '\x7d'"
  | enumValueOrBrace => "enum value or '\x7d'"
  | propertyName => "property name"
  | value => "value"
  | nameAfterDot => "name after '.'"
  | envVariable => "environment variable name"
  | commaOrParen => "',' or ')'"
  | commaOrBracket => "',' or ']'"
  | expression => "expression"
  | operatorOrEnd => "operator or end of expression"
  | operand => "field name, literal or '('"

/-- Why parsing stopped. -/
inductive ParseError
  | mismatch (expected : Expected) (found : Token)
  | stalled
  deriving DecidableEq, Repr

/-- The tokens still to be read, and the token seen past their end. -/
structure Tokens where
  rest : List Token
  last : Token
  deriving DecidableEq, Repr

namespace Tokens

def ofList (tokens : List Token) : Tokens := ⟨tokens, tokens.getLastD Token.none⟩

def peek (c : Tokens) : Token := c.rest.headD c.last

/-- The token `n` places ahead. -/
def peekAt (n : Nat) (c : Tokens) : Token := c.rest[n]?.getD c.last

def advance (c : Tokens) : Tokens := ⟨c.rest.tail, c.last⟩

/-- The kind of the next token. -/
def kind (c : Tokens) : TokenKind := c.peek.kind

end Tokens

def mismatch {α : Type} (expected : Expected) (c : Tokens) : Except ParseError (α × Tokens) :=
  .error (.mismatch expected c.peek)

def expect (kind : TokenKind) (c : Tokens) : Except ParseError (Token × Tokens) :=
  if c.kind = kind then .ok (c.peek, c.advance) else mismatch (.token kind) c

def expectName (what : Expected) (c : Tokens) : Except ParseError (Token × Tokens) :=
  if c.peek.isName then .ok (c.peek, c.advance) else mismatch what c

/-- Further names of a dotted path. -/
def pathTail : Nat → Tokens → Except ParseError (List String × Tokens)
  | 0, _ => .error .stalled
  | fuel + 1, c =>
    if c.kind = .dot then do
      let (seg, c) ← expectName .nameAfterDot c.advance
      let (segs, c) ← pathTail fuel c
      .ok (seg.lexeme :: segs, c)
    else .ok ([], c)

mutual

/-- A literal, a path, an array, an object or a call. -/
def parseValue : Nat → Tokens → Except ParseError (Value × Tokens)
  | 0, _ => .error .stalled
  | fuel + 1, c =>
    let t := c.peek
    match t.kind with
    | .string => .ok (.string t.lexeme t.pos, c.advance)
    | .number => .ok (.number t.lexeme t.pos, c.advance)
    | .minus => do
      let (n, c) ← expect .number c.advance
      .ok (.number ("-" ++ n.lexeme) t.pos, c)
    | .bool => .ok (.boolean (t.lexeme = "true") t.pos, c.advance)
    | .lbracket => do
      let (elems, c) ← parseItems fuel .rbracket .commaOrBracket c.advance
      .ok (.array elems t.pos, c)
    | .lbrace => do
      let (props, c) ← parseProps fuel c.advance
      .ok (.object props t.pos, c)
    | .ident | .keyword =>
      if (c.peekAt 1).kind = .lparen then
        let c := c.advance.advance
        if t.lexeme = "env" then do
          let (v, c) ← expectName .envVariable c
          let (_, c) ← expect .rparen c
          .ok (.env v.lexeme t.pos, c)
        else do
          let (args, c) ← parseItems fuel .rparen .commaOrParen c
          .ok (.call t.lexeme args t.pos, c)
      else do
        let (segs, c) ← pathTail fuel c.advance
        .ok (.ident (t.lexeme :: segs) t.pos, c)
    | _ => mismatch .value c

/-- Values separated by commas up to a closing token; a comma may stand before it. -/
def parseItems : Nat → TokenKind → Expected → Tokens → Except ParseError (List Value × Tokens)
  | 0, _, _, _ => .error .stalled
  | fuel + 1, close, separator, c =>
    if c.kind = close then .ok ([], c.advance)
    else do
      let (v, c) ← parseValue fuel c
      if c.kind = .comma then
        let (vs, c) ← parseItems fuel close separator c.advance
        .ok (v :: vs, c)
      else if c.kind = close then .ok ([v], c.advance)
      else mismatch separator c

/-- Properties up to the closing brace, with any number of commas around them. -/
def parseProps : Nat → Tokens → Except ParseError (List Property × Tokens)
  | 0, _ => .error .stalled
  | fuel + 1, c =>
    match c.kind with
    | .rbrace => .ok ([], c.advance)
    | .comma => parseProps fuel c.advance
    | _ => do
      let (p, c) ← parseProp fuel c
      let (ps, c) ← parseProps fuel c
      .ok (p :: ps, c)

def parseProp : Nat → Tokens → Except ParseError (Property × Tokens)
  | 0, _ => .error .stalled
  | fuel + 1, c => do
    let (key, c) ← expectName .propertyName c
    let (_, c) ← expect .colon c
    let (v, c) ← parseValue fuel c
    .ok (⟨key.lexeme, key.pos, v⟩, c)

end

/-- A body in braces. -/
def parseBody (fuel : Nat) (c : Tokens) : Except ParseError (List Property × Tokens) := do
  let (_, c) ← expect .lbrace c
  parseProps fuel c

/-- Attribute arguments after the first; no comma may stand before the parenthesis. -/
def attributeArgs : Nat → Tokens → Except ParseError (List Property × Tokens)
  | 0, _ => .error .stalled
  | fuel + 1, c => do
    let (p, c) ← parseProp fuel c
    match c.kind with
    | .comma =>
      let (ps, c) ← attributeArgs fuel c.advance
      .ok (p :: ps, c)
    | .rparen => .ok ([p], c.advance)
    | _ => mismatch .commaOrParen c

def parseAttribute (fuel : Nat) (c : Tokens) : Except ParseError (Attribute × Tokens) :=
  let t := c.peek
  let c := c.advance
  if c.kind = .rparen then .ok (⟨t.lexeme, t.pos, []⟩, c.advance)
  else do
    let (args, c) ← attributeArgs fuel c
    .ok (⟨t.lexeme, t.pos, args⟩, c)

/-- The modifier that a word stands for by itself. -/
def plainModifier : String → Option Modifier
  | "primaryKey" => some .primaryKey
  | "unique" => some .unique
  | "optional" => some .optional
  | _ => none

/-- One modifier, or nothing when the next field, a comma or the closing brace follows. A word
that is followed by a colon names the next field, whatever it spells. -/
def parseModifier (fuel : Nat) (c : Tokens) : Except ParseError (Option Modifier × Tokens) :=
  let t := c.peek
  let next := (c.peekAt 1).kind
  match (if t.kind = .ident && next ≠ .colon then plainModifier t.lexeme else none) with
  | some m => .ok (some m, c.advance)
  | none =>
    if t.kind = .ident && t.lexeme = "default" && next = .lparen then do
      let (v, c) ← parseValue fuel c.advance.advance
      let (_, c) ← expect .rparen c
      .ok (some (.default v), c)
    else if t.kind = .attr then do
      let (a, c) ← parseAttribute fuel c
      .ok (some (.attr a), c)
    else if t.kind = .comma || t.kind = .rbrace || (t.isName && next = .colon) then .ok (none, c)
    else mismatch .fieldModifier c

def parseModifiers : Nat → Tokens → Except ParseError (List Modifier × Tokens)
  | 0, _ => .error .stalled
  | fuel + 1, c => do
    match ← parseModifier fuel c with
    | (none, c) => .ok ([], c)
    | (some m, c) =>
      let (ms, c) ← parseModifiers fuel c
      .ok (m :: ms, c)

def parseTypeRef (c : Tokens) : Except ParseError (TypeRef × Tokens) := do
  let (t, c) ← expectName .fieldType c
  if c.kind = .lbracket then
    let (_, c) ← expect .rbracket c.advance
    .ok (⟨t.lexeme, true, t.pos⟩, c)
  else .ok (⟨t.lexeme, false, t.pos⟩, c)

def parseField (fuel : Nat) (c : Tokens) : Except ParseError (FieldDecl × Tokens) := do
  let (name, c) ← expectName .fieldNameOrBrace c
  let (_, c) ← expect .colon c
  let (type, c) ← parseTypeRef c
  let (modifiers, c) ← parseModifiers fuel c
  .ok (⟨name.lexeme, name.pos, type, modifiers⟩, c)

/-- Fields up to the closing brace, with any number of commas around them. -/
def parseFields : Nat → Tokens → Except ParseError (List FieldDecl × Tokens)
  | 0, _ => .error .stalled
  | fuel + 1, c =>
    match c.kind with
    | .rbrace => .ok ([], c.advance)
    | .comma => parseFields fuel c.advance
    | _ => do
      let (f, c) ← parseField fuel c
      let (fs, c) ← parseFields fuel c
      .ok (f :: fs, c)

def parseEnumValues : Nat → Tokens → Except ParseError (List EnumValue × Tokens)
  | 0, _ => .error .stalled
  | fuel + 1, c =>
    match c.kind with
    | .rbrace => .ok ([], c.advance)
    | .comma => parseEnumValues fuel c.advance
    | .ident | .keyword => do
      let (vs, c') ← parseEnumValues fuel c.advance
      .ok (⟨c.peek.lexeme, c.peek.pos⟩ :: vs, c')
    | _ => mismatch .enumValueOrBrace c

/-- The properties and the steps of a workflow. A step opens with the word `step`, a name and a
brace; anything else is a property. -/
def parseWorkflowItems : Nat → Tokens → Except ParseError ((List Property × List StepDecl) × Tokens)
  | 0, _ => .error .stalled
  | fuel + 1, c =>
    match c.kind with
    | .rbrace => .ok (([], []), c.advance)
    | .comma => parseWorkflowItems fuel c.advance
    | _ =>
      let t := c.peek
      if t.kind = .ident && t.lexeme = "step" && (c.peekAt 1).isName &&
          (c.peekAt 2).kind = .lbrace then do
        let action := c.advance.peek
        let (inputs, c) ← parseBody fuel c.advance.advance
        let ((ps, ss), c) ← parseWorkflowItems fuel c
        .ok ((ps, ⟨action.lexeme, t.pos, inputs⟩ :: ss), c)
      else do
        let (p, c) ← parseProp fuel c
        let ((ps, ss), c) ← parseWorkflowItems fuel c
        .ok ((p :: ps, ss), c)

def parseNamedBlock (fuel : Nat) (file : String) (what : Expected) (c : Tokens) :
    Except ParseError (BlockDecl × Tokens) := do
  let at_ := c.peek.pos
  let (name, c) ← expectName what c.advance
  let (props, c) ← parseBody fuel c
  .ok (⟨⟨name.lexeme, at_, file⟩, props⟩, c)

/-- One top-level block. -/
def parseDecl (fuel : Nat) (file : String) (c : Tokens) : Except ParseError (Decl × Tokens) :=
  let t := c.peek
  if t.kind ≠ .keyword then mismatch .blockKeyword c
  else if t.lexeme = "entity" then do
    let (name, c) ← expectName .entityName c.advance
    let (_, c) ← expect .lbrace c
    let (fields, c) ← parseFields fuel c
    .ok (.entity ⟨⟨name.lexeme, t.pos, file⟩, fields⟩, c)
  else if t.lexeme = "enum" then do
    let (name, c) ← expectName .enumName c.advance
    let (_, c) ← expect .lbrace c
    let (values, c) ← parseEnumValues fuel c
    .ok (.enum ⟨⟨name.lexeme, t.pos, file⟩, values⟩, c)
  else if t.lexeme = "page" then do
    let (d, c) ← parseNamedBlock fuel file .pageName c
    .ok (.page d, c)
  else if t.lexeme = "view" then do
    let (d, c) ← parseNamedBlock fuel file .viewName c
    .ok (.view d, c)
  else if t.lexeme = "workflow" then do
    let (name, c) ← expectName .workflowName c.advance
    let (_, c) ← expect .lbrace c
    let ((props, steps), c) ← parseWorkflowItems fuel c
    .ok (.workflow ⟨⟨name.lexeme, t.pos, file⟩, props, steps⟩, c)
  else if t.lexeme = "config" then do
    let c := c.advance
    let (name, c) := if c.peek.isName then (c.peek.lexeme, c.advance) else ("", c)
    let (props, c) ← parseBody fuel c
    .ok (.config ⟨⟨name, t.pos, file⟩, props⟩, c)
  else mismatch .knownBlockKeyword c

def parseDecls : Nat → String → Tokens → Except ParseError (List Decl × Tokens)
  | 0, _, _ => .error .stalled
  | fuel + 1, file, c =>
    if c.kind = .eof then .ok ([], c)
    else do
      let (d, c) ← parseDecl fuel file c
      let (ds, c) ← parseDecls fuel file c
      .ok (d :: ds, c)

/-- Fuel for a list of `n` tokens: a nested array takes two units for its bracket, and nothing
takes more. -/
def parseFuel (n : Nat) : Nat := 2 * n + 8

/-- The tree of a token list; the first error ends parsing. -/
def parseTokens (file : String) (tokens : List Token) : Except ParseError File := do
  let (decls, _) ← parseDecls (parseFuel tokens.length) file (.ofList tokens)
  .ok ⟨file, decls⟩

/-- Why a source text has no tree. -/
inductive SourceProblem
  | lexical (e : LexError)
  | structural (e : ParseError)
  deriving DecidableEq, Repr

/-- A problem and the file it is in. -/
structure SourceError where
  file : String
  problem : SourceProblem
  deriving DecidableEq, Repr

def ParseError.message (file : String) : ParseError → String
  | mismatch expected found =>
    found.pos.located file ++ ": syntax error: expected " ++ expected.text ++ ", found " ++
      found.describe
  | stalled => "parsing does not end"

def SourceError.message (e : SourceError) : String :=
  match e.problem with
  | .lexical l => l.message e.file
  | .structural p => p.message e.file

def parseSource (file : String) (source : List Text.Rune) : Except SourceError File :=
  match lex source with
  | .error e => .error ⟨file, .lexical e⟩
  | .ok tokens =>
    match parseTokens file tokens with
    | .error e => .error ⟨file, .structural e⟩
    | .ok f => .ok f

end Scaffold.Source
