import Scaffold.Source.Token
import Scaffold.Text.Letter

/-! # Lexer

`lex` turns source text into tokens that end with one end-of-input token, or reports the first
character that fits no token. Blanks and both kinds of comments stand between tokens and leave no
trace. -/
namespace Scaffold.Source

open Scaffold.Text (Rune isLetter isDigit isBlank)

inductive LexProblem
  | unexpectedChar
  | unterminatedComment
  | unterminatedString
  | unknownEscape
  | missingAttrName
  | missingAttrParen (name : String)
  deriving DecidableEq, Repr

/-- The first problem of a text. The character is zero when the text ended. -/
structure LexError where
  problem : LexProblem
  pos : Pos
  char : Char
  deriving DecidableEq, Repr

def LexError.message (file : String) (e : LexError) : String :=
  e.pos.located file ++ ": lex error: " ++ match e.problem with
    | .unexpectedChar => "unexpected character " ++ Text.quotedChar e.char
    | .unterminatedComment => "unterminated block comment"
    | .unterminatedString => "unterminated string literal"
    | .unknownEscape => "unknown escape sequence \\" ++ e.char.toString
    | .missingAttrName => "expected attribute name after '@'"
    | .missingAttrParen name => "expected '(' after @" ++ name

/-- The text still to be read and its position. -/
structure Cursor where
  rest : List Rune
  pos : Pos
  deriving DecidableEq, Repr

namespace Cursor

def ofRunes (rs : List Rune) : Cursor := ⟨rs, Pos.start⟩

def peek (c : Cursor) : Char :=
  match c.rest with
  | [] => '\x00'
  | r :: _ => r.char

def advance (c : Cursor) : Cursor :=
  match c.rest with
  | [] => c
  | r :: rest => ⟨rest, c.pos.advance r⟩

/-- The longest run of characters of a class, and what follows it. -/
def span (p : Char → Bool) (c : Cursor) : List Char × Cursor :=
  let run := c.rest.takeWhile fun r => p r.char
  (run.map (·.char), ⟨c.rest.dropWhile fun r => p r.char, run.foldl Pos.advance c.pos⟩)

end Cursor

/-- What the text between two tokens is being read as. Inside a block comment it matters whether
the character before was a star. -/
inductive Gap
  | blank
  | lineComment
  | blockComment (start : Pos) (star : Bool)
  deriving DecidableEq, Repr

/-- Skip blanks and comments. -/
def skipGap : Gap → Pos → List Rune → Except LexError Cursor
  | .blockComment start _, _, [] => .error ⟨.unterminatedComment, start, '/'⟩
  | _, p, [] => .ok ⟨[], p⟩
  | .blank, p, r :: rest =>
    if isBlank r.char then skipGap .blank (p.advance r) rest
    else if r.char = '/' then
      match rest with
      | [] => .ok ⟨[r], p⟩
      | s :: rest' =>
        if s.char = '/' then skipGap .lineComment ((p.advance r).advance s) rest'
        else if s.char = '*' then skipGap (.blockComment p false) ((p.advance r).advance s) rest'
        else .ok ⟨r :: s :: rest', p⟩
    else .ok ⟨r :: rest, p⟩
  | .lineComment, p, r :: rest =>
    skipGap (if r.char = '\n' then .blank else .lineComment) (p.advance r) rest
  | .blockComment start star, p, r :: rest =>
    if star && r.char = '/' then skipGap .blank (p.advance r) rest
    else skipGap (.blockComment start (r.char = '*')) (p.advance r) rest

def isNameStart (c : Char) : Bool := c = '_' || isLetter c

def isNamePart (c : Char) : Bool := c = '_' || isLetter c || isDigit c

/-- Digits, and a fraction only when a digit follows the point. -/
def scanNumber (c : Cursor) : List Char × Cursor :=
  let (whole, c) := c.span isDigit
  if c.peek = '.' && isDigit c.advance.peek then
    let (fraction, c) := c.advance.span isDigit
    (whole ++ '.' :: fraction, c)
  else (whole, c)

/-- What an escape stands for. -/
def unescape : Char → Option Char
  | 'n' => some '\n'
  | 't' => some '\t'
  | '"' => some '"'
  | '\'' => some '\''
  | '\\' => some '\\'
  | _ => none

/-- The text of a string literal up to its closing quote. A literal stands on one line. -/
def scanString (quote : Char) (start : Pos) :
    Pos → List Rune → Except LexError (List Char × Cursor)
  | _, [] => .error ⟨.unterminatedString, start, quote⟩
  | p, r :: rest =>
    if r.char = '\n' then .error ⟨.unterminatedString, start, quote⟩
    else if r.char = quote then .ok ([], ⟨rest, p.advance r⟩)
    else if r.char = '\\' then
      match rest with
      | [] => .error ⟨.unknownEscape, p, '\x00'⟩
      | s :: rest' =>
        match unescape s.char with
        | none => .error ⟨.unknownEscape, p, s.char⟩
        | some ch => do
          let (text, c) ← scanString quote start ((p.advance r).advance s) rest'
          .ok (ch :: text, c)
    else do
      let (text, c) ← scanString quote start (p.advance r) rest
      .ok (r.char :: text, c)

def keywords : List String := ["entity", "page", "view", "workflow", "enum", "config"]

def wordKind (word : String) : TokenKind :=
  if word = "true" || word = "false" then .bool
  else if keywords.contains word then .keyword
  else .ident

/-- The kind of a token that is one punctuation character. -/
def punctuation : Char → Option TokenKind
  | '\x7b' => some .lbrace
  | '\x7d' => some .rbrace
  | '(' => some .lparen
  | ')' => some .rparen
  | '[' => some .lbracket
  | ']' => some .rbracket
  | ':' => some .colon
  | ',' => some .comma
  | '.' => some .dot
  | '+' => some .plus
  | '-' => some .minus
  | '*' => some .star
  | '/' => some .slash
  | _ => none

/-- The token at a cursor that stands on its first character `r`. -/
def scanToken (c : Cursor) (r : Rune) : Except LexError (Token × Cursor) :=
  if isNameStart r.char then
    let (word, c') := c.span isNamePart
    let word := String.ofList word
    .ok (⟨wordKind word, word, c.pos⟩, c')
  else if isDigit r.char then
    let (digits, c') := scanNumber c
    .ok (⟨.number, String.ofList digits, c.pos⟩, c')
  else if r.char = '"' || r.char = '\'' then do
    let (text, c') ← scanString r.char c.pos c.advance.pos c.advance.rest
    .ok (⟨.string, String.ofList text, c.pos⟩, c')
  else if r.char = '@' then
    let nameAt := c.advance
    if isNameStart nameAt.peek then
      let (name, c') := nameAt.span isNamePart
      let name := String.ofList name
      if c'.peek = '(' then .ok (⟨.attr, name, c.pos⟩, c'.advance)
      else .error ⟨.missingAttrParen name, c'.pos, c'.peek⟩
    else .error ⟨.missingAttrName, nameAt.pos, nameAt.peek⟩
  else match punctuation r.char with
    | some kind => .ok (⟨kind, r.char.toString, c.pos⟩, c.advance)
    | none => .error ⟨.unexpectedChar, c.pos, r.char⟩

/-- Read at most `fuel` tokens; every token takes a character. -/
def lexFrom : Nat → Cursor → Except LexError (List Token)
  | 0, c => .ok [⟨.eof, "", c.pos⟩]
  | fuel + 1, c => do
    let c ← skipGap .blank c.pos c.rest
    match c.rest with
    | [] => .ok [⟨.eof, "", c.pos⟩]
    | r :: _ => do
      let (t, c) ← scanToken c r
      let ts ← lexFrom fuel c
      .ok (t :: ts)

def lex (source : List Rune) : Except LexError (List Token) :=
  lexFrom (source.length + 1) (.ofRunes source)

end Scaffold.Source
