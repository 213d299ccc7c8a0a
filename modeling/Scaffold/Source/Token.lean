import Scaffold.Source.Position
import Scaffold.Text.Quoted

/-! # Tokens

A token carries the text it stands for, with quotes and escapes already resolved in strings. -/
namespace Scaffold.Source

inductive TokenKind
  | eof | keyword | ident | string | number | bool | attr
  | lbrace | rbrace | lparen | rparen | lbracket | rbracket
  | colon | comma | dot | plus | minus | star | slash
  | unknown (code : Int)
  deriving DecidableEq, Repr

namespace TokenKind

/-- The kinds in the order of their codes. -/
def all : List TokenKind :=
  [.eof, .keyword, .ident, .string, .number, .bool, .attr, .lbrace, .rbrace, .lparen, .rparen,
    .lbracket, .rbracket, .colon, .comma, .dot, .plus, .minus, .star, .slash]

def ofCode (code : Int) : TokenKind :=
  match code with
  | .ofNat n => all[n]?.getD (.unknown code)
  | _ => .unknown code

def name : TokenKind → String
  | eof => "EOF"
  | keyword => "KEYWORD"
  | ident => "IDENT"
  | string => "STRING"
  | number => "NUMBER"
  | bool => "BOOL"
  | attr => "ATTR"
  | lbrace => "'\x7b'"
  | rbrace => "'\x7d'"
  | lparen => "'('"
  | rparen => "')'"
  | lbracket => "'['"
  | rbracket => "']'"
  | colon => "':'"
  | comma => "','"
  | dot => "'.'"
  | plus => "'+'"
  | minus => "'-'"
  | star => "'*'"
  | slash => "'/'"
  | unknown code => s!"TokenKind({code})"

end TokenKind

structure Token where
  kind : TokenKind
  lexeme : String
  pos : Pos
  deriving DecidableEq, Repr

namespace Token

/-- How a message speaks of the token. -/
def describe (t : Token) : String :=
  match t.kind with
  | .eof => "end of input"
  | .string => "string " ++ Text.quoted t.lexeme
  | .attr => "'@" ++ t.lexeme ++ "('"
  | .keyword => "keyword " ++ Text.quoted t.lexeme
  | .ident => "identifier " ++ Text.quoted t.lexeme
  | .number => "NUMBER " ++ t.lexeme
  | .bool => "BOOL " ++ t.lexeme
  | k => k.name

/-- What stands at the end of an empty token list. -/
def none : Token := ⟨.eof, "", ⟨0, 0, 0⟩⟩

/-- A name is an identifier or a keyword out of place. -/
def isName (t : Token) : Bool := t.kind = .ident || t.kind = .keyword

end Token

/-- A reader of a fixed token list. Past the end it repeats the last token. -/
structure TokenStream where
  tokens : List Token
  pos : Nat
  deriving DecidableEq, Repr

namespace TokenStream

def ofList (tokens : List Token) : TokenStream := ⟨tokens, 0⟩

def next (s : TokenStream) : Token × TokenStream :=
  match s.tokens[s.pos]? with
  | some t => (t, ⟨s.tokens, s.pos + 1⟩)
  | none => (s.tokens.getLastD Token.none, s)

def reset (s : TokenStream) : TokenStream := ⟨s.tokens, 0⟩

def length (s : TokenStream) : Nat := s.tokens.length

end TokenStream

end Scaffold.Source
