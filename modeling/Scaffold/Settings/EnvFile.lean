import Scaffold.Text.Quoted
import Scaffold.Text.Search

/-! # Environment files

Lines of the form `NAME=value` that add to the environment. A value may stand between quotes; in
double quotes and without quotes it may use the variables that stand before it in the file. -/
namespace Scaffold.Settings

open Scaffold.Text

/-- Variables of the environment. -/
abbrev Environment := List (String × String)

namespace EnvFile

inductive EnvFileError
  | unexpected (char : Char) (near : String)
  | unterminated (value : String)
  | noName
  deriving DecidableEq, Repr

def EnvFileError.message : EnvFileError → String
  | unexpected char near =>
    "unexpected character " ++ quoted char.toString ++ " in variable name near " ++ quoted near
  | unterminated value => "unterminated quoted value " ++ value
  | noName => "zero length string"

/-- A blank inside of a line. -/
def isGap (c : Char) : Bool :=
  c = '\t' || c = '\x0b' || c = '\x0c' || c = '\r' || c = ' ' || c.toNat = 0x85 || c.toNat = 0xA0

def unifyLines : List Char → List Char
  | '\r' :: '\n' :: cs => '\n' :: unifyLines cs
  | c :: cs => c :: unifyLines cs
  | [] => []

/-- Pass over blanks and comments. -/
def toStatement : (inComment : Bool) → List Char → List Char
  | _, [] => []
  | true, c :: cs => toStatement (c ≠ '\n') cs
  | false, c :: cs =>
    if isBlank c then toStatement false cs
    else if c = '#' then toStatement true cs
    else c :: cs

/-- A name may be announced by a word of the shell. -/
def dropExport (cs : List Char) : List Char :=
  match after? "export".toList cs with
  | some (c :: rest) => if isGap c then rest.dropWhile isGap else cs
  | _ => cs

/-- Whether a byte may stand in a name, read as a character of Latin-1. -/
def isNameByte (c : Char) : Bool :=
  isGap c || c = '_' || c = '.' || isLetter c || c.isDigit ||
    [0xB2, 0xB3, 0xB9, 0xBC, 0xBD, 0xBE].contains c.toNat

/-- The bytes of a character, each as a character. -/
def bytesOf (c : Char) : List Char := c.toString.toUTF8.toList.map fun b => Char.ofNat b.toNat

/-- The name before a `=` or `:`, and what follows; without such a mark all is left. -/
def nameFrom (near : List Char) : (name : List Char) → List Char →
    Except EnvFileError (List Char × List Char)
  | _, [] => .ok ([], near)
  | name, c :: cs =>
    if c = '=' || c = ':' then .ok (name.reverse, cs)
    else match (bytesOf c).find? (!isNameByte ·) with
      | some b => .error (.unexpected b (String.ofList near))
      | none => nameFrom near (c :: name) cs

/-- Replace variables such as `$NAME`, `$\x7bNAME\x7d`; a backslash in front keeps them. -/
def expandFrom (vars : Environment) : (fuel : Nat) → List Char → List Char
  | 0, cs => cs
  | _, [] => []
  | fuel + 1, c :: cs =>
    let (kept, rest) := match c, cs with
      | '\\', '$' :: rest => (true, rest)
      | _, _ => (false, cs)
    if c = '$' || kept then
      let (paren, rest) := match rest with
        | '(' :: r => (['('], r)
        | r => ([], r)
      let (opening, rest) := match rest with
        | '\x7b' :: r => (['\x7b'], r)
        | r => ([], r)
      let (name, rest) := rest.span fun d => d.isUpper || d.isDigit || d = '_'
      let (closing, rest) := match rest with
        | '\x7d' :: r => (['\x7d'], r)
        | r => ([], r)
      let whole := '$' :: paren ++ opening ++ name ++ closing
      let shown :=
        if kept || name.isEmpty then whole
        else ((vars.lookup (String.ofList name)).getD "").toList
      shown ++ expandFrom vars fuel rest
    else c :: expandFrom vars fuel cs

def expand (vars : Environment) (cs : List Char) : List Char := expandFrom vars (cs.length + 1) cs

/-- Line ends that are written as `\n` and `\r`. -/
def lineEscapes : List Char → List Char
  | '\\' :: 'n' :: cs => '\n' :: lineEscapes cs
  | '\\' :: 'r' :: cs => '\r' :: lineEscapes cs
  | '\\' :: '\n' :: cs => '\\' :: '\n' :: lineEscapes cs
  | '\\' :: c :: cs => '\\' :: c :: lineEscapes cs
  | c :: cs => c :: lineEscapes cs
  | [] => []

/-- Drop the backslash before any character but a dollar sign. -/
def unescape : List Char → List Char
  | '\\' :: '$' :: cs => '\\' :: '$' :: unescape cs
  | '\\' :: c :: cs => c :: unescape cs
  | c :: cs => c :: unescape cs
  | [] => []

/-- What stands before the closing quote, and what follows it. A quote after a backslash does not
close. -/
def toQuote (quote : Char) : (before : Char) → List Char → Option (List Char × List Char)
  | _, [] => none
  | before, c :: cs =>
    if c = quote && before ≠ '\\' then some ([], cs)
    else (toQuote quote c cs).map fun (inside, rest) => (c :: inside, rest)

def trimBy (p : Char → Bool) (cs : List Char) : List Char :=
  ((cs.dropWhile p).reverse.dropWhile p).reverse

/-- A line without its comment, which starts after the last gap that a hash follows. -/
def dropComment (line : List Char) : List Char :=
  match (line.zip (line.drop 1)).zipIdx.reverse.find? fun ((a, b), _) => isGap a && b = '#' with
  | some (_, i) => line.take (i + 1)
  | none => line

/-- A value and what follows it. -/
def valueFrom (vars : Environment) (cs : List Char) : Except EnvFileError (List Char × List Char) :=
  match cs with
  | [] => .ok ([], [])
  | q :: inside =>
    if q = '"' || q = '\'' then
      match toQuote q q inside with
      | none => .error (.unterminated (String.ofList (cs.takeWhile (· ≠ '\n'))))
      | some (text, rest) =>
        let text := trimBy (· = q) text
        .ok (if q = '"' then expand vars (unescape (lineEscapes text)) else text, rest)
    else
      let (line, rest) := cs.span fun c => c ≠ '\n' && c ≠ '\r'
      .ok (expand vars (trimBy isGap (dropComment line)), rest)

def dropBlankEnd (cs : List Char) : List Char := (cs.reverse.dropWhile isBlank).reverse

/-- Read statements; a later one of the same name wins. -/
def readFrom : (fuel : Nat) → Environment → List Char → Except EnvFileError Environment
  | 0, vars, _ => .ok vars
  | fuel + 1, vars, cs =>
    match toStatement false cs with
    | [] => .ok vars
    | start =>
      let start := dropExport start
      if start.isEmpty then .error .noName
      else do
        let (name, rest) ← nameFrom start [] start
        let (value, rest) ← valueFrom vars (rest.dropWhile isGap)
        readFrom fuel ((String.ofList (dropBlankEnd name), String.ofList value) :: vars) rest

/-- The variables of a file, the last first. -/
def read (text : String) : Except EnvFileError Environment :=
  readFrom (text.length + 1) [] (unifyLines text.toList)

end EnvFile

/-- Add variables to the environment; those that are set already stay. The first of a name counts. -/
def Environment.extend (e vars : Environment) : Environment :=
  vars.foldl (fun (e : Environment) (name, value) =>
    if name = "" || (e.lookup name).isSome || value.toList.contains '\x00' then e
    else e ++ [(name, value)]) e

end Scaffold.Settings
