import Scaffold.Text.Search

/-! # Shell lines

Words with quotes, redirections, and commands joined by `;`, `&&` and `||`. -/
namespace Scaffold.Shell

open Scaffold.Text

inductive Stream
  | output
  | errors
  deriving DecidableEq, Repr

inductive Lexeme
  | word (text : String)
  | next
  | both
  | either
  /-- The following word names a file. -/
  | toFile (source : Stream) (append : Bool)
  | toStream (source target : Stream)
  deriving DecidableEq, Repr

/-- What the reader of a line is inside of. -/
inductive Mode
  | plain
  | single
  | double
  | comment
  deriving DecidableEq, Repr

/-- The open word, last character first; there is none between words. -/
abbrev Open := Option (List Char)

def Open.push (w : Open) (c : Char) : Open := some (c :: w.getD [])

def Open.close : Open → List Lexeme
  | none => []
  | some cs => [.word (String.ofList cs.reverse)]

/-- The stream that a redirection is about: a digit in front of it chooses. -/
def Open.source : Open → List Lexeme × Stream
  | some ['1'] => ([], .output)
  | some ['2'] => ([], .errors)
  | w => (w.close, .output)

def lexemes : Mode → Open → List Char → List Lexeme
  | _, w, [] => w.close
  | .comment, w, c :: cs =>
    if c = '\n' then .next :: lexemes .plain none cs else lexemes .comment w cs
  | .single, w, c :: cs =>
    if c = '\'' then lexemes .plain w cs else lexemes .single (w.push c) cs
  | .double, w, '\\' :: c :: cs =>
    if c = '"' || c = '\\' || c = '$' || c = '\x60' then lexemes .double (w.push c) cs
    else lexemes .double ((w.push '\\').push c) cs
  | .double, w, c :: cs =>
    if c = '"' then lexemes .plain w cs else lexemes .double (w.push c) cs
  | .plain, w, '\\' :: c :: cs => lexemes .plain (w.push c) cs
  | .plain, w, '&' :: '&' :: cs => w.close ++ .both :: lexemes .plain none cs
  | .plain, w, '|' :: '|' :: cs => w.close ++ .either :: lexemes .plain none cs
  | .plain, w, '>' :: '>' :: cs =>
    w.source.1 ++ .toFile w.source.2 true :: lexemes .plain none cs
  | .plain, w, '>' :: '&' :: '1' :: cs =>
    w.source.1 ++ .toStream w.source.2 .output :: lexemes .plain none cs
  | .plain, w, '>' :: '&' :: '2' :: cs =>
    w.source.1 ++ .toStream w.source.2 .errors :: lexemes .plain none cs
  | .plain, w, '>' :: cs => w.source.1 ++ .toFile w.source.2 false :: lexemes .plain none cs
  | .plain, w, c :: cs =>
    if c = '\n' || c = ';' then w.close ++ .next :: lexemes .plain none cs
    else if isBlank c then w.close ++ lexemes .plain none cs
    else if c = '\'' then lexemes .single (some (w.getD [])) cs
    else if c = '"' then lexemes .double (some (w.getD [])) cs
    else if c = '#' && w = none then lexemes .comment none cs
    else lexemes .plain (w.push c) cs

/-- When a command runs: always, or depending on the one before it. -/
inductive Joint
  | always
  | onSuccess
  | onFailure
  deriving DecidableEq, Repr

inductive Target
  | stream (s : Stream)
  | file (path : String) (append : Bool)
  deriving DecidableEq, Repr

structure Command where
  joint : Joint
  words : List String
  redirects : List (Stream × Target)
  deriving DecidableEq, Repr

/-- Group lexemes into commands; `c` is the open one. -/
def commandsFrom : Command → List Lexeme → List Command
  | c, [] => [c]
  | c, .word t :: rest => commandsFrom { c with words := c.words ++ [t] } rest
  | c, .next :: rest => c :: commandsFrom ⟨.always, [], []⟩ rest
  | c, .both :: rest => c :: commandsFrom ⟨.onSuccess, [], []⟩ rest
  | c, .either :: rest => c :: commandsFrom ⟨.onFailure, [], []⟩ rest
  | c, .toStream s t :: rest =>
    commandsFrom { c with redirects := c.redirects ++ [(s, .stream t)] } rest
  | c, .toFile s append :: .word t :: rest =>
    commandsFrom { c with redirects := c.redirects ++ [(s, .file t append)] } rest
  | c, .toFile .. :: rest => commandsFrom c rest

/-- The commands of a script. -/
def commands (script : String) : List Command :=
  (commandsFrom ⟨.always, [], []⟩ (lexemes .plain none script.toList)).filter fun c =>
    !(c.words.isEmpty && c.redirects.isEmpty)

end Scaffold.Shell
