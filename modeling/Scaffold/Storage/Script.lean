import Scaffold.Text.Search

/-! # Scripts

A script is cut into statements after each semicolon. A semicolon or two dashes inside quotes are
text, and two dashes outside of quotes start a comment to the end of the line, which is left out.
A doubled quote closes and opens a quotation, so it needs no rule of its own. -/
namespace Scaffold.Storage

open Scaffold.Text (trimChars)

/-- What the reader of a script is inside of. -/
inductive ScriptMode
  | code
  | quoted (quote : Char)
  | comment
  deriving DecidableEq, Repr

/-- The pieces of a script without its comments; each but the last ends with a semicolon. `current`
holds the open piece, last character first. -/
def pieces : ScriptMode → (current : List Char) → List Char → List (List Char)
  | _, current, [] => [current.reverse]
  | .comment, current, c :: cs =>
    if c = '\n' then pieces .code (c :: current) cs else pieces .comment current cs
  | .quoted quote, current, c :: cs =>
    pieces (if c = quote then .code else .quoted quote) (c :: current) cs
  | .code, current, '-' :: '-' :: cs => pieces .comment current cs
  | .code, current, c :: cs =>
    if c = ';' then (c :: current).reverse :: pieces .code [] cs
    else if c = '\'' || c = '"' then pieces (.quoted c) (c :: current) cs
    else pieces .code (c :: current) cs

/-- The statements of a script without blanks around them; blank ones are left out. -/
def statements (script : String) : List String :=
  (((pieces .code [] script.toList).map trimChars).filter (· ≠ [])).map String.ofList

end Scaffold.Storage
