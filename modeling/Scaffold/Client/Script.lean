import Scaffold.Json.Printer
import Scaffold.Output.Tree
import Scaffold.Rest.Schema
import Scaffold.Text.Search

/-! # Script text

Literals, types and markup in the scripts of the client. -/
namespace Scaffold.Client

open Scaffold.Rest

def header : List String := ["// " ++ Output.generatedHeader, ""]

/-- A JSON text is a string literal of the script. -/
def scriptText (s : String) : String := Json.quoteText false s

def scriptTexts (xs : List String) : String := "[" ++ ", ".intercalate (xs.map scriptText) ++ "]"

def escapeMarkup : Char → List Char
  | '&' => "&amp;".toList
  | '<' => "&lt;".toList
  | '>' => "&gt;".toList
  | '\x7b' => "&#123;".toList
  | '\x7d' => "&#125;".toList
  | '"' => "&quot;".toList
  | '\'' => "&apos;".toList
  | c => [c]

/-- A text between two tags. -/
def markupText (s : String) : String := String.ofList (s.toList.flatMap escapeMarkup)

/-- The type of a field in the script. -/
def scriptType (f : ResourceField) : String :=
  (match f.type with
    | .int | .decimal => "number"
    | .boolean => "boolean"
    | .json | .relation => "unknown"
    | _ => "string") ++ (if f.list then "[]" else "")

end Scaffold.Client
