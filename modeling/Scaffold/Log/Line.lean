import Scaffold.Json.Printer
import Scaffold.Text.Case
import Scaffold.Text.Letter

/-! # Log lines

An entry of the log has a level, a message and attributes. It is one line, in a form for people or
in JSON. The time of an entry is put in front of its line when it is written. -/
namespace Scaffold.Log

open Scaffold.Text

inductive Level
  | debug
  | info
  | warn
  | error
  deriving DecidableEq, Repr

namespace Level

def all : List Level := [debug, info, warn, error]

def name : Level → String
  | debug => "DEBUG"
  | info => "INFO"
  | warn => "WARN"
  | error => "ERROR"

def rank : Level → Nat
  | debug => 0
  | info => 1
  | warn => 2
  | error => 3

/-- A level by its name in any case; an unknown name means `info`. -/
def ofName (s : String) : Level := (all.find? fun l => downcase l.name == downcase s).getD info

end Level

inductive Format
  | text
  | json
  deriving DecidableEq, Repr

def Format.ofName (s : String) : Format := if equalFold s "json" then .json else .text

structure Entry where
  level : Level
  message : String
  attributes : List (String × String)
  deriving DecidableEq, Repr

/-- Whether a character would make a value hard to read back from a line. -/
def needsQuotes (c : Char) : Bool :=
  if c.toNat < 0x80 then c.toNat < 0x20 || c = ' ' || c = '=' || c = '"'
  else c.toNat = 0xFFFD || isBlank c || !isPrintable c

/-- A value of a line, between quotes if it is empty or hard to read back. -/
def valueText (s : String) : String :=
  if s = "" || s.toList.any needsQuotes then quoted s else s

def Entry.pairs (e : Entry) : List (String × String) :=
  ("level", e.level.name) :: ("msg", e.message) :: e.attributes

def Entry.text (e : Entry) : String :=
  " ".intercalate (e.pairs.map fun (k, v) => valueText k ++ "=" ++ valueText v)

/-- The members of an entry and the brace that closes it; the time stands before them. -/
def Entry.json (e : Entry) : String :=
  ",".intercalate (e.pairs.map fun (k, v) => Json.quoteText false k ++ ":" ++ Json.quoteText false v) ++
    "\x7d"

def Entry.line (e : Entry) : Format → String
  | .text => e.text
  | .json => e.json

/-- A log that keeps the entries from some level on. -/
structure Logger where
  level : Level
  format : Format
  deriving DecidableEq, Repr

def Logger.ofNames (level format : String) : Logger := ⟨.ofName level, .ofName format⟩

/-- The lines that a logger keeps of some entries. -/
def Logger.lines (l : Logger) (entries : List Entry) : List String :=
  (entries.filter fun e => l.level.rank ≤ e.level.rank).map (·.line l.format)

end Scaffold.Log
