import Scaffold.Text.Printable

/-! # Quoted text

A quoted text stands on one line between two equal quotes. The quote and the backslash are
escaped, the common control characters have letters of their own, and any other character that is
not printable is written by its number. -/
namespace Scaffold.Text

def hexDigit (n : Nat) : Char := (Nat.toDigits 16 n).headD '0'

/-- The `width` lowest hexadecimal digits of `n`. -/
def hexDigits : (width : Nat) → (n : Nat) → List Char
  | 0, _ => []
  | width + 1, n => hexDigits width (n / 16) ++ [hexDigit (n % 16)]

def hex (width n : Nat) : String := String.ofList (hexDigits width n)

/-- The escape letters of control characters. -/
def controlLetters : List (Char × Char) :=
  [('\x07', 'a'), ('\x08', 'b'), ('\x0c', 'f'), ('\n', 'n'), ('\r', 'r'), ('\t', 't'), ('\x0b', 'v')]

def escapedChar (quote c : Char) : List Char :=
  if c = quote || c = '\\' then ['\\', c]
  else if isPrintable c then [c]
  else match controlLetters.lookup c with
    | some letter => ['\\', letter]
    | none =>
      if c.toNat < 0x80 then '\\' :: 'x' :: hexDigits 2 c.toNat
      else if c.toNat < 0x10000 then '\\' :: 'u' :: hexDigits 4 c.toNat
      else '\\' :: 'U' :: hexDigits 8 c.toNat

def quoteWith (quote : Char) (s : List Char) : String :=
  String.ofList (quote :: s.flatMap (escapedChar quote) ++ [quote])

/-- A text between double quotes. -/
def quoted (s : String) : String := quoteWith '"' s.toList

/-- A character between single quotes. -/
def quotedChar (c : Char) : String := quoteWith '\'' [c]

end Scaffold.Text
