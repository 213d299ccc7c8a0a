import Scaffold.Text.Letter

/-! # Cutting and searching text -/
namespace Scaffold.Text

def trimChars (cs : List Char) : List Char :=
  ((cs.dropWhile isBlank).reverse.dropWhile isBlank).reverse

/-- The text without blanks at both ends. -/
def trim (s : String) : String := String.ofList (trimChars s.toList)

/-- Pieces between separators; a text without separator is one piece. -/
def splitChars (separator : Char) : List Char → List (List Char)
  | [] => [[]]
  | c :: cs =>
    if c = separator then [] :: splitChars separator cs
    else match splitChars separator cs with
      | piece :: pieces => (c :: piece) :: pieces
      | [] => [[c]]

def split (separator : Char) (s : String) : List String :=
  (splitChars separator s.toList).map String.ofList

/-- What follows a text at the head of another. -/
def after? : List Char → List Char → Option (List Char)
  | [], cs => some cs
  | _ :: _, [] => none
  | p :: ps, c :: cs => if p = c then after? ps cs else none

/-- What stands before and after the first occurrence of a text. -/
def cut? (needle : List Char) : List Char → Option (List Char × List Char)
  | [] => (after? needle []).map fun rest => ([], rest)
  | c :: cs =>
    match after? needle (c :: cs) with
    | some rest => some ([], rest)
    | none => (cut? needle cs).map fun (before, rest) => (c :: before, rest)

/-- Lines with their line ends; the last may have none. -/
def linesFrom : List Char → List (List Char)
  | [] => []
  | '\n' :: cs => ['\n'] :: linesFrom cs
  | c :: cs =>
    match linesFrom cs, cs with
    | _, [] => [[c]]
    | line :: lines, _ => (c :: line) :: lines
    | [], _ => [[c]]

def lines (s : String) : List String := (linesFrom s.toList).map String.ofList

/-- Replace every occurrence of a character. -/
def replaceChar (c : Char) (by_ : String) (s : String) : String :=
  String.ofList (s.toList.flatMap fun d => if d = c then by_.toList else [d])

def endsWith (s suffix : String) : Bool := (after? suffix.toList.reverse s.toList.reverse).isSome

def startsWith (s start : String) : Bool := (after? start.toList s.toList).isSome

/-- The text with a line end, if it lacks one. -/
def closeLine (s : String) : String := if endsWith s "\n" then s else s ++ "\n"

/-- Lines, each with a line end. -/
def unlines (ls : List String) : String := String.join (ls.map (· ++ "\n"))

end Scaffold.Text
