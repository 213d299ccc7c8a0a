import Scaffold.Text.Case
import Scaffold.Text.Letter

/-! # Words of an identifier

An identifier is cut into words at every character that is neither a letter nor a digit, and
before an upper-case letter that starts a word: `UserProfile` is User, Profile; `HTTPServer` is
HTTP, Server. The spellings of generated names are built from these words. -/
namespace Scaffold.Text

def isWordChar (c : Char) : Bool := isLetter c || isDigit c

/-- Whether a word starts at `c`, between the character before it and the one after it. -/
def startsWord (before c : Char) (after : Option Char) : Bool :=
  isUpper c &&
    (isLower before || isDigit before || (isUpper before && after.any isLower))

/-- The words of a text; `current` holds the open word, last character first. -/
def wordsFrom : (current : List Char) → List Char → List (List Char)
  | [], [] => []
  | current, [] => [current.reverse]
  | [], c :: rest => if isWordChar c then wordsFrom [c] rest else wordsFrom [] rest
  | before :: earlier, c :: rest =>
    if !isWordChar c then (before :: earlier).reverse :: wordsFrom [] rest
    else if startsWord before c rest.head? then (before :: earlier).reverse :: wordsFrom [c] rest
    else wordsFrom (c :: before :: earlier) rest

def words (s : String) : List String := (wordsFrom [] s.toList).map String.ofList

/-- Lower-case words joined by hyphens. -/
def kebab (s : String) : String := "-".intercalate ((words s).map downcase)

/-- Lower-case words joined by underscores. -/
def snake (s : String) : String := "_".intercalate ((words s).map downcase)

def capitalized (s : String) : String :=
  match s.toList with
  | [] => ""
  | c :: rest => String.ofList (upper c :: rest)

/-- Words joined with a capital each. -/
def pascal (s : String) : String := String.join ((words s).map capitalized)

/-- Like `pascal` with a lower-case start; an abbreviation at the start is lowered as a whole. -/
def camel (s : String) : String :=
  let cs := (pascal s).toList
  let lead := (cs.takeWhile isUpper).length
  let cut := if lead = cs.length then lead else if lead > 1 then lead - 1 else lead
  String.ofList ((cs.take cut).map lower ++ cs.drop cut)

end Scaffold.Text
