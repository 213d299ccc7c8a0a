/-! # Dates and times in text

A date is `2006-01-02`; a date and time is `2006-01-02T15:04:05` with an optional fraction of a
second and a zone, `Z` or an offset such as `+03:00`. The hour may have one digit, the fraction
follows a point or a comma, and an offset may reach 24 hours and 60 minutes. -/
namespace Scaffold.Text.Timestamp

def digit? (c : Char) : Option Nat := if c.isDigit then some (c.toNat - '0'.toNat) else none

/-- Two digits. -/
def pair : List Char → Option (Nat × List Char)
  | a :: b :: rest => do
    let x ← digit? a
    let y ← digit? b
    some (10 * x + y, rest)
  | _ => none

/-- One or two digits. -/
def oneOrTwo : List Char → Option (Nat × List Char)
  | a :: b :: rest => do
    let x ← digit? a
    match digit? b with
    | some y => some (10 * x + y, rest)
    | none => some (x, b :: rest)
  | [a] => (digit? a).map (·, [])
  | [] => none

def literal (c : Char) : List Char → Option (List Char)
  | d :: rest => if c = d then some rest else none
  | [] => none

def isLeap (year : Nat) : Bool := year % 4 == 0 && (year % 100 != 0 || year % 400 == 0)

def daysIn (year month : Nat) : Nat :=
  if month = 2 then (if isLeap year then 29 else 28)
  else if month = 4 || month = 6 || month = 9 || month = 11 then 30
  else 31

/-- A date and what follows it; `number` reads the month and the day. -/
def dateBy (number : List Char → Option (Nat × List Char)) (cs : List Char) :
    Option (List Char) := do
  let (century, cs) ← pair cs
  let (years, cs) ← pair cs
  let year := 100 * century + years
  let cs ← literal '-' cs
  let (month, cs) ← number cs
  let cs ← literal '-' cs
  let (day, cs) ← number cs
  if 1 ≤ month && month ≤ 12 && 1 ≤ day && day ≤ daysIn year month then some cs else none

def date : List Char → Option (List Char) := dateBy pair

/-- A fraction of a second, if there is one. -/
def skipFraction : List Char → List Char
  | c :: d :: rest =>
    if (c = '.' || c = ',') && d.isDigit then rest.dropWhile Char.isDigit else c :: d :: rest
  | cs => cs

def zone : List Char → Option (List Char)
  | 'Z' :: rest => some rest
  | sign :: cs => do
    let (hours, cs) ← pair cs
    let cs ← literal ':' cs
    let (minutes, cs) ← pair cs
    if (sign = '+' || sign = '-') && hours ≤ 24 && minutes ≤ 60 then some cs else none
  | [] => none

/-- A time of day and what follows it; `number` reads the minute and the second. -/
def clockBy (number : List Char → Option (Nat × List Char)) (cs : List Char) :
    Option (List Char) := do
  let (hour, cs) ← oneOrTwo cs
  let cs ← literal ':' cs
  let (minute, cs) ← number cs
  let cs ← literal ':' cs
  let (second, cs) ← number cs
  if hour < 24 && minute < 60 && second < 60 then some (skipFraction cs) else none

def dateTime (cs : List Char) : Option (List Char) := do
  let cs ← date cs
  let cs ← literal 'T' cs
  let cs ← clockBy pair cs
  zone cs

/-- Whether the whole text is a date, or a date and time. -/
def valid (s : String) : Bool :=
  dateTime s.toList == some [] || date s.toList == some []

/-- A date and time whose numbers may have one digit. The date stands alone, or before `T` or `t`
and a time with a zone, or before blanks and a time without one. -/
def loose (cs : List Char) : Option (List Char) := do
  match ← dateBy oneOrTwo cs with
  | 'T' :: cs | 't' :: cs => zone (← clockBy oneOrTwo cs)
  | ' ' :: cs => clockBy oneOrTwo (cs.dropWhile (· = ' '))
  | cs => some cs

def validLoose (s : String) : Bool := loose s.toList == some []

end Scaffold.Text.Timestamp
