/-! # JSON values

Members of an object keep their order, and a number is the text that was written for it, so a
value says exactly what its printed form will be. -/
namespace Scaffold

inductive Json
  | null
  | bool (value : Bool)
  | number (raw : String)
  | string (text : String)
  | array (elems : List Json)
  | object (members : List (String × Json))
  deriving Repr, Inhabited

namespace Json

def ofNat (n : Nat) : Json := number (toString n)

def ofInt (n : Int) : Json := number (toString n)

def strings (xs : List String) : Json := array (xs.map string)

/-- Put a member into an object sorted by key; a member of the same key is replaced. -/
def insertMember (key : String) (value : Json) : List (String × Json) → List (String × Json)
  | [] => [(key, value)]
  | (k, v) :: rest =>
    if key < k then (key, value) :: (k, v) :: rest
    else if key = k then (key, value) :: rest
    else (k, v) :: insertMember key value rest

/-- The members sorted by key; of two with one key the last counts. -/
def sortedMembers (members : List (String × Json)) : List (String × Json) :=
  members.foldl (fun acc m => insertMember m.1 m.2 acc) []

/-- An object whose order carries no meaning. -/
def table (members : List (String × Json)) : Json := object (sortedMembers members)

/-- A member that is left out when its text is empty. -/
def textMember (key text : String) : List (String × Json) :=
  if text = "" then [] else [(key, string text)]

/-- A member that is left out when false. -/
def flagMember (key : String) (flag : Bool) : List (String × Json) :=
  if flag then [(key, bool true)] else []

/-- A member that is left out when the list is empty. -/
def listMember (key : String) (xs : List String) : List (String × Json) :=
  if xs.isEmpty then [] else [(key, strings xs)]

/-- A member that is left out when there is none. -/
def optionMember {α : Type} (key : String) (f : α → Json) : Option α → List (String × Json)
  | some x => [(key, f x)]
  | none => []

end Json

end Scaffold
