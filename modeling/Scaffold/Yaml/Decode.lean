import Scaffold.Yaml.Value

/-! # Reading values of a kind

A value is read as a text, a number, a list and so on. A reader gives `none` if the value is of
another kind, and `some none` if there is no value, so that what was there before stays. -/
namespace Scaffold.Yaml.Value

/-- The kind that a tag asks for. -/
def tagFits (tag : String) (x : Scalar) : Bool :=
  match tag, x with
  | "!!null", .null => true
  | "!!bool", .bool _ => true
  | "!!int", .int _ => true
  | "!!float", .float _ => true
  | "!!float", .int _ => true
  | "!!timestamp", .time => true
  | _, _ => false

def isResolvable (tag : String) : Bool :=
  ["!!null", "!!bool", "!!int", "!!float", "!!timestamp"].contains tag

/-- What a scalar stands for; `none` if its tag does not fit. -/
def resolved (tag : Option String) (isPlain : Bool) (text : String) : Option Scalar :=
  let plain := if isPlain then resolve text else .text
  match tag with
  | none => some plain
  | some "!" => some plain
  | some tag =>
    if isResolvable tag then
      let x := resolve text
      if tagFits tag x then some x else none
    else some .text

/-- A text: any scalar as it is written. -/
def text? : Value → Option (Option String)
  | .scalar tag isPlain text =>
    (resolved tag isPlain text).map fun x => if x = .null then none else some text
  | _ => none

/-- Words that stand for truth values where nothing else can be meant. -/
def truthWords : List (String × Bool) :=
  ["y", "Y", "yes", "on"].map (·, true) ++ ["n", "N", "no", "off"].map (·, false)

def bool? : Value → Option (Option Bool)
  | .scalar tag isPlain text =>
    match resolved tag isPlain text with
    | some .null => some none
    | some (.bool b) => some (some b)
    | some .text => (truthWords.lookup text).map some
    | _ => none
  | _ => none

/-- The integer part of a number, in 64 bits. What is too small, and the first number that is too
large, becomes the least one. -/
def wholePart (n : Int) : Option Int :=
  if n ≤ Number.maxInt64 + 1 then
    some (if n = Number.maxInt64 + 1 || n < Number.minInt64 then Number.minInt64 else n)
  else none

def int? : Value → Option (Option Int)
  | .scalar tag isPlain text =>
    match resolved tag isPlain text with
    | some .null => some none
    | some (.int n) => if n ≤ Number.maxInt64 then some (some n) else none
    | some (.float (some n)) => (wholePart n).map some
    | _ => none
  | _ => none

/-- A text that another reader takes. -/
def parsed? {α : Type} (parse : String → Option α) : Value → Option (Option α)
  | .scalar tag isPlain text =>
    match resolved tag isPlain text with
    | some .null => some none
    | some .text => (parse text).map some
    | _ => none
  | _ => none

/-- A list; items without a value are left out. -/
def list? {α : Type} (item : Value → Option (Option α)) : Value → Option (Option (List α))
  | .sequence items => (items.mapM item).map fun xs => some (xs.filterMap id)
  | .scalar tag isPlain text =>
    match resolved tag isPlain text with
    | some .null => some none
    | _ => none
  | .mapping _ => none

/-- Whether a key asks for the pairs of other mappings. -/
def isMerge : Value → Bool
  | .scalar tag isPlain text => text = "<<" && isPlain && (tag = none || tag = some "!")
  | _ => false

/-- Whether two keys are written alike. -/
def sameKey : Value → Value → Bool
  | .scalar _ _ s, .scalar _ _ t => s = t
  | .sequence _, .sequence _ => true
  | .mapping _, .mapping _ => true
  | _, _ => false

def hasDuplicate : List (Value × Value) → Bool
  | [] => false
  | (k, _) :: rest => rest.any (sameKey k ·.1) || hasDuplicate rest

def pairs? : Value → Option (List (Value × Value))
  | .mapping pairs => some pairs
  | _ => none

/-- The pairs that a merge brings. -/
def merged? : Value → Option (List (Value × Value))
  | .mapping pairs => some pairs
  | .sequence items => (items.mapM pairs?).map List.flatten
  | .scalar .. => none

/-- The pairs of a mapping with those that it merges, which do not replace its own. -/
def withMerges (pairs : List (Value × Value)) : Option (List (Value × Value)) :=
  let own := pairs.filter (!isMerge ·.1)
  match (pairs.filter (isMerge ·.1)).getLast? with
  | none => some own
  | some (_, source) => (merged? source).map fun more =>
    more.foldl (fun have_ p => if have_.any (sameKey p.1 ·.1) then have_ else have_ ++ [p]) own

/-- The members of a mapping by the text of their key; keys without a value are left out. -/
def members? : Value → Option (Option (List (String × Value)))
  | .mapping pairs =>
    if hasDuplicate pairs then none
    else do
      let pairs ← withMerges pairs
      let named ← pairs.mapM fun (k, v) => (text? k).map fun name => name.map (·, v)
      some (some (named.filterMap id))
  | .scalar tag isPlain text =>
    match resolved tag isPlain text with
    | some .null => some none
    | _ => none
  | .sequence _ => none

/-- A table of texts; a member without a value has the empty text. -/
def table? (v : Value) : Option (Option (List (String × String))) := do
  match ← members? v with
  | none => some none
  | some ms => some (some (← ms.mapM fun (k, x) => (text? x).map fun t => (k, t.getD "")))

end Scaffold.Yaml.Value
