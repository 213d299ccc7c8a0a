import Scaffold.Yaml.Token

/-! # Documents as values

The tokens of a document make up scalars, sequences and mappings. Only the first document of a text
counts. -/
namespace Scaffold.Yaml

inductive Value
  | scalar (tag : Option String) (isPlain : Bool) (text : String)
  | sequence (items : List Value)
  | mapping (pairs : List (Value × Value))
  deriving Repr

namespace Value

/-- What stands where nothing is written. -/
def absent : Value := .scalar none true ""

/-- Tokens still to be read, and the values that have a name. -/
structure Cursor where
  tokens : List Token
  anchors : List (String × Value)

abbrev Reader := StateT Cursor Option

/-- How many tokens are known in advance; a fault among them is noticed at once. -/
def lookahead : Nat := 3

def peek : Reader Token := fun c =>
  if (c.tokens.take lookahead).contains .fault then none
  else some (c.tokens.headD .streamEnd, c)

def advance : Reader Unit := fun c => some ((), { c with tokens := c.tokens.drop 1 })

def fail {α : Type} : Reader α := fun _ => none

def anchored (name : String) : Reader Value := fun c => (c.anchors.lookup name).map (·, c)

def remember (name : Option String) (v : Value) : Reader Value := fun c =>
  match name with
  | some name => some (v, { c with anchors := (name, v) :: c.anchors })
  | none => some (v, c)

/-- A name and a tag in front of a value, in any order. -/
def properties : Reader (Option String × Option String) := do
  match ← peek with
  | .anchor name =>
    advance
    match ← peek with
    | .tag tag => advance; return (some name, some tag)
    | _ => return (some name, none)
  | .tag tag =>
    advance
    match ← peek with
    | .anchor name => advance; return (some name, some tag)
    | _ => return (none, some tag)
  | _ => return (none, none)

/-- Read a value unless one of some tokens shows that there is none. -/
def unlessAt (stops : List Token) (read : Reader Value) : Reader Value := do
  if stops.contains (← peek) then return absent else read

mutual

/-- Read a value. Block collections and sequences without indentation are not allowed everywhere. -/
def node : (fuel : Nat) → (block unindented : Bool) → Reader Value
  | 0, _, _ => fail
  | fuel + 1, block, unindented => do
    match ← peek with
    | .alias_ name => advance; anchored name
    | _ =>
      let (name, tag) ← properties
      let v ← content fuel block unindented tag (name.isSome || tag.isSome)
      remember name v

def content : (fuel : Nat) → (block unindented : Bool) → (tag : Option String) →
    (mayBeAbsent : Bool) → Reader Value
  | 0, _, _, _, _ => fail
  | fuel + 1, block, unindented, tag, mayBeAbsent => do
    match ← peek, block, unindented with
    | .blockEntry, _, true => return .sequence (← entries fuel true)
    | .scalar isPlain text, _, _ => advance; return .scalar tag isPlain text
    | .openSequence, _, _ => advance; return .sequence (← flowItems fuel true)
    | .openMapping, _, _ => advance; return .mapping (← flowPairs fuel true)
    | .blockSequence, true, _ => advance; return .sequence (← entries fuel false)
    | .blockMapping, true, _ => advance; return .mapping (← pairs fuel)
    | _, _, _ => if mayBeAbsent then return .scalar tag true "" else fail

/-- The entries of a block sequence; without indentation anything else ends it. -/
def entries : (fuel : Nat) → (unindented : Bool) → Reader (List Value)
  | 0, _ => fail
  | fuel + 1, unindented => do
    match ← peek with
    | .blockEntry =>
      advance
      let stops := if unindented then [.blockEntry, .key, .value, .blockEnd] else [.blockEntry, .blockEnd]
      let v ← unlessAt stops (node fuel true false)
      return v :: (← entries fuel unindented)
    | .blockEnd => if unindented then return [] else advance; return []
    | _ => if unindented then return [] else fail

/-- The pairs of a block mapping. -/
def pairs : (fuel : Nat) → Reader (List (Value × Value))
  | 0 => fail
  | fuel + 1 => do
    match ← peek with
    | .key =>
      advance
      let stops := [.key, .value, .blockEnd]
      let k ← unlessAt stops (node fuel true true)
      match ← peek with
      | .value =>
        advance
        let v ← unlessAt stops (node fuel true true)
        return (k, v) :: (← pairs fuel)
      | _ => return (k, absent) :: (← pairs fuel)
    | .blockEnd => advance; return []
    | _ => fail

/-- What follows a key in a flow collection. -/
def flowValue : (fuel : Nat) → (close : Token) → Reader Value
  | 0, _ => fail
  | fuel + 1, close => do
    match ← peek with
    | .value => advance; unlessAt [.flowEntry, close] (node fuel false false)
    | _ => return absent

/-- The items of a flow sequence; a pair among them is a mapping of its own. -/
def flowItems : (fuel : Nat) → (first : Bool) → Reader (List Value)
  | 0, _ => fail
  | fuel + 1, first => do
    match ← peek with
    | .closeSequence => advance; return []
    | t =>
      if !first then
        if t = .flowEntry then advance else fail
      match ← peek with
      | .closeSequence => advance; return []
      | .key =>
        advance
        let k ← unlessAt [.value, .flowEntry, .closeSequence] (node fuel false false)
        let v ← flowValue fuel .closeSequence
        return .mapping [(k, v)] :: (← flowItems fuel false)
      | _ =>
        let v ← node fuel false false
        return v :: (← flowItems fuel false)

/-- The pairs of a flow mapping; a value alone is a key. -/
def flowPairs : (fuel : Nat) → (first : Bool) → Reader (List (Value × Value))
  | 0, _ => fail
  | fuel + 1, first => do
    match ← peek with
    | .closeMapping => advance; return []
    | t =>
      if !first then
        if t = .flowEntry then advance else fail
      match ← peek with
      | .closeMapping => advance; return []
      | .key =>
        advance
        let k ← unlessAt [.value, .flowEntry, .closeMapping] (node fuel false false)
        let v ← flowValue fuel .closeMapping
        return (k, v) :: (← flowPairs fuel false)
      | _ =>
        let k ← node fuel false false
        return (k, absent) :: (← flowPairs fuel false)

end

/-- Pass over directives. -/
def skipDirectives : (fuel : Nat) → Reader Unit
  | 0 => fail
  | fuel + 1 => do
    match ← peek with
    | .directive => advance; skipDirectives fuel
    | _ => return ()

/-- Read the first document; a text may have none. -/
def document (fuel : Nat) : Reader (Option Value) := do
  match ← peek with
  | .streamEnd => return none
  | t =>
    if t = .directive || t = .documentStart then
      skipDirectives fuel
      if (← peek) = .documentStart then advance else fail
    let explicit := t = .directive || t = .documentStart
    let stops := if explicit then [.directive, .documentStart, .documentEnd, .streamEnd] else []
    let v ← unlessAt stops (node fuel true false)
    let _ ← peek
    return some v

/-- The first document of a text: `none` if the text is faulty, `some none` if there is none. -/
def read? (text : String) : Option (Option Value) :=
  let ts := tokens text
  ((document (4 * ts.length + 16)).run ⟨ts, []⟩).map (·.1)

end Value

end Scaffold.Yaml
