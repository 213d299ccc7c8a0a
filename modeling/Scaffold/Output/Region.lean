import Scaffold.Text.Quoted
import Scaffold.Text.Search

/-! # Custom regions

A generated file may hold regions that belong to its reader. A region lies between a begin and an
end marker, each in a comment line of its own. When a file is generated again the bodies of its
regions are kept, and a region that the new text no longer has is kept at the end of the file. -/
namespace Scaffold.Output

open Scaffold.Text (quoted cut? lines closeLine endsWith isBlank)

def beginMarker : String := "stalmer:custom:begin"

def endMarker : String := "stalmer:custom:end"

def orphanMarker : String := "stalmer:custom:orphaned"

/-- A region with a default body. -/
def region (comment id body : String) : String :=
  comment ++ " " ++ beginMarker ++ " " ++ id ++ "\n" ++
    (if body = "" then "" else closeLine body) ++
    comment ++ " " ++ endMarker ++ " " ++ id ++ "\n"

/-- A region of a text: the lines of its markers, what stands before the begin marker, and the
lines between. -/
structure Region where
  id : String
  lead : String
  opening : String
  body : List String
  closing : String
  deriving DecidableEq, Repr

/-- A text is a sequence of plain lines and regions. -/
inductive Chunk
  | line (text : String)
  | region (r : Region)
  deriving DecidableEq, Repr

inductive RegionError
  | strayEnd (line : Nat) (id : String)
  | declaredTwice (line : Nat) (id : String)
  | nested (line : Nat) (inner outer : String)
  | closedBy (line : Nat) (id other : String)
  | unterminated (line : Nat) (id : String)
  deriving DecidableEq, Repr

def RegionError.message : RegionError → String
  | strayEnd line id => s!"line {line}: end of custom region {quoted id} without begin"
  | declaredTwice line id => s!"line {line}: custom region {quoted id} declared twice"
  | nested line inner outer =>
    s!"line {line}: custom region {quoted inner} opened inside {quoted outer}"
  | closedBy line id other => s!"line {line}: custom region {quoted id} closed by {quoted other}"
  | unterminated line id => s!"line {line}: custom region {quoted id} is not terminated"

/-- The text before a marker in a line, and the word after it. -/
def marker? (marker line : String) : Option (String × String) := do
  let (before, rest) ← cut? (marker.toList ++ [' ']) line.toList
  let word := (rest.dropWhile isBlank).takeWhile fun c => !isBlank c
  if word.isEmpty then none else some (String.ofList before, String.ofList word)

/-- A region whose end is still to come, and the number of its first line. -/
structure OpenRegion where
  id : String
  lead : String
  opening : String
  line : Nat
  /-- Lines of the body, the last first. -/
  body : List String
  deriving DecidableEq, Repr

/-- Read the lines from number `n` on. -/
def chunksFrom (seen : List String) :
    Option OpenRegion → (n : Nat) → List String → Except RegionError (List Chunk)
  | none, _, [] => .ok []
  | some o, _, [] => .error (.unterminated o.line o.id)
  | none, n, l :: ls =>
    match marker? beginMarker l with
    | some (lead, id) =>
      if seen.contains id then .error (.declaredTwice n id)
      else chunksFrom (id :: seen) (some ⟨id, lead, l, n, []⟩) (n + 1) ls
    | none =>
      match marker? endMarker l with
      | some (_, id) => .error (.strayEnd n id)
      | none => do
        let rest ← chunksFrom seen none (n + 1) ls
        .ok (.line l :: rest)
  | some o, n, l :: ls =>
    match marker? beginMarker l with
    | some (_, inner) => .error (.nested n inner o.id)
    | none =>
      match marker? endMarker l with
      | some (_, id) =>
        if id = o.id then do
          let rest ← chunksFrom seen none (n + 1) ls
          .ok (.region ⟨o.id, o.lead, o.opening, o.body.reverse, l⟩ :: rest)
        else .error (.closedBy n o.id id)
      | none => chunksFrom seen (some { o with body := l :: o.body }) (n + 1) ls

def parseChunks (text : String) : Except RegionError (List Chunk) :=
  chunksFrom [] none 1 (lines text)

def regionsOf (chunks : List Chunk) : List Region :=
  chunks.filterMap fun | .region r => some r | .line _ => none

/-- The regions of a text, in order. -/
def parseRegions (text : String) : Except RegionError (List Region) :=
  regionsOf <$> parseChunks text

def Region.text (r : Region) : String := r.opening ++ String.join r.body ++ r.closing

def Chunk.text : Chunk → String
  | line text => text
  | region r => r.text

/-- A chunk with the body that a region of the same name had before. -/
def Chunk.adopt (old : List Region) : Chunk → Chunk
  | line text => line text
  | region r =>
    match old.find? (·.id == r.id) with
    | some previous => region { r with body := previous.body }
    | none => region r

/-- A region that lost its place, under a line that says so. -/
def Region.orphan (r : Region) : String :=
  r.lead ++ orphanMarker ++ " " ++ r.id ++ "\n" ++ r.opening ++ String.join r.body ++
    closeLine r.closing

/-- Put a text after another on a line of its own. -/
def appendLine (text more : String) : String :=
  (if text = "" then text else closeLine text) ++ more

inductive MergeError
  | generated (e : RegionError)
  | existing (e : RegionError)
  deriving DecidableEq, Repr

def MergeError.message : MergeError → String
  | generated e => "generated output: " ++ e.message
  | existing e => "existing file: " ++ e.message

/-- The new text of a file: the fresh text with the bodies of the regions that the file had. -/
def mergeRegions (fresh : String) (existing : Option String) : Except MergeError String := do
  let chunks ← (parseChunks fresh).mapError .generated
  match existing with
  | none => .ok fresh
  | some text =>
    let old ← (parseRegions text).mapError .existing
    if old.isEmpty then .ok fresh
    else
      let kept := (regionsOf chunks).map (·.id)
      let orphans := old.filter fun r => !kept.contains r.id
      let merged := String.join (chunks.map fun c => (c.adopt old).text)
      .ok ((orphans.map Region.orphan).foldl appendLine merged)

end Scaffold.Output
