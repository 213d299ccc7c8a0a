import Scaffold.Json.Reader
import Scaffold.Rest.Schema

/-! # Reading a schema

A schema is read from its JSON. What is missing or null is left as it was, a member that no one
knows is passed over, and a member is found by its name or else by its name in any case. When a
member occurs twice the second is read onto the first. -/
namespace Scaffold.Rest

open Scaffold.Model (TypeKind)

/-- Reads a value onto what is known so far. -/
abbrev Onto (α : Type) := α → Json → Option α

def readString : Onto String
  | old, .null => some old
  | _, .string text => some text
  | _, _ => none

def readFlag : Onto Bool
  | old, .null => some old
  | _, .bool flag => some flag
  | _, _ => none

def readKind : Onto TypeKind
  | old, j => (readString old.name j).map TypeKind.ofName

def readItems {α : Type} (item : Onto α) (fresh : α) : List α → List Json → Option (List α)
  | _, [] => some []
  | old, x :: xs => do
    let y ← item (old.headD fresh) x
    let ys ← readItems item fresh old.tail xs
    some (y :: ys)

def readList {α : Type} (item : Onto α) (fresh : α) : Onto (List α)
  | _, .null => some []
  | old, .array xs => readItems item fresh old xs
  | _, _ => none

/-- A letter in the case that names are compared in. -/
def foldChar (c : Char) : Char :=
  if c.toNat = 0x17F then 'S' else if c.toNat = 0x212A then 'K' else c.toUpper

def foldName (s : String) : String := s.map foldChar

/-- The reader of a member. -/
def memberReader? {α : Type} (readers : List (String × Onto α)) (key : String) :
    Option (Onto α) :=
  (readers.lookup key).or
    ((readers.find? fun r => foldName r.1 == foldName key).map (·.2))

def readRecord {α : Type} (readers : List (String × Onto α)) : Onto α
  | old, .null => some old
  | old, .object members => members.foldlM (fun r (key, x) =>
      match memberReader? readers key with
      | some read => read r x
      | none => some r) old
  | _, _ => none

def readField : Onto ResourceField := readRecord
  [("name", fun f j => (readString f.name j).map fun x => { f with name := x }),
    ("type", fun f j => (readKind f.type j).map fun x => { f with type := x }),
    ("ref", fun f j => (readString f.ref j).map fun x => { f with ref := x }),
    ("list", fun f j => (readFlag f.list j).map fun x => { f with list := x }),
    ("optional", fun f j => (readFlag f.optional j).map fun x => { f with optional := x }),
    ("unique", fun f j => (readFlag f.unique j).map fun x => { f with unique := x }),
    ("readOnly", fun f j => (readFlag f.readOnly j).map fun x => { f with readOnly := x }),
    ("writeOnly", fun f j => (readFlag f.writeOnly j).map fun x => { f with writeOnly := x }),
    ("cardinality", fun f j =>
      (readString f.cardinality j).map fun x => { f with cardinality := x }),
    ("relation", fun f j => (readString f.relation j).map fun x => { f with relation := x })]

def emptyField : ResourceField :=
  ⟨"", .none, "", false, false, false, false, false, "", ""⟩

def readOperation : Onto Operation := readRecord
  [("id", fun o j => (readString o.id j).map fun x => { o with id := x }),
    ("method", fun o j => (readString o.method j).map fun x => { o with method := x }),
    ("path", fun o j => (readString o.path j).map fun x => { o with path := x })]

def readResource : Onto Resource := readRecord
  [("name", fun r j => (readString r.name j).map fun x => { r with name := x }),
    ("path", fun r j => (readString r.path j).map fun x => { r with path := x }),
    ("primaryKey", fun r j => (readString r.primaryKey j).map fun x => { r with primaryKey := x }),
    ("fields", fun r j =>
      (readList readField emptyField r.fields j).map fun x => { r with fields := x }),
    ("operations", fun r j =>
      (readList readOperation ⟨"", "", ""⟩ r.operations j).map fun x =>
        { r with operations := x })]

def readView : Onto ViewRoute := readRecord
  [("name", fun v j => (readString v.name j).map fun x => { v with name := x }),
    ("path", fun v j => (readString v.path j).map fun x => { v with path := x }),
    ("source", fun v j => (readString v.source j).map fun x => { v with source := x }),
    ("fields", fun v j =>
      (readList readField emptyField v.fields j).map fun x => { v with fields := x })]

def readPage : Onto PageAccess := readRecord
  [("name", fun p j => (readString p.name j).map fun x => { p with name := x }),
    ("type", fun p j => (readString p.kind j).map fun x => { p with kind := x }),
    ("route", fun p j => (readString p.route j).map fun x => { p with route := x }),
    ("title", fun p j => (readString p.title j).map fun x => { p with title := x }),
    ("entity", fun p j => (readString p.entity j).map fun x => { p with entity := x }),
    ("resource", fun p j => (readString p.resource j).map fun x => { p with resource := x }),
    ("permissions", fun p j =>
      (readList readString "" p.permissions j).map fun x => { p with permissions := x }),
    ("columns", fun p j =>
      (readList readString "" p.columns j).map fun x => { p with columns := x }),
    ("fields", fun p j => (readList readString "" p.fields j).map fun x => { p with fields := x }),
    ("component", fun p j => (readString p.component j).map fun x => { p with component := x })]

def emptyPage : PageAccess := ⟨"", "", "", "", "", "", [], [], [], ""⟩

def readWorkflow : Onto WorkflowRef := readRecord
  [("name", fun w j => (readString w.name j).map fun x => { w with name := x }),
    ("event", fun w j => (readString w.event j).map fun x => { w with event := x }),
    ("handler", fun w j => (readString w.handler j).map fun x => { w with handler := x })]

def readSchema : Onto Schema := readRecord
  [("name", fun s j => (readString s.name j).map fun x => { s with name := x }),
    ("database", fun s j => (readString s.database j).map fun x => { s with database := x }),
    ("auth", fun s j => (readString s.auth j).map fun x => { s with auth := x }),
    ("resources", fun s j =>
      (readList readResource ⟨"", "", "", [], []⟩ s.resources j).map fun x =>
        { s with resources := x }),
    ("views", fun s j =>
      (readList readView ⟨"", "", "", []⟩ s.views j).map fun x => { s with views := x }),
    ("pages", fun s j => (readList readPage emptyPage s.pages j).map fun x => { s with pages := x }),
    ("workflows", fun s j =>
      (readList readWorkflow ⟨"", "", ""⟩ s.workflows j).map fun x => { s with workflows := x })]

def emptySchema : Schema := ⟨"", "", "", [], [], [], []⟩

/-- The schema that a text spells. -/
def Schema.ofText? (text : String) : Option Schema := do
  readSchema emptySchema (← Json.read? text)

end Scaffold.Rest
