import Scaffold.Disk.Basic
import Scaffold.Text.Quoted
import Scaffold.Yaml.Decode

/-! # Role catalogs

A directory of role catalogs adds roles to those that a source knows. Each catalog is a YAML file
with a name and items; without a name it has that of its file. -/
namespace Scaffold.Roles

open Scaffold.Text (quoted trim)
open Scaffold.Yaml (Value)

structure Item where
  code : String
  name : String
  order : Int
  deriving DecidableEq, Repr

structure Catalog where
  name : String
  items : List Item
  deriving DecidableEq, Repr

inductive CatalogError
  | unreadable (e : Disk.Failure)
  | directory (e : Disk.Failure)
  | malformed (path : String)
  | duplicate (path name : String)
  | badCode (path : String) (item : Nat) (code : String)
  deriving DecidableEq, Repr

def CatalogError.message : CatalogError → String
  | unreadable e => e.message
  | directory e => "read roles dir: " ++ e.message
  | malformed path => path ++ ": yaml"
  | duplicate path name => path ++ ": catalog " ++ quoted name ++ " already loaded"
  | badCode path item code =>
    path ++ ": item " ++ toString item ++ ": role code " ++ quoted code ++ " must be UPPER_SNAKE"

/-- Role codes are upper-case letters, digits and underscores after a first letter. -/
def isRoleCode (code : String) : Bool :=
  match code.toList with
  | [] => false
  | c :: cs => c.isUpper && cs.all fun c => c.isUpper || c.isDigit || c = '_'

/-- Set the members that a reader knows; others are passed over. -/
def setMembers {α : Type} (set : α → String × Value → Option α) (start : α) (v : Value) :
    Option (Option α) := do
  match ← v.members? with
  | none => some none
  | some ms => (ms.foldlM set start).map some

def setItem (i : Item) : String × Value → Option Item
  | ("code", v) => v.text?.map fun x => { i with code := x.getD i.code }
  | ("name", v) => v.text?.map fun x => { i with name := x.getD i.name }
  | ("order", v) => v.int?.map fun x => { i with order := x.getD i.order }
  | _ => some i

def item? : Value → Option (Option Item) := setMembers setItem ⟨"", "", 0⟩

def setCatalog (c : Catalog) : String × Value → Option Catalog
  | ("name", v) => v.text?.map fun x => { c with name := x.getD c.name }
  | ("items", v) => (Value.list? item? v).map fun x => { c with items := x.getD [] }
  | _ => some c

/-- The catalog that a text describes; an empty text is an empty catalog. -/
def catalog? (text : String) : Option Catalog := do
  match ← Value.read? text with
  | none => some ⟨"", []⟩
  | some v => (setMembers setCatalog ⟨"", []⟩ v).map (·.getD ⟨"", []⟩)

/-- Catalogs by the name they go by. -/
abbrev Catalogs := List (String × Catalog)

def isCatalogFile (name : String) : Bool :=
  Disk.extension name = ".yaml" || Disk.extension name = ".yml"

/-- Add the catalog of a file. -/
def addCatalog (disk : Disk) (dir : String) (known : Catalogs) (file : String) :
    Except CatalogError Catalogs := do
  let path := Disk.join [dir, file]
  let text ← (disk.read path).mapError .unreadable
  match catalog? text with
  | none => .error (.malformed path)
  | some c =>
    let name := if c.name = "" then Disk.stem file else c.name
    if (known.lookup name).isSome then .error (.duplicate path name)
    else match c.items.zipIdx.find? fun (i, _) => !isRoleCode i.code with
      | some (i, n) => .error (.badCode path n i.code)
      | none => .ok (known ++ [(name, c)])

/-- The catalogs of a directory, in the order of their files. -/
def loadCatalogs (disk : Disk) (dir : String) : Except CatalogError Catalogs := do
  let entries ← (disk.list dir).mapError .directory
  let files := entries.filterMap fun (name, e) =>
    match e with
    | .file _ => if isCatalogFile name then some name else none
    | .directory => none
  files.foldlM (addCatalog disk dir) []

/-- The codes of all catalogs, sorted, each once. -/
def codes (cs : Catalogs) : List String :=
  ((cs.flatMap fun (_, c) => c.items.map (·.code)).mergeSort fun a b => decide (a ≤ b)).eraseDups

/-- The roles of a directory; a blank name means no directory. -/
def loadRoles (disk : Disk) (dir : String) : Except CatalogError (List String) :=
  if trim dir = "" then .ok [] else (loadCatalogs disk dir).map codes

end Scaffold.Roles
