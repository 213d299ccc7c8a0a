import Scaffold.Disk.Path

/-! # A disk

Files and directories by the segments of their path. A directory is an entry of its own; where paths
start is always there. -/
namespace Scaffold

/-- Where something is kept: segments from the working directory on, with `..` for each directory
that is left above it, or segments behind an empty one from the root of all on. -/
abbrev Location := List String

inductive Disk.Entry
  | file (content : String)
  | directory
  deriving DecidableEq, Repr

structure Disk where
  entries : List (Location × Disk.Entry)
  deriving DecidableEq, Repr

namespace Disk

def empty : Disk := ⟨[]⟩

/-- Why a path cannot be used. -/
inductive Trouble
  | missing
  | notDirectory
  | isDirectory
  deriving DecidableEq, Repr

def Trouble.text : Trouble → String
  | missing => "no such file or directory"
  | notDirectory => "not a directory"
  | isDirectory => "is a directory"

/-- A failed step on a path. -/
structure Failure where
  step : String
  path : String
  trouble : Trouble
  deriving DecidableEq, Repr

def Failure.message (f : Failure) : String := f.step ++ " " ++ f.path ++ ": " ++ f.trouble.text

/-- Whether a location is the working directory, one above it, or the root of all. -/
def isAnchor (l : Location) : Bool := l = [""] || l.all (· == "..")

def get? (d : Disk) (l : Location) : Option Entry :=
  if isAnchor l then some .directory else d.entries.lookup l

/-- The location of the directory that holds one. -/
def above (l : Location) : Location :=
  if l = [""] then l else if l.all (· == "..") then l ++ [".."] else l.dropLast

/-- The entries without the one at a location. -/
def without (l : Location) (entries : List (Location × Entry)) : List (Location × Entry) :=
  entries.filter (·.1 ≠ l)

def put (d : Disk) (l : Location) (e : Entry) : Disk :=
  ⟨without l d.entries ++ [(l, e)]⟩

/-- Make a directory unless something is there. -/
def makeDirectory (d : Disk) (l : Location) : Disk :=
  if (d.get? l).isSome then d else d.put l .directory

/-- The locations above one, the outermost first. -/
def parents (l : Location) : List Location :=
  (List.range (l.length - 1)).map fun n => l.take (n + 1)

/-- Write a file and the directories above it. -/
def write (d : Disk) (l : Location) (content : String) : Disk :=
  ((parents l).foldl makeDirectory d).put l (.file content)

/-- Make a directory and those above it. -/
def makeDirectories (d : Disk) (l : Location) : Disk :=
  (parents l ++ [l]).foldl makeDirectory d

/-- Remove what is at a location and below it. -/
def remove (d : Disk) (l : Location) : Disk :=
  ⟨d.entries.filter fun (k, _) => k.take l.length ≠ l⟩

/-- Follow segments from a location. All but the last must be directories. -/
def follow (d : Disk) : Location → List String → Except Trouble Location
  | here, [] => .ok here
  | here, s :: rest =>
    match d.get? here with
    | none => .error .missing
    | some (.file _) => .error .notDirectory
    | some .directory =>
      if s = "" || s = "." then follow d here rest
      else if s = ".." then follow d (above here) rest
      else follow d (here ++ [s]) rest

/-- Where a path starts. -/
def origin (path : String) : Location := if isAbsolute path then [""] else []

/-- The location that a path names. -/
def locate (d : Disk) (path : String) : Except Trouble Location :=
  if path = "" then .error .missing else d.follow (origin path) (segments path)

/-- What a path names. -/
def find (d : Disk) (path : String) : Except Trouble Entry := do
  let l ← d.locate path
  match d.get? l with
  | some e => .ok e
  | none => .error .missing

def stat (d : Disk) (path : String) : Except Failure Entry :=
  (d.find path).mapError (⟨"stat", path, ·⟩)

def read (d : Disk) (path : String) : Except Failure String :=
  match d.find path with
  | .ok (.file content) => .ok content
  | .ok .directory => .error ⟨"read", path, .isDirectory⟩
  | .error t => .error ⟨"open", path, t⟩

/-- The names in a directory with their entries, sorted. -/
def children (d : Disk) (l : Location) : List (String × Entry) :=
  (d.entries.filterMap fun (k, e) =>
    match k.reverse with
    | name :: above => if above.reverse = l then some (name, e) else none
    | [] => none).mergeSort fun a b => decide (a.1 ≤ b.1)

def list (d : Disk) (path : String) : Except Failure (List (String × Entry)) :=
  match d.locate path with
  | .error t => .error ⟨"open", path, t⟩
  | .ok l =>
    match d.get? l with
    | some .directory => .ok (d.children l)
    | some (.file _) => .error ⟨"open", path, .notDirectory⟩
    | none => .error ⟨"open", path, .missing⟩

/-- The files below a location by path, sorted. -/
def filesBelow (d : Disk) (l : Location) : List String :=
  (d.entries.filterMap fun (k, e) =>
    match e with
    | .file _ => if k.take l.length = l then some ("/".intercalate (k.drop l.length)) else none
    | .directory => none).mergeSort fun a b => decide (a ≤ b)

end Disk

end Scaffold
