import Scaffold.Text.Search

/-! # Paths

A path is a text of segments with slashes between them. -/
namespace Scaffold.Disk

open Scaffold.Text (split)

def segments (path : String) : List String := split '/' path

def isAbsolute (path : String) : Bool := path.startsWith "/"

/-- Segments without `.`, empty ones, and `..` after a segment that it cancels. `done` holds what
is kept so far, the last first. -/
def cleanSegments (rooted : Bool) : (done : List String) → List String → List String
  | done, [] => done.reverse
  | done, s :: rest =>
    if s = "" || s = "." then cleanSegments rooted done rest
    else if s = ".." then
      match done with
      | [] => cleanSegments rooted (if rooted then [] else [".."]) rest
      | last :: before =>
        if last = ".." then cleanSegments rooted (".." :: done) rest
        else cleanSegments rooted before rest
    else cleanSegments rooted (s :: done) rest

/-- The shortest path that means the same. -/
def clean (path : String) : String :=
  let rooted := isAbsolute path
  match cleanSegments rooted [] (segments path), rooted with
  | [], true => "/"
  | [], false => "."
  | kept, true => "/" ++ "/".intercalate kept
  | kept, false => "/".intercalate kept

/-- Paths one below the other; empty ones are left out. -/
def join (paths : List String) : String :=
  match paths.filter (· ≠ "") with
  | [] => ""
  | kept => clean ("/".intercalate kept)

/-- The last segment of a path. -/
def base (path : String) : String :=
  if path = "" then "."
  else match ((segments path).filter (· ≠ "")).getLast? with
    | some last => last
    | none => "/"

/-- The extension of a name, from its last point on. -/
def extension (name : String) : String :=
  match name.toList.reverse.span fun c => c ≠ '.' && c ≠ '/' with
  | (tail, '.' :: _) => "." ++ String.ofList tail.reverse
  | _ => ""

/-- A name without its extension. -/
def stem (name : String) : String :=
  String.ofList (name.toList.take (name.length - (extension name).length))

end Scaffold.Disk
