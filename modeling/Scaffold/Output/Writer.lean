import Scaffold.Digest.Sha256
import Scaffold.Disk.Basic
import Scaffold.Output.Region
import Scaffold.Output.Tree

/-! # Writing trees

A tree is written below a directory in the order of its paths. Custom regions of the files that
are there already are kept, and a file that would not change is not written. The first file that
cannot be written ends the work. -/
namespace Scaffold.Output

open Scaffold.Text (quoted)

/-- Whether a path stays below the directory it is written to. -/
def isSafePath (p : String) : Bool :=
  p ≠ "" && !Disk.isAbsolute p && !p.toList.contains '\\' &&
    Disk.clean p = p && p ≠ "." && p ≠ ".." && !p.startsWith "../"

/-- A file of a finished tree and what it holds now. -/
structure Written where
  path : String
  content : String
  /-- Whether the file changed. -/
  changed : Bool
  deriving DecidableEq, Repr

def Written.size (w : Written) : Nat := w.content.utf8ByteSize

def Written.digest (w : Written) : String := Digest.sha256 w.content

inductive WriteError
  | invalidPath (path : String)
  | unreadable (path : String) (cause : Disk.Failure)
  | unmergeable (path : String) (cause : MergeError)
  deriving DecidableEq, Repr

def WriteError.message : WriteError → String
  | invalidPath path => "invalid output path " ++ quoted path
  | unreadable path cause => "read " ++ path ++ ": " ++ cause.message
  | unmergeable path cause => path ++ ": " ++ cause.message

/-- What is at a path already; nothing if there is no file. -/
def existing (disk : Disk) (path full : String) : Except WriteError (Option String) :=
  match disk.read full with
  | .ok text => .ok (some text)
  | .error ⟨_, _, .missing⟩ => .ok none
  | .error e => .error (.unreadable path e)

/-- The location of a path that need not exist. -/
def locationOf (path : String) : Location :=
  Disk.origin path ++ Disk.cleanSegments (Disk.isAbsolute path) [] (Disk.segments path)

/-- Write one file below `dir`. -/
def writeFile (disk : Disk) (dir path fresh : String) : Except WriteError (Written × Disk) :=
  if !isSafePath path then .error (.invalidPath path)
  else do
    let full := Disk.join [dir, path]
    let old ← existing disk path full
    let content ← (mergeRegions fresh old).mapError (.unmergeable path)
    if old = some content then .ok (⟨path, content, false⟩, disk)
    else .ok (⟨path, content, true⟩, disk.write (locationOf full) content)

/-- What became of a tree: the files that were finished, the disk, and the error that ended it. -/
structure WriteOutcome where
  files : List Written
  disk : Disk
  error : Option WriteError

def writeFiles (dir : String) : Disk → Tree → WriteOutcome
  | disk, [] => ⟨[], disk, none⟩
  | disk, (path, fresh) :: rest =>
    match writeFile disk dir path fresh with
    | .error e => ⟨[], disk, some e⟩
    | .ok (w, disk) =>
      let out := writeFiles dir disk rest
      { out with files := w :: out.files }

def writeTree (disk : Disk) (dir : String) (tree : Tree) : WriteOutcome :=
  writeFiles dir disk tree.sorted

end Scaffold.Output
