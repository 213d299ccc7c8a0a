import Scaffold.Disk.Basic
import Scaffold.Source.Parser
import Scaffold.Text.Case

/-! # Loading sources

A source is a file, or a directory with all source files below it, which are read in the order of
their paths and merged. -/
namespace Scaffold.Source

inductive LoadError
  | unreadable (e : Disk.Failure)
  | noSources (root : String)
  | source (e : SourceError)
  deriving Repr

def LoadError.message : LoadError → String
  | unreadable e => e.message
  | noSources root => "no .dsl files under " ++ root
  | source e => e.message

def isSourcePath (path : String) : Bool := Text.equalFold (Disk.extension (Disk.base path)) ".dsl"

def loadFile (disk : Disk) (path : String) : Except LoadError File := do
  let text ← (disk.read path).mapError .unreadable
  (parseSource path (Text.runes text)).mapError .source

/-- The source files below a directory, sorted. -/
def sourcePaths (disk : Disk) (root : String) (l : Location) : List String :=
  (((disk.filesBelow l).map fun p => Disk.join [root, p]).filter isSourcePath).mergeSort
    fun a b => decide (a ≤ b)

def loadDirectory (disk : Disk) (root : String) : Except LoadError File :=
  match (disk.locate root).toOption.map (sourcePaths disk root) with
  | none => .error (.noSources root)
  | some [] => .error (.noSources root)
  | some paths => do
    let files ← paths.mapM (loadFile disk)
    .ok (File.merge files)

/-- Load a file or a directory. -/
def load (disk : Disk) (path : String) : Except LoadError File := do
  match ← (disk.stat path).mapError .unreadable with
  | .directory => loadDirectory disk path
  | .file _ => loadFile disk path

end Scaffold.Source
