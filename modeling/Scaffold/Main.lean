import Scaffold.Cli.Run

/-! # The program

Reads the working directory and the environment, runs the arguments, and writes back what changed. -/
namespace Scaffold

/-- Take over the entries of a directory. A file that is not text is kept as an empty one. -/
partial def readEntries (disk : Disk) (l : Location) (entries : Array IO.FS.DirEntry) : IO Disk := do
  let mut disk := disk
  for e in entries do
    let here := l ++ [e.fileName]
    if ← e.path.isDir then
      disk ← readEntries (disk.makeDirectories here) here (← e.path.readDir)
    else
      let bytes ← IO.FS.readBinFile e.path
      disk := disk.write here ((String.fromUTF8? bytes).getD "")
  return disk

/-- Write the entries that are new or changed. -/
def writeChanges (old new : Disk) : IO Unit := do
  for (l, e) in new.entries do
    if old.get? l != some e then
      let path := "/".intercalate l
      match e with
      | .directory => IO.FS.createDirAll path
      | .file content =>
        if l.length > 1 then IO.FS.createDirAll ("/".intercalate l.dropLast)
        IO.FS.writeFile path content

def readEnvironment : IO Settings.Environment :=
  Settings.environmentNames.filterMapM fun name => do
    return (← IO.getEnv name).map (name, ·)

/-- A name that no other run has. -/
def newRunName : IO String := do
  return String.ofList (Nat.toDigits 16 (← IO.rand 1000000000000 999999999999999999))

end Scaffold

open Scaffold in
def main (args : List String) : IO UInt32 := do
  let disk ← readEntries .empty [] (← (← IO.currentDir).readDir)
  let (outcome, _) := Cli.run (← newRunName) disk (← readEnvironment) args
  IO.print outcome.output
  writeChanges disk outcome.disk
  if outcome.message ≠ "" then IO.eprintln outcome.message
  return outcome.code.toUInt32
