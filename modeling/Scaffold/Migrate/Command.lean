import Scaffold.Log.Line
import Scaffold.Migrate.Program

/-! # Migration commands

A migration may be left to a program. Its output goes to the log line by line, and it has to end
within a time limit. -/
namespace Scaffold.Migrate

open Scaffold.Shell (Stream Behaviour Place program?)
open Scaffold.Text

/-- Why a program did not succeed. -/
inductive RunTrouble
  | notFound
  | noCommand
  | noDirectory (e : Disk.Failure)
  | cannotStart (path : String) (t : Disk.Trouble)
  | status (code : Nat)
  | late
  deriving DecidableEq, Repr

inductive CommandError
  | empty
  | failed (command : String) (trouble : RunTrouble)
  deriving DecidableEq, Repr

def RunTrouble.message (command : String) : RunTrouble → String
  | notFound => "exec: " ++ quoted command ++ ": executable file not found in $PATH"
  | noCommand => "exec: no command"
  | noDirectory e => e.message
  | cannotStart path t => "fork/exec " ++ path ++ ": " ++ t.text
  | status code => "exit status " ++ toString code
  | late => "context deadline exceeded"

def CommandError.message : CommandError → String
  | empty => "migration command is empty"
  | failed command trouble => "migration command " ++ command ++ ": " ++ trouble.message command

/-- The time it takes to start a program, in nanoseconds. A shorter limit is over before. -/
def startTime : Nat := 100000

/-- The actions until a time limit, and whether the limit came first. No limit is not positive. -/
def within (limit : Int) : (elapsed : Nat) → List Shell.Action → List (Stream × String) × Bool
  | _, [] => ([], false)
  | elapsed, .write s text :: rest =>
    let (written, late) := within limit elapsed rest
    ((s, text) :: written, late)
  | elapsed, .wait t :: rest =>
    if 0 < limit && limit ≤ ((elapsed + t : Nat) : Int) then ([], true)
    else within limit (elapsed + t) rest

/-- Cut text into complete lines and what is left. -/
def completeLines (text : String) : List String × String :=
  match (split '\n' text).reverse with
  | [] => ([], "")
  | tail :: done => (done.reverse, tail)

/-- The lines of output in the order in which they are completed. What is left of each stream at
the end is a line too. -/
def linesOf : (output errors : String) → List (Stream × String) → List (Stream × String)
  | output, errors, [] => [(.output, output), (.errors, errors)]
  | output, errors, (.output, text) :: rest =>
    let (done, tail) := completeLines (output ++ text)
    done.map (.output, ·) ++ linesOf tail errors rest
  | output, errors, (.errors, text) :: rest =>
    let (done, tail) := completeLines (errors ++ text)
    done.map (.errors, ·) ++ linesOf output tail rest

/-- A line without the carriage returns at its end. -/
def withoutReturns (s : String) : String :=
  String.ofList (s.toList.reverse.dropWhile (· = '\r')).reverse

def streamEntry (common : List (String × String)) (s : Stream) (line : String) : Log.Entry :=
  match s with
  | .output => ⟨.info, line, common ++ [("stream", "stdout")]⟩
  | .errors => ⟨.warn, line, common ++ [("stream", "stderr")]⟩

/-- What the log says of the output of a program. Blank lines are left out. -/
def outputEntries (common : List (String × String)) (written : List (Stream × String)) :
    List Log.Entry :=
  ((linesOf "" "" written).map fun (s, line) => (s, withoutReturns line)).filterMap
    fun (s, line) => if line = "" then none else some (streamEntry common s line)

/-- Start a program in a directory; the empty text means the current one. -/
def start (disk : Disk) (directory : String) (command : List String) : Except RunTrouble Behaviour :=
  let name := command.headD ""
  let found := program? false (command.foldl (fun n word => n + word.length) 0) ⟨disk, directory⟩ command
  if name = "" then .error .noCommand
  else if !name.toList.contains '/' && found.isNone then .error .notFound
  else
    match if directory = "" then .ok .directory else disk.stat directory with
    | .error e => .error (.noDirectory { e with step := "chdir" })
    | .ok (.file _) =>
      .error (.cannotStart (if name.toList.contains '/' then name else "/usr/bin/" ++ name) .notDirectory)
    | .ok .directory =>
      match found with
      | some b => .ok b
      | none => .error (.cannotStart name .missing)

/-- What came of a command: its log, the disk, and an error if it failed. -/
structure CommandOutcome where
  log : List Log.Entry
  disk : Disk
  error : Option CommandError

/-- Run a command with a time limit in nanoseconds; a limit that is not positive does not count. -/
def runCommand (disk : Disk) (directory : String) (command : List String) (limit : Int) :
    CommandOutcome :=
  match command with
  | [] => ⟨[], disk, some .empty⟩
  | name :: args =>
    let common := [("component", "migrate"), ("command", name)]
    let opening : Log.Entry := ⟨.info, "Running migration command.",
      common ++ [("args", "[" ++ " ".intercalate args ++ "]"), ("dir", directory)]⟩
    let failed := fun log disk trouble =>
      (⟨opening :: log, disk, some (.failed name trouble)⟩ : CommandOutcome)
    if 0 < limit && limit < startTime then failed [] disk .late
    else match start disk directory command with
      | .error trouble => failed [] disk trouble
      | .ok b =>
        let (written, late) := within limit 0 b.actions
        let log := outputEntries common written
        if late then failed log b.disk .late
        else if b.code ≠ 0 then failed log b.disk (.status b.code)
        else ⟨opening :: log ++ [⟨.info, "Migration command finished.", common⟩], b.disk, none⟩

end Scaffold.Migrate
