import Scaffold.Disk.Basic
import Scaffold.Model.Type
import Scaffold.Storage.Script
import Scaffold.Text.Case
import Scaffold.Text.Quoted

/-! # Applying a schema

The statements of a script are run against a database in one transaction: the first statement that
is rejected undoes all. A database in a file is created when it is opened. -/
namespace Scaffold.Migrate

open Scaffold.Model
open Scaffold.Text

/-- How many statements ran, and how many were there already. -/
structure Applied where
  applied : Nat
  skipped : Nat
  deriving DecidableEq, Repr

inductive ApplyError
  | unsupported (database : String)
  | pathRequired
  | cannotOpen
  | unreachable
  | rejected (statement : Nat)
  | late
  deriving DecidableEq, Repr

def ApplyError.message : ApplyError → String
  | unsupported database => "unsupported database " ++ quoted database
  | pathRequired => "sqlite path required"
  | cannotOpen => "ping sqlite: unable to open database file: out of memory (14)"
  | unreachable => "ping postgresql: failed to connect"
  | rejected statement => "DDL apply failed: statement " ++ toString statement
  | late => "ping sqlite: context deadline exceeded"

/-- The statements that a database takes: those that create or insert, and the empty one. -/
def isAccepted (statement : String) : Bool :=
  ["create", "insert", ";"].any fun start => startsWith (downcase statement) start

/-- The file of a database: a path, or an address that starts with `file:` and may end with
options. -/
def databaseFile (address : String) : String :=
  let path := match after? "file:".toList address.toList with
    | some rest => rest
    | none => address.toList
  String.ofList (path.takeWhile fun c => c ≠ '?' && c ≠ '#')

/-- Whether a database is kept in memory only. -/
def isVolatile (address : String) : Bool :=
  startsWith address "file:" &&
    ((cut? "mode=memory".toList address.toList).isSome || databaseFile address = ":memory:")

/-- Open a database file; it is there afterwards. -/
def openFile (disk : Disk) (address : String) : Except ApplyError Disk :=
  let path := databaseFile address
  if isVolatile address || Disk.isAbsolute path then .ok disk
  else match disk.locate (Disk.clean path) with
    | .error _ => .error .cannotOpen
    | .ok l =>
      match disk.get? l with
      | some .directory => .error .cannotOpen
      | some (.file _) => .ok disk
      | none =>
        match disk.get? l.dropLast with
        | some .directory => .ok (disk.write l "")
        | _ => .error .cannotOpen

/-- Whether a file holds something else than a database. A new database is an empty file. -/
def isForeign (disk : Disk) (address : String) : Bool :=
  match disk.read (Disk.clean (databaseFile address)) with
  | .ok content => content ≠ ""
  | .error _ => false

/-- Run statements in order, or find the first one that is rejected, counted from one. In a file
that is no database only empty statements can run. -/
def runStatements (foreign : Bool) (statements : List String) : Except ApplyError Applied :=
  match statements.findIdx? fun s => !isAccepted s || foreign && !startsWith s ";" with
  | some n => .error (.rejected (n + 1))
  | none => .ok ⟨statements.length, 0⟩

/-- Apply a script to a database. The disk may have changed also when that fails. -/
def apply (disk : Disk) (db : Database) (address script : String) :
    Except ApplyError Applied × Disk :=
  match db with
  | .postgresql => (.error .unreachable, disk)
  | .sqlite =>
    let address := trim address
    if address = "" then (.error .pathRequired, disk)
    else match openFile disk address with
      | .error e => (.error e, disk)
      | .ok disk => (runStatements (isForeign disk address) (Storage.statements script), disk)

/-- The time it takes to open a database, in nanoseconds. A shorter limit is over before. -/
def openTime : Nat := 100000

/-- Apply a script within a time limit in nanoseconds; one that is not positive does not count. -/
def applyWithin (limit : Int) (disk : Disk) (db : Database) (address script : String) :
    Except ApplyError Applied × Disk :=
  if db = .sqlite && trim address ≠ "" && 0 < limit && limit < openTime then (.error .late, disk)
  else apply disk db address script

/-- The same, with the database given by its name. -/
def applyFor (disk : Disk) (database address script : String) :
    Except ApplyError Applied × Disk :=
  match Database.ofName? database with
  | some db => apply disk db address script
  | none => (.error (.unsupported database), disk)

end Scaffold.Migrate
