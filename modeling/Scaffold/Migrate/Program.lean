import Scaffold.Disk.Basic
import Scaffold.Migrate.Shell
import Scaffold.Number.Double
import Scaffold.Text.Digits

/-! # Programs

What the programs that a migration may call write, how long they wait and how they end. Nothing is
started: a program is a function of its words and the disk. -/
namespace Scaffold.Shell

open Scaffold.Text

inductive Action
  | write (stream : Stream) (text : String)
  | wait (nanoseconds : Nat)
  deriving DecidableEq, Repr

/-- What a program did: its actions in order, its exit status, and the disk it left. -/
structure Behaviour where
  actions : List Action
  code : Nat
  disk : Disk
  deriving DecidableEq, Repr

/-- Where a program runs. -/
structure Place where
  disk : Disk
  directory : String

def Place.path (p : Place) (name : String) : String := Disk.join [p.directory, name]

def Place.ends (p : Place) (code : Nat) : Behaviour := ⟨[], code, p.disk⟩

def Place.prints (p : Place) (text : String) : Behaviour := ⟨[.write .output text], 0, p.disk⟩

def Place.complains (p : Place) (text : String) (code : Nat) : Behaviour :=
  ⟨[.write .errors (text ++ "\n")], code, p.disk⟩

/-- The characters that backslashes stand for. -/
def unescape : List Char → List Char
  | '\\' :: 'n' :: cs => '\n' :: unescape cs
  | '\\' :: 't' :: cs => '\t' :: unescape cs
  | '\\' :: 'r' :: cs => '\r' :: unescape cs
  | '\\' :: '\\' :: cs => '\\' :: unescape cs
  | c :: cs => c :: unescape cs
  | [] => []

/-- Fill a format once; what is left of the arguments is given back. -/
def fill : List Char → List String → List Char × List String
  | '%' :: '%' :: cs, args => let (t, rest) := fill cs args; ('%' :: t, rest)
  | '%' :: c :: cs, args =>
    if c = 's' || c = 'd' || c = 'i' then
      let shown := match args.head? with
        | some a => a
        | none => if c = 's' then "" else "0"
      let (t, rest) := fill cs args.tail
      (shown.toList ++ t, rest)
    else let (t, rest) := fill cs args; ('%' :: c :: t, rest)
  | c :: cs, args => let (t, rest) := fill cs args; (c :: t, rest)
  | [], args => ([], args)

/-- Fill a format until the arguments are used up. -/
def fillAll : (fuel : Nat) → List Char → List String → List Char
  | 0, _, _ => []
  | fuel + 1, format, args =>
    match fill format args with
    | (t, rest) =>
      if rest.isEmpty || rest.length = args.length then t else t ++ fillAll fuel format rest

/-- Words on one line. Inside of a script backslashes stand for characters. -/
def echoText (inScript : Bool) (words : List String) : String :=
  let shown := fun (words : List String) =>
    let line := " ".intercalate words
    if inScript then String.ofList (unescape line.toList) else line
  match words with
  | "-n" :: words => shown words
  | words => shown words ++ "\n"

/-- How long a program sleeps for an argument such as `5` or `0.2`. -/
def sleepTime (arg : String) : Option Nat :=
  match split '.' arg with
  | [whole] => (digits? whole).map (· * 1000000000)
  | [whole, part] => do
    let w ← digits? (if whole = "" then "0" else whole)
    let p ← digits? (if part = "" then "0" else part)
    some (w * 1000000000 + p * 1000000000 / Number.power 10 part.length)
  | _ => none

/-- Make a file, or keep the one that is there. -/
def touch (p : Place) (name : String) : Place :=
  match p.disk.find (p.path name) with
  | .ok _ => p
  | .error _ => { p with disk := p.disk.write (Disk.segments (p.path name)) "" }

def readAll (p : Place) : List String → Behaviour
  | [] => p.ends 0
  | name :: rest =>
    let later := readAll p rest
    match p.disk.read (p.path name) with
    | .ok text => { later with actions := .write .output text :: later.actions }
    | .error _ => { later with
        actions := .write .errors ("cat: " ++ name ++ ": No such file or directory\n") :: later.actions
        code := 1 }

/-- Programs that need no shell. -/
def simple (inScript : Bool) (p : Place) : List String → Option Behaviour
  | "true" :: _ => some (p.ends 0)
  | ":" :: _ => if inScript then some (p.ends 0) else none
  | "false" :: _ => some (p.ends 1)
  | "echo" :: words => some (p.prints (echoText inScript words))
  | "printf" :: format :: args =>
    some (p.prints (String.ofList (fillAll (args.length + 1) (unescape format.toList) args)))
  | "pwd" :: _ => some (p.prints ("/" ++ p.directory ++ "\n"))
  | ["sleep", time] =>
    match sleepTime time with
    | some t => some ⟨[.wait t], 0, p.disk⟩
    | none => some (p.complains ("sleep: invalid time interval '" ++ time ++ "'") 1)
  | "touch" :: names => some ((names.foldl touch p).ends 0)
  | "cat" :: names => some (readAll p names)
  | _ => none

/-- Where a stream goes after redirections, taken from the left. -/
def routed (redirects : List (Stream × Target)) (s : Stream) : Target :=
  (redirects.foldl (fun (table : Stream → Target) (source, target) =>
    let goal := match target with
      | .stream t => table t
      | file => file
    fun x => if x = source then goal else table x) .stream) s

/-- Send text to a file. -/
def sendTo (p : Place) (path : String) (append : Bool) (text : String) : Place :=
  if path = "/dev/null" then p
  else
    let full := p.path path
    let old := if append then ((p.disk.read full).toOption).getD "" else ""
    { p with disk := p.disk.write (Disk.segments full) (old ++ text) }

/-- Apply redirections to what a command did. -/
def redirect (p : Place) (redirects : List (Stream × Target)) (b : Behaviour) : Behaviour :=
  let opened := redirects.foldl (fun p r => match r.2 with
    | .file path append => sendTo p path append ""
    | .stream _ => p) { p with disk := b.disk }
  let out := b.actions.foldl (fun (out : List Action × Place) action =>
    match action with
    | .wait t => (out.1 ++ [.wait t], out.2)
    | .write s text =>
      match routed redirects s with
      | .stream t => (out.1 ++ [.write t text], out.2)
      | .file path _ => (out.1, sendTo out.2 path true text)) ([], opened)
  ⟨out.1, b.code, out.2.disk⟩

/-- Run commands one after another; `run` runs one. The word `exit` ends the script. -/
def runCommands (run : Place → List String → Behaviour) (p : Place) :
    (code : Nat) → List Command → Behaviour
  | code, [] => p.ends code
  | code, c :: rest =>
    let due := match c.joint with
      | .always => true
      | .onSuccess => code == 0
      | .onFailure => code != 0
    if !due then runCommands run p code rest
    else match c.words with
      | "exit" :: args => p.ends (((args.head?.bind digits?).getD code) % 256)
      | words =>
        let b := redirect p c.redirects (if words.isEmpty then p.ends 0 else run p words)
        let later := runCommands run { p with disk := b.disk } b.code rest
        { later with actions := b.actions ++ later.actions }

/-- A program by its words; `none` if there is no such program. The fuel bounds how deep scripts
call the shell. -/
def program? (inScript : Bool) : (fuel : Nat) → Place → List String → Option Behaviour
  | fuel, p, words =>
    match words with
    | "sh" :: args =>
      match fuel, args with
      | fuel + 1, "-c" :: script :: _ => some (runScript fuel p script)
      | fuel + 1, file :: _ =>
        match p.disk.read (p.path file) with
        | .ok script => some (runScript fuel p script)
        | .error _ => some (p.complains ("sh: 0: cannot open " ++ file ++ ": No such file") 2)
      | _, _ => some (p.ends 0)
    | _ => simple inScript p words
where
  runScript (fuel : Nat) (p : Place) (script : String) : Behaviour :=
    runCommands (fun p words =>
      match program? true fuel p words with
      | some b => b
      | none => p.complains ("sh: 1: " ++ words.headD "" ++ ": not found") 127) p 0 (commands script)

end Scaffold.Shell
