import Scaffold.Disk.Path
import Scaffold.Text.Digits
import Scaffold.Text.Quoted
import Scaffold.Text.Search
import Scaffold.Text.Utf8

/-! # Endpoints

What a request asks for, by its method and the path of its address. A path with a slash too many is
redirected. -/
namespace Scaffold.Meta

open Scaffold.Text

structure Request where
  method : String
  /-- Path and query, as they are written. -/
  target : String
  deriving DecidableEq, Repr

inductive Endpoint
  | health
  | entities
  | entity (name : String)
  | enum (name : String)
  | pages
  | model
  | warnings
  | reload
  deriving DecidableEq, Repr

/-- The bytes of a path; a percent sign stands before the number of a byte. -/
def pathBytes : List Char → List Nat
  | [] => []
  | '%' :: x :: y :: rest =>
    match hexValue? x, hexValue? y with
    | some a, some b => (16 * a + b) :: pathBytes rest
    | _, _ => '%'.toNat :: pathBytes (x :: y :: rest)
  | c :: rest => (c.toString.toUTF8.toList.map UInt8.toNat) ++ pathBytes rest

/-- The path of a request, decoded. -/
def Request.path (r : Request) : String :=
  String.ofList ((decode (pathBytes (r.target.toList.takeWhile (· ≠ '?')))).map (·.char))

/-- The query of a request with its question mark. -/
def Request.query (r : Request) : String := String.ofList (r.target.toList.dropWhile (· ≠ '?'))

/-- What a path asks for. -/
def Endpoint.ofPath? (method path : String) : Option Endpoint :=
  match method, split '/' path with
  | "GET", ["", "healthz"] => some .health
  | "GET", ["", "api", "meta"] => some .entities
  | "GET", ["", "api", "meta", "entities", name] => some (.entity name)
  | "GET", ["", "api", "meta", "enums", name] => some (.enum name)
  | "GET", ["", "api", "meta", "pages"] => some .pages
  | "GET", ["", "api", "meta", "ir"] => some .model
  | "GET", ["", "api", "meta", "lint"] => some .warnings
  | "POST", ["", "api", "admin", "reload"] => some .reload
  | _, _ => none

/-- Where a request leads. -/
inductive Route
  | endpoint (e : Endpoint)
  | redirect (path : String)
  | missing
  deriving DecidableEq, Repr

/-- A name must not be empty. -/
def Endpoint.isNamed : Endpoint → Bool
  | .entity name | .enum name => name ≠ ""
  | _ => true

/-- The path without a slash at its end. -/
def withoutSlash? (path : String) : Option String :=
  match path.toList.reverse with
  | '/' :: c :: rest => some (String.ofList (c :: rest).reverse)
  | _ => none

def Request.route (r : Request) : Route :=
  match Endpoint.ofPath? r.method r.path with
  | some e => if e.isNamed then .endpoint e else .missing
  | none =>
    match withoutSlash? r.path with
    | none => .missing
    | some path => if (Endpoint.ofPath? r.method path).isSome then .redirect path else .missing

/-- Whether a byte stands for itself in the path of an address. -/
def isPathByte (n : Nat) : Bool :=
  let c := Char.ofNat n
  n < 0x80 && (c.isAlphanum || "-_.~$&+,/:;=@".toList.contains c)

/-- A path as it is written in an address. -/
def writtenPath (path : String) : String :=
  String.ofList (path.toUTF8.toList.flatMap fun b =>
    if isPathByte b.toNat then [Char.ofNat b.toNat]
    else '%' :: (hexDigits 2 b.toNat).map Char.toUpper)

/-- The shortest address of a path. A slash at its end stays. -/
def addressOf (path : String) : String :=
  let written := writtenPath path
  let short := Disk.clean written
  if written.endsWith "/" && !short.endsWith "/" then short ++ "/" else short

end Scaffold.Meta
