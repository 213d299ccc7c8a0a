import Scaffold.Client.Script

/-! # Calls of the client

The interfaces of the resources and views, and one call for each operation. -/
namespace Scaffold.Client

open Scaffold.Rest
open Scaffold.Text (unlines pascal quoted cut?)

/-- An exported interface: its name, and its members with their types. -/
structure Interface where
  name : String
  members : List (String × String)
  deriving DecidableEq, Repr

def Interface.lines (i : Interface) : List String :=
  ["export interface " ++ i.name ++ " \x7b"] ++
    i.members.map (fun (name, type) => "  " ++ name ++ ": " ++ type ++ ";") ++ ["\x7d", ""]

/-- A member that a record may lack carries a question mark. -/
def resourceInterface (r : Resource) : Interface :=
  ⟨pascal r.name, r.fields.map fun f =>
    (f.name ++ (if f.optional || f.readOnly || f.writeOnly then "?" else ""), scriptType f)⟩

def viewInterface (v : ViewRoute) : Interface :=
  ⟨pascal v.name, v.fields.map fun f => (f.name, scriptType f)⟩

def interfaces (s : Schema) : List Interface :=
  s.resources.map resourceInterface ++ s.views.map viewInterface

/-- The parameter of a path and the path with its value in place: `/users/{id}` has `id`. -/
def pathParam? (path : String) : Option (String × String) := do
  let (before, rest) ← cut? ['\x7b'] path.toList
  let (param, after) ← cut? ['\x7d'] rest
  some (String.ofList param,
    String.ofList before ++ "$\x7b" ++ String.ofList param ++ "\x7d" ++ String.ofList after)

/-- The type of an answer, whether a body is sent. -/
def answerType (type method : String) (single : Bool) : String × Bool :=
  match method with
  | "GET" => (if single then type else type ++ "[]", false)
  | "POST" | "PUT" => (type, true)
  | "DELETE" => ("void", false)
  | _ => ("", false)

def clientCall (type : String) (op : Operation) : String :=
  let param := pathParam? op.path
  let (answer, body) := answerType type op.method param.isSome
  let params := (param.map fun (name, _) => name ++ ": string").toList ++
    (if body then ["data: Partial<" ++ type ++ ">"] else [])
  "(" ++ ", ".intercalate params ++ ") => request<" ++ answer ++ ">(" ++ quoted op.method ++
    ", `" ++ (param.map (·.2)).getD op.path ++ "`" ++ (if body then ", data" else "") ++ ")"

/-- The calls by name. -/
def calls (s : Schema) : List (String × String) :=
  (s.resources.flatMap fun r => r.operations.map fun op => (op.id, clientCall (pascal r.name) op)) ++
    s.views.map fun v =>
      ("view" ++ pascal v.name,
        "() => request<" ++ pascal v.name ++ "[]>(\"GET\", " ++ scriptText v.path ++ ")")

def requestLines : List String :=
  ["export const BASE_URL = \"\";",
    "",
    "async function request<T>(method: string, path: string, body?: unknown): Promise<T> \x7b",
    "  const res = await fetch(BASE_URL + path, \x7b",
    "    method,",
    "    headers: body === undefined ? undefined : \x7b \"Content-Type\": \"application/json\" \x7d,",
    "    body: body === undefined ? undefined : JSON.stringify(body),",
    "    credentials: \"include\",",
    "  \x7d);",
    "  if (!res.ok) \x7b",
    "    throw new Error(method + \" \" + path + \": \" + res.status);",
    "  \x7d",
    "  return res.status === 204 ? (undefined as T) : ((await res.json()) as T);",
    "\x7d",
    ""]

def apiScript (s : Schema) : String :=
  unlines (header ++ (interfaces s).flatMap Interface.lines ++ requestLines ++
    ["export const api = \x7b"] ++
    (calls s).map (fun (name, call) => "  " ++ name ++ ": " ++ call ++ ",") ++ ["\x7d;"])

end Scaffold.Client
