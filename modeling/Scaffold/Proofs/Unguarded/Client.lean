import Scaffold.Client.Files
import Scaffold.Proofs.Rest.RoundTrip
import Scaffold.Proofs.Storage.Names
import Scaffold.Proofs.Unguarded.Check
import Scaffold.Proofs.Unguarded.Region

/-! # The client without a guard

A call of the client takes the parameter of its path from between the braces, which are looked for
one by one. The paths of a server's own schema have both braces or none, in this order. -/
namespace Scaffold.Unguarded

open Scaffold.Model Scaffold.Rest Scaffold.Client
open Scaffold.Text (unlines pascal camel kebab quoted cut? words downcase IsMark)

/-! ## Calls -/

/-- The parameter of a path and the path with its value in place. Where there is an opening brace,
there has to be a closing one behind it. -/
def pathParam? (path : String) : Option (Option (String × String)) :=
  let cs := path.toList
  match index? ['\x7b'] cs with
  | none => some none
  | some i => do
    let j ← index? ['\x7d'] cs
    let param ← slice? cs (i + 1) j
    let before ← slice? cs 0 i
    let after ← slice? cs (j + 1) cs.length
    some (some (String.ofList param,
      String.ofList before ++ "$\x7b" ++ String.ofList param ++ "\x7d" ++ String.ofList after))

/-- A call of an operation whose parameter is known. -/
def callWith (type : String) (op : Operation) (param : Option (String × String)) : String :=
  let (answer, body) := answerType type op.method param.isSome
  let params := (param.map fun (name, _) => name ++ ": string").toList ++
    (if body then ["data: Partial<" ++ type ++ ">"] else [])
  "(" ++ ", ".intercalate params ++ ") => request<" ++ answer ++ ">(" ++ quoted op.method ++
    ", `" ++ (param.map (·.2)).getD op.path ++ "`" ++ (if body then ", data" else "") ++ ")"

def operationCalls? (r : Resource) : Option (List (String × String)) :=
  r.operations.mapM fun op => do
    let param ← pathParam? op.path
    some (op.id, callWith (pascal r.name) op param)

def calls? (s : Schema) : Option (List (String × String)) := do
  let own ← (s.resources.mapM operationCalls?).map List.flatten
  some (own ++ s.views.map fun v =>
    ("view" ++ pascal v.name,
      "() => request<" ++ pascal v.name ++ "[]>(\"GET\", " ++ scriptText v.path ++ ")"))

def apiScript? (s : Schema) : Option String := do
  let named ← calls? s
  some (unlines (header ++ (interfaces s).flatMap Interface.lines ++ requestLines ++
    ["export const api = \x7b"] ++
    named.map (fun (name, call) => "  " ++ name ++ ": " ++ call ++ ",") ++ ["\x7d;"]))

def filesOf? (s : Schema) : Option (Except FileError Output.Tree) := do
  let api ← apiScript? s
  some do
    s.pages.forM (checkPage s)
    .ok (s.pages.foldl (fun t p => t.insert (pagePath p) (pageScript s p))
      [("src/routes.ts", routesScript s), ("src/api/client.ts", api)])

def client? (server : Output.Tree) : Option (Except FileError Output.Tree) :=
  match server.get? Server.schemaPath with
  | none => some (.error .noSchema)
  | some text =>
    match Schema.ofText? text with
    | none => some (.error .malformedSchema)
    | some schema => filesOf? schema

/-! ## Braces -/

theorem cut?_of_notMem {c : Char} {before : List Char} (h : c ∉ before) (rest : List Char) :
    cut? [c] (before ++ c :: rest) = some (before, rest) := by
  induction before with
  | nil => simp [cut?, Text.after?]
  | cons d before ih =>
    obtain ⟨hd, hbefore⟩ := not_or.mp (mt List.mem_cons.mpr h)
    simp [cut?, Text.after?, hd, ih hbefore]

theorem cut?_eq_none_of_notMem {c : Char} {cs : List Char} (h : c ∉ cs) : cut? [c] cs = none := by
  rw [Text.cut?_eq_none]
  exact fun hin => h (hin.subset List.mem_cons_self)

/-- A text without braces. -/
def Unbraced (s : String) : Prop := '\x7b' ∉ s.toList ∧ '\x7d' ∉ s.toList

theorem Unbraced.append {s t : String} (hs : Unbraced s) (ht : Unbraced t) :
    Unbraced (s ++ t) := by
  simp [Unbraced, hs.1, hs.2, ht.1, ht.2]

theorem unbraced_of_chars {s : String} (h : ∀ c ∈ s.toList, c = '-' ∨ ¬ IsMark c) :
    Unbraced s := by
  constructor
  · intro hm
    rcases h _ hm with heq | hmark
    · exact absurd heq (by decide)
    · exact hmark (by decide)
  · intro hm
    rcases h _ hm with heq | hmark
    · exact absurd heq (by decide)
    · exact hmark (by decide)

theorem unbraced_camel (s : String) : Unbraced (camel s) :=
  unbraced_of_chars fun c hc => .inr (Text.camel_chars s c hc)

theorem unbraced_kebab (s : String) : Unbraced (kebab s) :=
  unbraced_of_chars (Text.kebab_chars s)

theorem unbraced_plural {s : String} (h : Unbraced s) : Unbraced (Storage.plural s) :=
  ⟨fun hc => (Storage.mem_plural hc).elim h.1 (by decide),
    fun hc => (Storage.mem_plural hc).elim h.2 (by decide)⟩

theorem unbraced_resourcePath (entity : String) : Unbraced (resourcePath entity) := by
  have hroot : Unbraced "/api/" := by
    unfold Unbraced
    decide
  exact hroot.append (unbraced_plural (unbraced_kebab entity))

/-! ## Paths -/

theorem pathParam?_of_unbraced {path : String} (h : Unbraced path) :
    pathParam? path = some (Client.pathParam? path) := by
  have hcut := cut?_eq_none_of_notMem h.1
  simp [pathParam?, Client.pathParam?, index?, hcut]

theorem pathParam?_braced {path before param : String} (hb : Unbraced before) (hp : Unbraced param)
    (hpath : path = before ++ "\x7b" ++ param ++ "\x7d") :
    pathParam? path = some (Client.pathParam? path) := by
  have hopen : path.toList = before.toList ++ '\x7b' :: (param.toList ++ ['\x7d']) := by
    simp [hpath]
  have hclose : path.toList = (before.toList ++ '\x7b' :: param.toList) ++ '\x7d' :: [] := by
    simp [hpath]
  have hi : cut? ['\x7b'] path.toList = some (before.toList, param.toList ++ ['\x7d']) := by
    rw [hopen, cut?_of_notMem hb.1]
  have hj : cut? ['\x7d'] path.toList = some (before.toList ++ '\x7b' :: param.toList, []) := by
    rw [hclose, cut?_of_notMem (by simp [hb.2, hp.2])]
  have hparam : slice? path.toList (before.toList.length + 1)
      (before.toList ++ '\x7b' :: param.toList).length = some param.toList := by
    have h := slice?_append (before.toList ++ ['\x7b']) param.toList ['\x7d']
    rw [hopen]
    simpa [Nat.add_assoc, Nat.add_comm, Nat.add_left_comm] using h
  have hbefore : slice? path.toList 0 before.toList.length = some before.toList := by
    rw [slice?_take (by simp [hopen]), hopen, List.take_left]
  have hafter : slice? path.toList ((before.toList ++ '\x7b' :: param.toList).length + 1)
      path.toList.length = some [] := by
    have hlen : (before.toList ++ '\x7b' :: param.toList).length + 1 = path.toList.length := by
      simp [hclose, Nat.add_assoc]
    rw [hlen, slice?_drop (Nat.le_refl _), List.drop_length]
  have hmodel : cut? ['\x7d'] (param.toList ++ ['\x7d']) = some (param.toList, []) :=
    cut?_of_notMem hp.2 []
  simp only [pathParam?, Client.pathParam?, index?, hi, hj, hmodel, Option.map_some, hparam,
    hbefore, hafter, Option.bind_eq_bind, Option.bind_some]

/-- A path that closes a brace before it opens one would be a crash. -/
example : pathParam? "/posts\x7d/\x7b" = none := by decide

theorem pathParam?_operation {e : Entity} {op : Operation} (h : op ∈ operationsOf e) :
    pathParam? op.path = some (Client.pathParam? op.path) := by
  have hparam : Unbraced (camel e.name ++ "Id") := by
    refine (unbraced_camel e.name).append ?_
    unfold Unbraced
    decide
  have hslash : Unbraced (resourcePath e.name ++ "/") := by
    refine (unbraced_resourcePath e.name).append ?_
    unfold Unbraced
    decide
  have hitem : resourcePath e.name ++ "/\x7b" ++ camel e.name ++ "Id\x7d" =
      resourcePath e.name ++ "/" ++ "\x7b" ++ (camel e.name ++ "Id") ++ "\x7d" := by
    simp [← String.toList_inj]
  have hpaths : ∀ op ∈ operationsOf e, op.path = resourcePath e.name ∨
      op.path = resourcePath e.name ++ "/\x7b" ++ camel e.name ++ "Id\x7d" := by
    unfold operationsOf
    split <;> simp
  rcases hpaths op h with hpath | hpath
  · exact pathParam?_of_unbraced (hpath ▸ unbraced_resourcePath e.name)
  · exact pathParam?_braced hslash hparam (hpath.trans hitem)

/-! ## Files -/

theorem operationCalls?_eq (e : Entity) : operationCalls? (resourceOf e) =
    some ((operationsOf e).map fun op => (op.id, clientCall (pascal e.name) op)) := by
  refine mapM_eq_some fun op hop => ?_
  rw [pathParam?_operation hop]
  rfl

theorem filesOf?_eq (a : Application) (o : Generator.Options) :
    filesOf? (schemaOf a o) = some (filesOf (schemaOf a o)) := by
  have hown : ((schemaOf a o).resources.mapM operationCalls?).map List.flatten =
      some ((schemaOf a o).resources.flatMap fun r =>
        r.operations.map fun op => (op.id, clientCall (pascal r.name) op)) := by
    refine mapM_flatten (List.forall_mem_map.mpr fun e _ => ?_)
    exact operationCalls?_eq e
  have hcalls : calls? (schemaOf a o) = some (calls (schemaOf a o)) := by
    rw [calls?, hown]
    rfl
  rw [filesOf?, apiScript?, hcalls]
  rfl

end Scaffold.Unguarded
