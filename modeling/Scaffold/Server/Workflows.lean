import Scaffold.Code.Columns
import Scaffold.Code.Listing
import Scaffold.Model.Application
import Scaffold.Model.Name
import Scaffold.Number.Double
import Scaffold.Output.Region

/-! # Workflow handlers

One function for each workflow. A step gathers its inputs and hands them on inside a custom
region. -/
namespace Scaffold.Server

open Scaffold.Model Scaffold.Code
open Scaffold.Number (power)
open Scaffold.Text (quoted)

mutual

/-- A value as code. -/
def literalCode : Json → String
  | .null => "nil"
  | .bool true => "true"
  | .bool false => "false"
  | .number raw => raw
  | .string text => quoted text
  | .array elems => "[]any\x7b" ++ ", ".intercalate (literalCodes elems) ++ "\x7d"
  | .object members => "map[string]any\x7b" ++ ", ".intercalate (memberCodes members) ++ "\x7d"

def literalCodes : List Json → List String
  | [] => []
  | x :: xs => literalCode x :: literalCodes xs

def memberCodes : List (String × Json) → List String
  | [] => []
  | (k, x) :: xs => (quoted k ++ ": " ++ literalCode x) :: memberCodes xs

end

mutual

/-- Whether all numbers of a value are number literals. -/
def isLiteralSound : Json → Bool
  | .number raw => isNumberLiteral raw
  | .array elems => areElemsSound elems
  | .object members => areMembersSound members
  | _ => true

def areElemsSound : List Json → Bool
  | [] => true
  | x :: xs => isLiteralSound x && areElemsSound xs

def areMembersSound : List (String × Json) → Bool
  | [] => true
  | (_, x) :: xs => isLiteralSound x && areMembersSound xs

end

def inputCode : InputValue → String
  | .env name => "os.Getenv(" ++ quoted name ++ ")"
  | .trigger path => "lookup(" ++ ", ".intercalate ("ev.Payload" :: path.map quoted) ++ ")"
  | .literal value => literalCode value

def isInputSound : InputValue → Bool
  | .literal value => isLiteralSound value
  | _ => true

/-! ## Layout of the inputs

Keys of similar length share a column. -/

/-- Whether a key breaks with the group of keys before it, given their lengths, the last first. A
key breaks when it or the last one is long and it differs from the geometric mean of the group by
a factor of five halves or more. -/
def breaksColumn (group : List Nat) (size : Nat) : Bool :=
  match group with
  | [] => false
  | last :: _ =>
    let count := group.length
    let product := group.foldl (· * ·) 1
    (last > 40 || size > 40) &&
      (power (5 * size) count ≤ power 2 count * product ||
        power 5 count * product ≤ power (2 * size) count)

/-- Cut lines of a key and a value into sections of shared columns. -/
def sections : (group : List Nat) → List (String × String) → List (List (List String))
  | _, [] => []
  | group, (key, value) :: rest =>
    let size := key.utf8ByteSize
    let row := [key ++ ":", value ++ ","]
    if breaksColumn group size then
      match sections [size] rest with
      | first :: more => [] :: (row :: first) :: more
      | [] => [[], [row]]
    else match sections (size :: group) rest with
      | first :: more => (row :: first) :: more
      | [] => [[row]]

/-- Lines of keys and values; a lone line is not aligned. -/
def entryLines (entries : List (String × String)) : List String :=
  match entries with
  | [(key, value)] => [key ++ ": " ++ value ++ ","]
  | entries => (sections [] entries).flatMap aligned

/-! ## Handlers -/

def stepBody (s : WorkflowStep) : String :=
  "\t\tif err := dispatch(ctx, " ++ quoted s.action ++
    ", in); err != nil \x7b\n\t\t\treturn err\n\t\t\x7d"

def stepRegionText (w : Workflow) (n : Nat) (s : WorkflowStep) : String :=
  Output.region "\t\t//" (stepRegion w.name (n + 1)) (stepBody s)

/-- The lines of the step at place `n`. -/
def stepLines (w : Workflow) (n : Nat) (s : WorkflowStep) : List String :=
  let entries := s.inputs.map fun i => (quoted i.key, inputCode i.value)
  ["\t// step " ++ toString (n + 1) ++ ": " ++ s.action, "\t\x7b"] ++
    (if entries.isEmpty then ["\t\tin := map[string]any\x7b\x7d"]
    else ["\t\tin := map[string]any\x7b"] ++ (entryLines entries).map ("\t\t\t" ++ ·) ++ ["\t\t\x7d"]) ++
    [stepRegionText w n s ++ "\t\x7d"]

def handlerPart (w : Workflow) : Part where
  lines :=
    [docComment (handlerName w.name ++ " runs workflow " ++ w.name ++ " on " ++ quoted w.event ++
        "."),
      "func " ++ handlerName w.name ++ "(ctx context.Context, ev Event) error \x7b"] ++
    (w.steps.zipIdx).flatMap (fun (s, n) => stepLines w n s) ++
    ["\treturn nil", "\x7d"]
  sound := w.steps.all fun s => s.inputs.all fun i => isInputSound i.value

def handlerEntry (w : Workflow) : String :=
  "\t\x7bName: " ++ quoted w.name ++ ", Event: " ++ quoted w.event ++ ", Run: " ++
    handlerName w.name ++ "\x7d,"

def handlerTable (workflows : List Workflow) : Part where
  lines := ["// Workflows lists handlers in declaration order."] ++
    if workflows.isEmpty then ["var Workflows = []WorkflowHandler\x7b\x7d"]
    else ["var Workflows = []WorkflowHandler\x7b"] ++ workflows.map handlerEntry ++ ["\x7d"]
  sound := true

def eventPart : Part where
  lines :=
    ["// Event is a domain event delivered to workflows.",
      "type Event struct \x7b",
      "\tName    string",
      "\tPayload map[string]any",
      "\x7d"]
  sound := true

def handlerTypePart : Part where
  lines :=
    ["// WorkflowHandler binds a workflow to its trigger event.",
      "type WorkflowHandler struct \x7b",
      "\tName  string",
      "\tEvent string",
      "\tRun   func(context.Context, Event) error",
      "\x7d"]
  sound := true

def dispatchRegion : String := Output.region "\t//" "dispatch" "\t_, _, _ = ctx, action, in"

def dispatchPart : Part where
  lines :=
    ["// dispatch hands a step to its action implementation.",
      "func dispatch(ctx context.Context, action string, in map[string]any) error \x7b",
      dispatchRegion ++ "\treturn nil",
      "\x7d"]
  sound := true

def lookupPart : Part where
  lines :=
    ["func lookup(m map[string]any, path ...string) any \x7b",
      "\tvar cur any = m",
      "\tfor _, p := range path \x7b",
      "\t\tnext, ok := cur.(map[string]any)",
      "\t\tif !ok \x7b",
      "\t\t\treturn nil",
      "\t\t\x7d",
      "\t\tcur = next[p]",
      "\t\x7d",
      "\treturn cur",
      "\x7d"]
  sound := true

def readsEnvironment (w : Workflow) : Bool :=
  w.steps.any fun s => s.inputs.any fun i =>
    match i.value with
    | .env _ => true
    | _ => false

def workflowListing (a : Application) : Listing where
  imports := "context" :: if a.workflows.any readsEnvironment then ["os"] else []
  parts := [eventPart, handlerTypePart, handlerTable a.workflows] ++
    a.workflows.map handlerPart ++ [dispatchPart, lookupPart]

end Scaffold.Server
