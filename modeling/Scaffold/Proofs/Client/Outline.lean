import Mathlib.Data.List.Infix
import Scaffold.Client.Page
import Scaffold.Proofs.Output.Unmarked

/-! # What a page refers to

The script of a page is a text. Its outline says of each part of a line whether it is fixed code, a
text of the page, a call of the server, the type of a record or one of its members, and the script
is the text of the outline. -/
namespace Scaffold.Client

open Scaffold.Rest
open Scaffold.Text (unlines pascal quoted)
open Scaffold.Output (checked checked_spec)

/-! ## Outlines -/

/-- A part of a line. -/
inductive Part
  /-- The same on every page. -/
  | code (text : String)
  /-- A name or a text of the page. -/
  | word (text : String)
  | call (operation : String)
  | record (type : String)
  | member (name : String)
  deriving DecidableEq

def Part.text : Part → String
  | code text | word text | record text | member text => text
  | call operation => "api." ++ operation ++ "("

/-- The operation that a part calls. -/
def Part.call? : Part → Option String
  | call operation => some operation
  | code _ | word _ | record _ | member _ => none

/-- The type of records that a part imports or mentions. -/
def Part.record? : Part → Option String
  | record type => some type
  | code _ | word _ | call _ | member _ => none

/-- The member of a record that a part reads or writes. -/
def Part.member? : Part → Option String
  | member name => some name
  | code _ | word _ | call _ | record _ => none

/-- The code of a part that is the same on every page. -/
def Part.fixed? : Part → Option String
  | code text => some text
  | word _ | call _ | record _ | member _ => none

/-- What `pick` finds in the parts of some lines. -/
def picked (pick : Part → Option String) (lines : List (List Part)) : List String :=
  lines.flatten.filterMap pick

/-- The text of a line from its parts. -/
def lineText (parts : List Part) : String := String.join (parts.map Part.text)

/-- The lines before and after the custom region of a page. -/
structure Outline where
  before : List (List Part)
  after : List (List Part)

namespace Outline

def text (o : Outline) (region : String) : String :=
  unlines (o.before.map lineText) ++ region ++ unlines (o.after.map lineText)

/-- The operations of the server that a page calls. -/
def calls (o : Outline) : List String := picked Part.call? (o.before ++ o.after)

/-- The types of records that a page imports or mentions. -/
def records (o : Outline) : List String := picked Part.record? (o.before ++ o.after)

/-- The members of records that a page reads or writes. -/
def members (o : Outline) : List String := picked Part.member? (o.before ++ o.after)

def fixed (o : Outline) : List String := picked Part.fixed? (o.before ++ o.after)

end Outline

def codeLines (ls : List String) : List (List Part) := ls.map fun l => [.code l]

def functionLine (p : PageAccess) (parameters : String) : List Part :=
  [.code "export default function ", .word p.name, .code "Page(", .code parameters,
    .code ") \x7b"]

def importLine (type : String) : List Part :=
  [.code "import \x7b api, type ", .record type, .code " \x7d from \"../api/client\";"]

def titleLine (p : PageAccess) : List Part :=
  [.code "      <h1>", .word (markupText p.title), .code "</h1>"]

def customOutline (p : PageAccess) : Outline where
  before := codeLines header ++
    [[.code "import ", .word p.component, .code " from \"../components/", .word p.component,
        .code "\";"],
      [.code ""],
      functionLine p ""]
  after := [[.code "  return <", .word p.component, .code " />;"], [.code "\x7d"]]

def tableOutline (p : PageAccess) : Outline :=
  let type := pascal p.entity
  { before := codeLines header ++
      [[.code (reactImport "useEffect, useState")],
        importLine type,
        [.code ""],
        functionLine p "",
        [.code "  const [rows, setRows] = useState<", .record type, .code "[]>([]);"],
        [.code "  useEffect(() => \x7b"],
        [.code "    ", .call ("list" ++ type), .code ").then(setRows);"],
        [.code "  \x7d, []);"]]
    after := codeLines ["  return (", "    <section>"] ++ [titleLine p] ++
      codeLines ["      <table>", "        <thead>", "          <tr>"] ++
      p.columns.map (fun c => [.code "            <th>", .word c, .code "</th>"]) ++
      codeLines ["          </tr>", "        </thead>", "        <tbody>",
        "          \x7brows.map((row, i) => (", "            <tr key=\x7bi\x7d>"] ++
      p.columns.map (fun c =>
        [.code "              <td>\x7bString(row.", .member c, .code " ?? \"\")\x7d</td>"]) ++
      codeLines ["            </tr>", "          ))\x7d", "        </tbody>", "      </table>",
        "    </section>", "  );", "\x7d"] }

def inputLines (s : Schema) (entity field : String) : List (List Part) :=
  [[.code "      <label>"],
    [.code "        ", .word field],
    [.code "        <input type=", .word (quoted (inputType s entity field)), .code " name=",
      .word (quoted field), .code " onChange=\x7b(e) => setData(\x7b ...data, ", .member field,
      .code ": e.target.value \x7d)\x7d />"],
    [.code "      </label>"]]

def formOutline (s : Schema) (p : PageAccess) : Outline :=
  let type := pascal p.entity
  { before := codeLines header ++
      [[.code (reactImport "useState")],
        importLine type,
        [.code ""],
        functionLine p "",
        [.code "  const [data, setData] = useState<Partial<", .record type, .code ">>(\x7b\x7d);"]]
    after := codeLines ["  return (", "    <form", "      onSubmit=\x7b(e) => \x7b",
        "        e.preventDefault();"] ++
      [[.code "        ", .call ("create" ++ type), .code "data);"]] ++
      codeLines ["      \x7d\x7d", "    >"] ++ [titleLine p] ++
      p.fields.flatMap (inputLines s p.entity) ++
      codeLines ["      <button type=\"submit\">Save</button>", "    </form>", "  );", "\x7d"] }

def detailsOutline (s : Schema) (p : PageAccess) : Outline :=
  let type := pascal p.entity
  { before := codeLines header ++
      [[.code (reactImport "useEffect, useState")],
        importLine type,
        [.code ""],
        functionLine p "\x7b id \x7d: \x7b id: string \x7d",
        [.code "  const [record, setRecord] = useState<", .record type, .code " | null>(null);"],
        [.code "  useEffect(() => \x7b"],
        [.code "    ", .call ("get" ++ type), .code "id).then(setRecord);"],
        [.code "  \x7d, [id]);"]]
    after := codeLines ["  if (!record) \x7b", "    return null;", "  \x7d", "  return (",
        "    <section>"] ++ [titleLine p] ++ codeLines ["      <dl>"] ++
      ((resourceFields s p.entity).filter (!·.writeOnly)).flatMap (fun f =>
        [[.code "        <dt>", .word f.name, .code "</dt>"],
          [.code "        <dd>\x7bString(record.", .member f.name,
            .code " ?? \"\")\x7d</dd>"]]) ++
      codeLines ["      </dl>", "    </section>", "  );", "\x7d"] }

def pageOutline (s : Schema) (p : PageAccess) : Outline :=
  match p.kind with
  | "custom" => customOutline p
  | "table" => tableOutline p
  | "form" => formOutline s p
  | _ => detailsOutline s p

/-! ## The text of an outline -/

theorem lineText_nil : lineText [] = "" := rfl

theorem lineText_cons (part : Part) (parts : List Part) :
    lineText (part :: parts) = part.text ++ lineText parts := by
  simp [lineText, String.join_cons]

theorem map_codeLines (ls : List String) : (codeLines ls).map lineText = ls := by
  rw [codeLines, List.map_map]
  refine List.map_id'' (fun l => ?_) ls
  simp [lineText_cons, lineText_nil, Part.text]

theorem lineText_functionLine (p : PageAccess) (parameters : String) :
    lineText (functionLine p parameters) =
      "export default function " ++ (p.name ++ ("Page(" ++ (parameters ++ ") \x7b"))) := by
  simp only [functionLine, lineText_cons, lineText_nil, Part.text, String.append_empty]

theorem lineText_importLine (type : String) : lineText (importLine type) = clientImport type := by
  unfold clientImport
  simp only [importLine, lineText_cons, lineText_nil, Part.text, String.append_assoc,
    String.append_empty]

theorem lineText_titleLine (p : PageAccess) :
    lineText (titleLine p) = "      <h1>" ++ (markupText p.title ++ "</h1>") := by
  simp only [titleLine, lineText_cons, lineText_nil, Part.text, String.append_empty]

theorem map_inputLines (s : Schema) (entity field : String) :
    (inputLines s entity field).map lineText = formInput s entity field := by
  simp only [inputLines, formInput, List.map_cons, List.map_nil, lineText_cons, lineText_nil,
    Part.text, String.append_assoc, String.append_empty]

theorem functionLine_plain : "Page() \x7b" = "Page(" ++ ("" ++ ") \x7b") := by decide

theorem customPage_eq (p : PageAccess) : customPage p = (customOutline p).text (pageRegion p) := by
  simp only [customPage, customOutline, Outline.text, List.map_append, List.map_cons, List.map_nil,
    map_codeLines, lineText_functionLine, lineText_cons, lineText_nil, Part.text,
    String.append_assoc, String.append_empty, functionLine_plain]

theorem tablePage_eq (p : PageAccess) : tablePage p = (tableOutline p).text (pageRegion p) := by
  have hcall : "    api.list" = "    " ++ ("api." ++ "list") := by decide
  have hopen : "().then(setRows);" = "(" ++ ").then(setRows);" := by decide
  simp only [tablePage, tableOutline, Outline.text, List.map_append, List.map_cons, List.map_nil,
    List.map_map, Function.comp_def, map_codeLines, lineText_functionLine, lineText_importLine,
    lineText_titleLine, lineText_cons, lineText_nil, Part.text, String.append_assoc,
    String.append_empty, functionLine_plain, hcall, hopen, List.append_assoc, List.cons_append,
    List.nil_append]

theorem formPage_eq (s : Schema) (p : PageAccess) :
    formPage s p = (formOutline s p).text (pageRegion p) := by
  have hcall : "        api.create" = "        " ++ ("api." ++ "create") := by decide
  have hopen : "(data);" = "(" ++ "data);" := by decide
  simp only [formPage, formOutline, Outline.text, List.map_append, List.map_cons, List.map_nil,
    List.map_flatMap, map_inputLines, map_codeLines, lineText_functionLine, lineText_importLine,
    lineText_titleLine, lineText_cons, lineText_nil, Part.text, String.append_assoc,
    String.append_empty, functionLine_plain, hcall, hopen, List.append_assoc, List.cons_append,
    List.nil_append]

theorem detailsPage_eq (s : Schema) (p : PageAccess) :
    detailsPage s p = (detailsOutline s p).text (pageRegion p) := by
  have hcall : "    api.get" = "    " ++ ("api." ++ "get") := by decide
  have hopen : "(id).then(setRecord);" = "(" ++ "id).then(setRecord);" := by decide
  have hfunction : "Page(\x7b id \x7d: \x7b id: string \x7d) \x7b" =
      "Page(" ++ ("\x7b id \x7d: \x7b id: string \x7d" ++ ") \x7b") := by decide
  simp only [detailsPage, detailsOutline, Outline.text, List.map_append, List.map_cons,
    List.map_nil, List.map_flatMap, map_codeLines, lineText_functionLine, lineText_importLine,
    lineText_titleLine, lineText_cons, lineText_nil, Part.text, String.append_assoc,
    String.append_empty, hfunction, hcall, hopen, List.append_assoc, List.cons_append,
    List.nil_append]

/-- The script of a page is the text of its outline. -/
theorem pageScript_eq (s : Schema) (p : PageAccess) :
    pageScript s p = (pageOutline s p).text (pageRegion p) := by
  unfold pageScript
  split
  next h => simpa only [pageOutline, h] using customPage_eq p
  next h => simpa only [pageOutline, h] using tablePage_eq p
  next h => simpa only [pageOutline, h] using formPage_eq s p
  next hcustom htable hform =>
    unfold pageOutline
    split
    next h => exact absurd h hcustom
    next h => exact absurd h htable
    next h => exact absurd h hform
    next => exact detailsPage_eq s p

/-! ## What an outline refers to -/

section Picked

variable (pick : Part → Option String)

theorem picked_append (ls ms : List (List Part)) :
    picked pick (ls ++ ms) = picked pick ls ++ picked pick ms := by
  simp [picked]

theorem picked_cons (l : List Part) (ls : List (List Part)) :
    picked pick (l :: ls) = l.filterMap pick ++ picked pick ls := by
  simp [picked]

theorem picked_nil : picked pick [] = [] := rfl

theorem picked_map {α : Type} (line : α → List Part) (xs : List α) :
    picked pick (xs.map line) = xs.flatMap fun x => (line x).filterMap pick := by
  induction xs with
  | nil => rfl
  | cons x xs ih => rw [List.map_cons, picked_cons, ih, List.flatMap_cons]

theorem picked_flatMap {α : Type} (lines : α → List (List Part)) (xs : List α) :
    picked pick (xs.flatMap lines) = xs.flatMap fun x => picked pick (lines x) := by
  induction xs with
  | nil => rfl
  | cons x xs ih => rw [List.flatMap_cons, picked_append, ih, List.flatMap_cons]

theorem picked_codeLines (h : ∀ text, pick (.code text) = none) (ls : List String) :
    picked pick (codeLines ls) = [] := by
  simp [codeLines, picked_map, h]

end Picked

/-- Fixed code refers to nothing. -/
theorem refers_codeLines (ls : List String) :
    picked Part.call? (codeLines ls) = [] ∧ picked Part.record? (codeLines ls) = [] ∧
      picked Part.member? (codeLines ls) = [] :=
  ⟨picked_codeLines _ (fun _ => rfl) ls, picked_codeLines _ (fun _ => rfl) ls,
    picked_codeLines _ (fun _ => rfl) ls⟩

theorem fixed_codeLines (ls : List String) : picked Part.fixed? (codeLines ls) = ls := by
  simp [codeLines, picked_map, Part.fixed?]

/-- A text in which no operation is called. -/
def Callless (text : String) : Prop := ¬ "api.".toList <:+: text.toList

instance (text : String) : Decidable (Callless text) :=
  inferInstanceAs (Decidable (¬ "api.".toList <:+: text.toList))

theorem callless_ofList {cs : List Char}
    (h : checked 0x61 (fun rest => !(['p', 'i', '.'].isPrefixOf rest)) cs = true) :
    Callless (String.ofList cs) := by
  rw [Callless, String.toList_ofList, String.toList_ofList]
  rintro ⟨before, after, rfl⟩
  have hnext := (checked_spec h).2 'a' ('p' :: 'i' :: '.' :: after) rfl ⟨before, by simp⟩
  simp at hnext

/-- A side condition about a fixed text settles what is said of it. -/
theorem callless_fixed {text : String} (h : Callless text) : Callless text ↔ True :=
  iff_true_intro h

/-- Operations are called in no fixed code, so the calls of an outline are all that a page has. -/
theorem pageOutline_fixed (s : Schema) (p : PageAccess) :
    ∀ text ∈ (pageOutline s p).fixed, Callless text := by
  have hcomment : Callless ("// " ++ Output.generatedHeader) := by
    rw [Callless, String.toList_append, Output.generatedHeader]
    repeat rw [String.toList_ofList]
    decide +kernel
  have hstate : Callless (reactImport "useState") := by
    rw [Callless, reactImport, String.toList_append, String.toList_append]
    repeat rw [String.toList_ofList]
    decide +kernel
  have heffect : Callless (reactImport "useEffect, useState") := by
    rw [Callless, reactImport, String.toList_append, String.toList_append]
    repeat rw [String.toList_ofList]
    decide +kernel
  unfold pageOutline
  split <;>
    simp (disch := with_reducible refine id ?_; refine callless_ofList ?_; decide) only
      [Outline.fixed, customOutline, tableOutline, formOutline, detailsOutline, functionLine,
        importLine, titleLine, inputLines, fixed_codeLines, picked_append, picked_cons, picked_nil,
        picked_map, picked_flatMap, Part.fixed?, List.filterMap_cons, List.filterMap_nil,
        List.forall_mem_append, List.forall_mem_flatMap, List.forall_mem_cons, List.not_mem_nil,
        header, hcomment, hstate, heffect, callless_fixed, false_implies, implies_true, and_self]

/-- All that an outline refers to: records of one type, with these calls and members. -/
structure Outline.Uses (o : Outline) (calls : List String) (type : String)
    (members : List String) : Prop where
  calls : o.calls = calls
  imported : type ∈ o.records
  records : ∀ t ∈ o.records, t = type
  members : o.members = members

/-- A page with a component of its own refers to nothing. -/
theorem customOutline_uses (p : PageAccess) :
    (customOutline p).calls = [] ∧ (customOutline p).records = [] ∧
      (customOutline p).members = [] := by
  refine ⟨?_, ?_, ?_⟩ <;>
    simp [Outline.calls, Outline.records, Outline.members, customOutline, functionLine,
      picked_append, picked_cons, picked_nil, refers_codeLines, Part.call?, Part.record?,
      Part.member?, List.filterMap_cons]

theorem tableOutline_uses (p : PageAccess) :
    (tableOutline p).Uses ["list" ++ pascal p.entity] (pascal p.entity) p.columns := by
  constructor <;>
    simp [Outline.calls, Outline.records, Outline.members, tableOutline, functionLine, importLine,
      titleLine, picked_append, picked_cons, picked_map, refers_codeLines, Part.call?,
      Part.record?, Part.member?, List.filterMap_cons]

theorem formOutline_uses (s : Schema) (p : PageAccess) :
    (formOutline s p).Uses ["create" ++ pascal p.entity] (pascal p.entity) p.fields := by
  constructor <;>
    simp [Outline.calls, Outline.records, Outline.members, formOutline, functionLine, importLine,
      titleLine, inputLines, picked_append, picked_cons, picked_nil, picked_flatMap,
      refers_codeLines, Part.call?, Part.record?, Part.member?, List.filterMap_cons]

theorem detailsOutline_uses (s : Schema) (p : PageAccess) :
    (detailsOutline s p).Uses ["get" ++ pascal p.entity] (pascal p.entity)
      (((resourceFields s p.entity).filter (!·.writeOnly)).map (·.name)) := by
  constructor <;>
    simp [Outline.calls, Outline.records, Outline.members, detailsOutline, functionLine, importLine,
      titleLine, picked_append, picked_cons, picked_nil, picked_flatMap, refers_codeLines,
      Part.call?, Part.record?, Part.member?, List.map_eq_flatMap, List.filterMap_cons]

end Scaffold.Client
