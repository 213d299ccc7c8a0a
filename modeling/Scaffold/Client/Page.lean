import Scaffold.Client.Script
import Scaffold.Output.Region

/-! # Pages of the client

A page shows a component of its own, a table of records, a form for a new record, or the details
of one record. Every page has a custom region before what it shows. -/
namespace Scaffold.Client

open Scaffold.Rest
open Scaffold.Text (unlines pascal quoted)

def resourceFields (s : Schema) (entity : String) : List ResourceField :=
  ((s.resources.find? (·.name == entity)).map (·.fields)).getD []

def hasOperation (s : Schema) (entity id : String) : Bool :=
  s.resources.any fun r => r.name == entity && r.operations.any (·.id == id)

def inputType? (f : ResourceField) : Option String :=
  match f.type with
  | .int | .decimal => some "number"
  | .boolean => some "checkbox"
  | .dateTime => some "datetime-local"
  | .password => some "password"
  | _ => none

/-- The kind of input for a field of a form. -/
def inputType (s : Schema) (entity field : String) : String :=
  (((resourceFields s entity).filter (·.name == field)).findSome? inputType?).getD "text"

def pageRegion (p : PageAccess) : String := Output.region "  //" p.name ""

def reactImport (names : String) : String := "import \x7b " ++ names ++ " \x7d from \"react\";"

def clientImport (type : String) : String :=
  "import \x7b api, type " ++ type ++ " \x7d from \"../api/client\";"

def customPage (p : PageAccess) : String :=
  unlines (header ++
    ["import " ++ p.component ++ " from \"../components/" ++ p.component ++ "\";",
      "",
      "export default function " ++ p.name ++ "Page() \x7b"]) ++
  pageRegion p ++
  unlines ["  return <" ++ p.component ++ " />;", "\x7d"]

def tablePage (p : PageAccess) : String :=
  let type := pascal p.entity
  unlines (header ++
    [reactImport "useEffect, useState",
      clientImport type,
      "",
      "export default function " ++ p.name ++ "Page() \x7b",
      "  const [rows, setRows] = useState<" ++ type ++ "[]>([]);",
      "  useEffect(() => \x7b",
      "    api.list" ++ type ++ "().then(setRows);",
      "  \x7d, []);"]) ++
  pageRegion p ++
  unlines (
    ["  return (",
      "    <section>",
      "      <h1>" ++ markupText p.title ++ "</h1>",
      "      <table>",
      "        <thead>",
      "          <tr>"] ++
    p.columns.map (fun c => "            <th>" ++ c ++ "</th>") ++
    ["          </tr>",
      "        </thead>",
      "        <tbody>",
      "          \x7brows.map((row, i) => (",
      "            <tr key=\x7bi\x7d>"] ++
    p.columns.map (fun c => "              <td>\x7bString(row." ++ c ++ " ?? \"\")\x7d</td>") ++
    ["            </tr>",
      "          ))\x7d",
      "        </tbody>",
      "      </table>",
      "    </section>",
      "  );",
      "\x7d"])

def formInput (s : Schema) (entity field : String) : List String :=
  ["      <label>",
    "        " ++ field,
    "        <input type=" ++ quoted (inputType s entity field) ++ " name=" ++ quoted field ++
      " onChange=\x7b(e) => setData(\x7b ...data, " ++ field ++ ": e.target.value \x7d)\x7d />",
    "      </label>"]

def formPage (s : Schema) (p : PageAccess) : String :=
  let type := pascal p.entity
  unlines (header ++
    [reactImport "useState",
      clientImport type,
      "",
      "export default function " ++ p.name ++ "Page() \x7b",
      "  const [data, setData] = useState<Partial<" ++ type ++ ">>(\x7b\x7d);"]) ++
  pageRegion p ++
  unlines (
    ["  return (",
      "    <form",
      "      onSubmit=\x7b(e) => \x7b",
      "        e.preventDefault();",
      "        api.create" ++ type ++ "(data);",
      "      \x7d\x7d",
      "    >",
      "      <h1>" ++ markupText p.title ++ "</h1>"] ++
    p.fields.flatMap (formInput s p.entity) ++
    ["      <button type=\"submit\">Save</button>",
      "    </form>",
      "  );",
      "\x7d"])

def detailsPage (s : Schema) (p : PageAccess) : String :=
  let type := pascal p.entity
  unlines (header ++
    [reactImport "useEffect, useState",
      clientImport type,
      "",
      "export default function " ++ p.name ++ "Page(\x7b id \x7d: \x7b id: string \x7d) \x7b",
      "  const [record, setRecord] = useState<" ++ type ++ " | null>(null);",
      "  useEffect(() => \x7b",
      "    api.get" ++ type ++ "(id).then(setRecord);",
      "  \x7d, [id]);"]) ++
  pageRegion p ++
  unlines (
    ["  if (!record) \x7b",
      "    return null;",
      "  \x7d",
      "  return (",
      "    <section>",
      "      <h1>" ++ markupText p.title ++ "</h1>",
      "      <dl>"] ++
    ((resourceFields s p.entity).filter (!·.writeOnly)).flatMap (fun f =>
      ["        <dt>" ++ f.name ++ "</dt>",
        "        <dd>\x7bString(record." ++ f.name ++ " ?? \"\")\x7d</dd>"]) ++
    ["      </dl>",
      "    </section>",
      "  );",
      "\x7d"])

def pageScript (s : Schema) (p : PageAccess) : String :=
  match p.kind with
  | "custom" => customPage p
  | "table" => tablePage p
  | "form" => formPage s p
  | _ => detailsPage s p

end Scaffold.Client
