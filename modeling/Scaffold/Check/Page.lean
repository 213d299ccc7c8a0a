import Scaffold.Check.Role
import Scaffold.Check.Typing
import Scaffold.Model.Name

/-! # Pages, views and workflows -/
namespace Scaffold.Check

open Scaffold.Source Scaffold.Model

/-! ## Pages -/

def pageKeys : List String :=
  ["type", "entity", "route", "title", "permissions", "columns", "fields", "component"]

def checkPermissions (known : List String) (site : Site) (p : Property) : List Diagnostic :=
  match p.value with
  | .array elems _ => elems.flatMap fun el =>
      match nameOf? el with
      | none => [⟨site, el.pos, .permissionKind site.name el.describe⟩]
      | some role =>
        if known.contains role then [] else [⟨site, el.pos, .roleUnknown site.name role known⟩]
  | v => [⟨site, v.pos, .permissionsKind site.name⟩]

/-- The field names of a page; a form has no computed fields. -/
def checkFieldList (site : Site) (e : EntityDecl) (p : Property) (editable : Bool) :
    List Diagnostic :=
  match p.value with
  | .array elems _ => elems.flatMap fun el =>
      match nameOf? el with
      | none => [⟨site, el.pos, .fieldListEntry site.name p.key⟩]
      | some name =>
        match findField? e name with
        | none => [⟨site, el.pos, .pageFieldUnknown site.name e.name name⟩]
        | some f =>
          if editable && isComputed f then [⟨site, el.pos, .virtualFormField site.name name⟩]
          else []
  | v => [⟨site, v.pos, .fieldListKind site.name p.key⟩]

def checkPageType (site : Site) (p : BlockDecl) (props : List Property) :
    Option PageKind × List Diagnostic :=
  match lookup props "type" with
  | none => (none, [⟨site, p.pos, .pageTypeMissing p.name⟩])
  | some t =>
    match PageKind.ofName? (nameOf t.value) with
    | some kind => (some kind, [])
    | none => (none, [⟨site, t.value.pos, .pageTypeUnknown p.name (nameOf t.value)⟩])

/-- The entity of a page. One that is not declared is reported once, and what depends on it is
left unchecked. -/
def checkPageEntity (s : Symbols) (site : Site) (p : BlockDecl) (props : List Property)
    (kind : Option PageKind) : Option EntityDecl × List Diagnostic :=
  match lookup props "entity" with
  | some q =>
    match s.entity? (nameOf q.value) with
    | none => (none, [⟨site, q.value.pos, .pageEntityUnresolved p.name (nameOf q.value)⟩])
    | some e =>
      (some e,
        if kind = some .details && !hasPrimaryKey e then
          [⟨site, q.value.pos, .pageEntityWithoutKey p.name e.name⟩]
        else [])
  | none =>
    match kind with
    | none | some .custom => (none, [])
    | some k => (none, [⟨site, p.pos, .pageEntityMissing p.name k⟩])

def checkComponent (site : Site) (p : BlockDecl) (props : List Property) : List Diagnostic :=
  match lookup props "component" with
  | none => [⟨site, p.pos, .pageComponentMissing p.name⟩]
  | some c =>
    if (nameOf? c.value).isSome then []
    else [⟨site, c.pos, .pageComponentKind p.name c.value.describe⟩]

/-- The route of a page: the one it gives, if that is valid, else the default. -/
def checkRoute (site : Site) (p : BlockDecl) (props : List Property) :
    String × List Diagnostic :=
  match lookup props "route" with
  | none => (defaultRoute p.name, [])
  | some ⟨_, _, .string text at_⟩ =>
    if text.startsWith "/" then (text, [])
    else (defaultRoute p.name, [⟨site, at_, .pageRouteInvalid p.name⟩])
  | some r => (defaultRoute p.name, [⟨site, r.value.pos, .pageRouteInvalid p.name⟩])

def checkTitle (site : Site) (p : BlockDecl) (props : List Property) : List Diagnostic :=
  match lookup props "title" with
  | none | some ⟨_, _, .string ..⟩ => []
  | some t => [⟨site, t.value.pos, .pageTitleKind p.name t.value.describe⟩]

/-- A list of fields that pages of one kind may give. -/
def checkListed (site : Site) (p : BlockDecl) (props : List Property) (kind : Option PageKind)
    (entity : Option EntityDecl) (key : String) (only : PageKind) (editable : Bool) :
    List Diagnostic :=
  match lookup props key with
  | none => []
  | some q =>
    if kind.any (· ≠ only) then [⟨site, q.pos, .misplacedProperty p.name key only⟩]
    else match entity with
      | some e => checkFieldList site e q editable
      | none => []

/-- One page beside the routes taken by the pages before it. -/
def checkPage (s : Symbols) (known : List String) (routes : List (String × String))
    (p : BlockDecl) : List (String × String) × List Diagnostic :=
  let site : Site := ⟨p.file, .page, p.name⟩
  let (props, ds) := checkProps site p.props pageKeys
  let (kind, typeDs) := checkPageType site p props
  let (entity, entityDs) := checkPageEntity s site p props kind
  let componentDs := if kind = some .custom then checkComponent site p props else []
  let (route, routeDs) := checkRoute site p props
  let (routes, takenDs) : List (String × String) × List Diagnostic :=
    match routes.lookup route with
    | some other => (routes, [⟨site, p.pos, .pageRouteTaken p.name route other⟩])
    | none => (routes ++ [(route, p.name)], [])
  (routes,
    ds ++ typeDs ++ entityDs ++ componentDs ++ routeDs ++ takenDs ++
      checkTitle site p props ++
      ((lookup props "permissions").map (checkPermissions known site)).getD [] ++
      checkListed site p props kind entity "columns" .table false ++
      checkListed site p props kind entity "fields" .form true)

def checkPages (s : Symbols) (known : List String) :
    List (String × String) → List BlockDecl → List Diagnostic
  | _, [] => []
  | routes, p :: ps =>
    let (routes, ds) := checkPage s known routes p
    ds ++ checkPages s known routes ps

/-! ## Views -/

def checkViewField (s : Symbols) (site : Site) (e : EntityDecl) (p : Property) :
    List Diagnostic :=
  match p.value with
  | .ident path at_ =>
    match path with
    | [name] =>
      match findField? e name with
      | none => [⟨site, at_, .viewUnknownField site.name p.key name e.name⟩]
      | some f =>
        if (s.fieldType? f.type).any (·.list) then
          [⟨site, at_, .viewListField site.name p.key f.name⟩]
        else []
    | _ => [⟨site, at_, .viewFieldPath site.name p.key e.name⟩]
  | .string source at_ =>
    match parseFormula (Text.runes source) with
    | .error err => [⟨site, at_, .viewFormula site.name p.key source err⟩]
    | .ok formula =>
      match formula.refs.filter fun (name, _) => (findField? e name).isNone with
      | [] =>
        match typeOf (fieldKind? s e) formula with
        | .error err => [⟨site, at_, .viewTyping site.name p.key err⟩]
        | .ok _ => []
      | missing => missing.map fun (name, _) =>
          ⟨site, at_, .viewUnknownField site.name p.key name e.name⟩
  | v => [⟨site, v.pos, .viewFieldKind site.name p.key v.describe⟩]

def checkViewFields (s : Symbols) (site : Site) (v : BlockDecl) (source : Option EntityDecl)
    (fields : Option Property) : List Diagnostic :=
  match fields with
  | none => [⟨site, v.pos, .viewFieldsMissing v.name⟩]
  | some ⟨_, _, .object members at_⟩ =>
    if members.isEmpty then [⟨site, at_, .viewFieldsKind v.name⟩]
    else
      let (members, ds) := checkKeys site members
      ds ++ match source with
        | none => []
        | some e => members.flatMap (checkViewField s site e)
  | some p => [⟨site, p.value.pos, .viewFieldsKind v.name⟩]

def checkView (s : Symbols) (v : BlockDecl) : List Diagnostic :=
  let site : Site := ⟨v.file, .view, v.name⟩
  let (props, ds) := checkProps site v.props ["source", "fields"]
  let (source, sourceDs) : Option EntityDecl × List Diagnostic :=
    match lookup props "source" with
    | none => (none, [⟨site, v.pos, .viewSourceMissing v.name⟩])
    | some p =>
      match s.entity? (nameOf p.value) with
      | some e => (some e, [])
      | none => (none, [⟨site, p.value.pos, .viewSourceUnresolved v.name (nameOf p.value)⟩])
  ds ++ sourceDs ++ checkViewFields s site v source (lookup props "fields")

/-! ## Workflows -/

mutual

/-- An input of a step: no calls, and a dotted path starts at the trigger. -/
def checkInput (site : Site) (action key : String) : Value → List Diagnostic
  | .ident path p =>
    if path.length > 1 && path.head? ≠ some "trigger" then
      [⟨site, p, .inputPath site.name action key (dotted path)⟩]
    else []
  | .call _ _ p => [⟨site, p, .inputCall site.name action key⟩]
  | .array elems _ => checkElems site action key elems
  | .object props _ => checkMembers site action key props
  | _ => []

def checkElems (site : Site) (action key : String) : List Value → List Diagnostic
  | [] => []
  | v :: vs => checkInput site action key v ++ checkElems site action key vs

def checkMembers (site : Site) (action key : String) : List (Entry Value) → List Diagnostic
  | [] => []
  | ⟨name, _, v⟩ :: ps =>
    checkInput site action (key ++ "." ++ name) v ++ checkMembers site action key ps

end

def checkStep (file : String) (site : Site) (st : StepDecl) : List Diagnostic :=
  (checkKeys ⟨file, .step, st.action⟩ st.inputs).2 ++
    st.inputs.flatMap fun p => checkInput site st.action p.key p.value

def checkTrigger (site : Site) (w : WorkflowDecl) (props : List Property) : List Diagnostic :=
  match lookup props "trigger" with
  | none => [⟨site, w.pos, .triggerMissing w.name⟩]
  | some p =>
    match p.value with
    | .string text at_ => if text = "" then [⟨site, at_, .triggerEmpty w.name⟩] else []
    | .ident .. => []
    | v => [⟨site, v.pos, .triggerKind w.name v.describe⟩]

def checkWorkflow (w : WorkflowDecl) : List Diagnostic :=
  let site : Site := ⟨w.file, .workflow, w.name⟩
  let (props, ds) := checkProps site w.props ["trigger"]
  ds ++ checkTrigger site w props ++
    (if w.steps.isEmpty then [⟨site, w.pos, .stepsMissing w.name⟩] else []) ++
    w.steps.flatMap (checkStep w.file site)

end Scaffold.Check
