import Scaffold.Build.Entity
import Scaffold.Model.Provider
import Scaffold.Number.Double
import Scaffold.Text.Digits

/-! # Pages, views, workflows and configuration of the model -/
namespace Scaffold.Build

open Scaffold.Source Scaffold.Check Scaffold.Model
open Scaffold.Number (minInt64 maxInt64)
open Scaffold.Text (digits?)

/-- A name, bare, dotted or as a string. -/
def label? : Value → Option String
  | .ident path _ => some (dotted path)
  | .string text _ => some text
  | _ => none

def label (v : Value) : String := (label? v).getD ""

def labels : Value → List String
  | .array elems _ => elems.filterMap label?
  | _ => []

/-- The text of a property, if it is given. -/
def textOf (props : List Property) (key : String) : Option String :=
  (lookup props key).map fun p => label p.value

/-! ## Pages -/

/-- The columns of a table that lists none: stored fields without passwords. -/
def defaultColumns (e : Entity) : List String :=
  (e.storedFields.filter (·.type.kind ≠ .password)).map (·.name)

/-- The fields of a form that lists none: stored fields without the key. -/
def defaultFormFields (e : Entity) : List String :=
  (e.storedFields.filter (!·.primaryKey)).map (·.name)

def listed (props : List Property) (key : String) : Option (List String) :=
  (lookup props key).map fun p => labels p.value

def buildPage (entities : List Entity) (p : BlockDecl) : Page :=
  let kind := ((textOf p.props "type").bind PageKind.ofName?).getD .custom
  let entityName := (textOf p.props "entity").getD ""
  let entity := entities.find? (·.name == entityName)
  let columns := (listed p.props "columns").getD
    (if kind = .table then (entity.map defaultColumns).getD [] else [])
  let fields := (listed p.props "fields").getD
    (if kind = .form then (entity.map defaultFormFields).getD [] else [])
  { name := p.name
    kind := kind
    route := (textOf p.props "route").getD (defaultRoute p.name)
    entity := entityName
    title := (textOf p.props "title").getD p.name
    permissions := (listed p.props "permissions").getD []
    columns := columns
    fields := fields
    component := (textOf p.props "component").getD "" }

/-! ## Views -/

def buildViewField (kindOf : String → Option TypeKind) (view : String) (p : Property) :
    Option ViewField :=
  let resolver := resolverName view p.key
  match p.value with
  | .ident path _ =>
    let field := dotted path
    some ⟨p.key, .ref field, (kindOf field).getD .none, resolver⟩
  | .string source _ => do
    let formula ← (parseFormula (Text.runes source)).toOption
    some ⟨p.key, .formula source (lower kindOf formula), formulaKind kindOf formula, resolver⟩
  | _ => none

def buildView (s : Symbols) (v : BlockDecl) : View :=
  let source := (textOf v.props "source").getD ""
  let kindOf := match s.entity? source with
    | some e => declaredKind s e
    | none => fun _ => none
  let fields := match lookup v.props "fields" with
    | some ⟨_, _, .object members _⟩ => members.filterMap (buildViewField kindOf v.name)
    | _ => []
  ⟨v.name, source, fields⟩

/-! ## Workflows -/

def buildInput (p : Property) : Input :=
  match p.value with
  | .ident ("trigger" :: path) _ => ⟨p.key, .trigger path⟩
  | .env var _ => ⟨p.key, .env var⟩
  | v => ⟨p.key, .literal (literalValue v)⟩

def buildWorkflow (w : WorkflowDecl) : Workflow :=
  { name := w.name
    event := (textOf w.props "trigger").getD ""
    steps := w.steps.map fun st => ⟨st.action, st.inputs.map buildInput⟩ }

/-! ## Configuration -/

def secretOf (props : List Property) (key : String) : Secret :=
  match lookup props key with
  | some ⟨_, _, .env var _⟩ => .ofEnv var
  | some ⟨_, _, .string text _⟩ => .ofLiteral text
  | _ => .none

/-- A whole number, kept within 64 bits; zero if the text is none. -/
def clampedInt (raw : String) : Int :=
  match raw.toList with
  | '-' :: digits => ((digits? (String.ofList digits)).map fun n => max minInt64 (-(n : Int))).getD 0
  | _ => ((digits? raw).map fun n => min maxInt64 (n : Int)).getD 0

def intOf (props : List Property) (key : String) : Int :=
  match lookup props key with
  | some ⟨_, _, .number raw _⟩ => clampedInt raw
  | _ => 0

/-- The environment variable of the token secret, when none is given. -/
def defaultTokenSecret : Secret := .ofEnv "JWT_SECRET"

def buildAuth (props : List Property) : Option Auth :=
  let text key := (textOf props key).getD ""
  let secret := secretOf props
  match text "provider" with
  | "jwt" =>
    let given := secret "secret"
    some (.jwt (text "userEntity") (if given.isNone then defaultTokenSecret else given)
      (text "expiresIn"))
  | "clerk" => some (.clerk (text "userEntity") (secret "publishableKey") (secret "secretKey"))
  | "auth0" =>
    some (.auth0 (text "userEntity") (text "domain") (text "clientId") (secret "clientSecret")
      (text "audience"))
  | _ => none

def buildEmail (props : List Property) : Option Email :=
  let text key := (textOf props key).getD ""
  let secret := secretOf props
  match text "provider" with
  | "sendgrid" => some (.sendgrid (secret "apiKey") (text "from"))
  | "smtp" =>
    some (.smtp (text "host") (intOf props "port") (text "user") (secret "password") (text "from"))
  | "resend" => some (.resend (secret "apiKey") (text "from"))
  | _ => none

def buildMonitoring (props : List Property) : Option Monitoring :=
  let text key := (textOf props key).getD ""
  let secret := secretOf props
  match text "provider" with
  | "sentry" => some (.sentry (secret "dsn") (text "environment"))
  | "datadog" => some (.datadog (secret "apiKey") (text "site"))
  | _ => none

/-- The properties of an integration. -/
def integrationProps (s : Symbols) (block : ProviderBlock) : Option (List Property) := do
  let d ← s.integrations
  match ← lookup d.props block.name with
  | ⟨_, _, .object members _⟩ => some members
  | _ => none

def buildConfig (s : Symbols) : Config :=
  { database := ((s.root.bind (textOf ·.props "db")).bind Database.ofName?).getD .sqlite
    auth := s.auth.bind (buildAuth ·.props)
    email := (integrationProps s .email).bind buildEmail
    monitoring := (integrationProps s .monitoring).bind buildMonitoring }

end Scaffold.Build
