import Scaffold.Check.Symbols

/-! # Configuration

The root block, and the provider blocks of authentication and of each integration. -/
namespace Scaffold.Check

open Scaffold.Source Scaffold.Model

def checkRoot (r : BlockDecl) : List Diagnostic :=
  let site : Site := ⟨r.file, .config, ""⟩
  let (props, ds) := checkProps site r.props ["name", "db"]
  ds ++
  (match lookup props "name" with
    | some p =>
      if (nameOf? p.value).isSome then []
      else [⟨site, p.value.pos, .configNameKind p.value.describe⟩]
    | none => []) ++
  (match lookup props "db" with
    | some p =>
      if (Database.ofName? (nameOf p.value)).isSome then []
      else [⟨site, p.value.pos, .unknownDatabase (nameOf p.value)⟩]
    | none => [])

/-- Whether a value is of the kind that a property takes. -/
def ofPropKind : PropKind → Value → Bool
  | .string, v => (nameOf? v).isSome
  | .secret, .string .. => true
  | .secret, .env .. => true
  | .int, .number raw _ => !raw.toList.contains '.'
  | .entity, v => (nameOf? v).isSome
  | _, _ => false

def checkPropKind (s : Symbols) (site : Site) (schema : ProviderSchema) (spec : PropSpec)
    (p : Property) : List Diagnostic :=
  if !ofPropKind spec.kind p.value then
    [⟨site, p.value.pos, .providerPropertyKind schema.block schema.provider p.key spec.kind
      p.value.describe⟩]
  else if spec.kind = .entity && (s.entity? (nameOf p.value)).isNone then
    [⟨site, p.value.pos,
      .userEntityUnresolved schema.block schema.provider p.key (nameOf p.value)⟩]
  else []

/-- The properties beside the provider itself; `seen` holds the keys before. -/
def checkProviderProps (s : Symbols) (site : Site) (schema : ProviderSchema) :
    List String → List Property → List Diagnostic
  | _, [] => []
  | seen, p :: ps =>
    if seen.contains p.key then
      ⟨site, p.pos, .providerRepeats schema.block schema.provider p.key⟩ ::
        checkProviderProps s site schema seen ps
    else
      (match schema.prop? p.key with
        | none => [⟨site, p.pos, .providerUnknownProperty schema.block schema.provider p.key⟩]
        | some spec => checkPropKind s site schema spec p) ++
      checkProviderProps s site schema (p.key :: seen) ps

/-- The properties without the first of a key. -/
def withoutFirst (key : String) (props : List Property) : List Property :=
  props.eraseP (·.key == key)

def checkProviderBlock (s : Symbols) (site : Site) (block : ProviderBlock) (at_ : Pos)
    (props : List Property) : List Diagnostic :=
  match lookup props "provider" with
  | none => [⟨site, at_, .providerMissing block⟩]
  | some p =>
    match ProviderSchema.find? block (nameOf p.value) with
    | none => [⟨site, p.value.pos, .providerUnknown block (nameOf p.value)⟩]
    | some schema =>
      checkProviderProps s site schema ["provider"] (withoutFirst "provider" props) ++
      (schema.required.filter fun key => !props.any (·.key == key)).map fun key =>
        ⟨site, at_, .providerRequires block schema.provider key⟩

def checkIntegration (s : Symbols) (site : Site) (props : List Property) (block : ProviderBlock) :
    List Diagnostic :=
  match lookup props block.name with
  | none => []
  | some ⟨_, p, .object members _⟩ => checkProviderBlock s site block p members
  | some p => [⟨site, p.value.pos, .integrationKind block p.value.describe⟩]

def checkIntegrations (s : Symbols) (d : BlockDecl) : List Diagnostic :=
  let site : Site := ⟨d.file, .config, "integrations"⟩
  let (props, ds) := checkProps site d.props ["email", "monitoring"]
  ds ++ [ProviderBlock.email, .monitoring].flatMap (checkIntegration s site props)

def checkConfig (s : Symbols) : List Diagnostic :=
  (s.root.map checkRoot).getD [] ++
  (s.auth.map fun a => checkProviderBlock s ⟨a.file, .config, "auth"⟩ .auth a.pos a.props).getD [] ++
  (s.integrations.map (checkIntegrations s)).getD []

end Scaffold.Check
