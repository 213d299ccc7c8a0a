import Scaffold.Check.Symbols
import Scaffold.Model.Name

/-! # Collisions of generated names

Different names in a source can be spelled alike in generated code. Each name that a block will
produce claims its place in a namespace; a place can be claimed once. -/
namespace Scaffold.Check

open Scaffold.Source Scaffold.Model
open Scaffold.Text (quoted snake)

/-- Who holds a name, and where it was declared. -/
structure Owner where
  what : String
  pos : Option Pos
  deriving DecidableEq, Repr

def Owner.text (o : Owner) : String :=
  match o.pos with
  | some p => o.what ++ " at " ++ p.text
  | none => o.what

/-- Names taken so far in one namespace. -/
abbrev Taken := List (String × Owner)

/-- A name that a declaration produces. -/
structure Claim where
  site : Site
  pos : Pos
  ident : String
  what : String
  deriving DecidableEq, Repr

def Claim.collision (space : String) (c : Claim) (holder : Owner) : Diagnostic :=
  ⟨c.site, c.pos, .nameCollision c.what space c.ident holder.text⟩

/-- Take a name, or report who holds it. -/
def Taken.claim (space : String) (taken : Taken) (c : Claim) : Taken × List Diagnostic :=
  match taken.lookup c.ident with
  | some holder => (taken, [c.collision space holder])
  | none => (taken ++ [(c.ident, ⟨c.what, some c.pos⟩)], [])

def Taken.claimAll (space : String) : Taken → List Claim → Taken × List Diagnostic
  | taken, [] => (taken, [])
  | taken, c :: cs =>
    let (taken, ds) := taken.claim space c
    let (taken, rest) := Taken.claimAll space taken cs
    (taken, ds ++ rest)

def packageSpace : String := "Go identifier"

def regionSpace : String := "region id prefix"

def columnSpace : String := "column"

def runtimeOwners : Taken := runtimeNames.map fun name => (name, ⟨"the workflow runtime", none⟩)

/-- The members of a list with the first of each key. -/
def firstOf {α : Type} (key : α → String) : List String → List α → List α
  | _, [] => []
  | seen, x :: xs =>
    if seen.contains (key x) then firstOf key seen xs else x :: firstOf key (key x :: seen) xs

/-- Fields that differ in the source but share a column. -/
def columnClaims (site : Site) (e : EntityDecl) : List Claim :=
  (firstOf FieldDecl.name [] e.fields).map fun f =>
    ⟨site, f.pos, snake f.name, s!"field {e.name}.{f.name}"⟩

def resolverClaims (site : Site) (e : EntityDecl) : List Claim :=
  (e.fields.filter isComputed).map fun f =>
    ⟨site, f.pos, resolverName e.name f.name, s!"field {e.name}.{f.name}"⟩

def enumClaims (site : Site) (e : EnumDecl) : List Claim :=
  ⟨site, e.pos, typeName e.name, "enum " ++ quoted e.name⟩ ::
    (firstOf EnumValue.name [] e.values).map fun v =>
      ⟨site, v.pos, enumConstName e.name v.name, s!"value {e.name}.{v.name}"⟩

/-- The members of a view that are formulas. -/
def viewFormulas (v : BlockDecl) : List Property :=
  match lookup v.props "fields" with
  | some ⟨_, _, .object members _⟩ =>
    firstOf Entry.key [] (members.filter fun p => match p.value with
      | .string .. => true
      | _ => false)
  | _ => []

def viewClaims (site : Site) (v : BlockDecl) : List Claim :=
  ⟨site, v.pos, typeName v.name, "view " ++ quoted v.name⟩ ::
    (viewFormulas v).map fun p =>
      ⟨site, p.pos, resolverName v.name p.key, s!"field {v.name}.{p.key}"⟩

/-- The names of a block, beside those of the blocks before it: identifiers of the package and
regions of workflow steps. -/
def claimDecl (s : Symbols) (package regions : Taken) (d : Decl) :
    (Taken × Taken) × List Diagnostic :=
  let site := siteOf d
  match d with
  | .entity e =>
    let own : Claim := ⟨site, e.pos, typeName e.name, "entity " ++ quoted e.name⟩
    let (package, typeDs) := package.claim packageSpace own
    let columnDs := (Taken.claimAll columnSpace [] (columnClaims site e)).2
    let (package, resolverDs) := package.claimAll packageSpace (resolverClaims site e)
    ((package, regions), typeDs ++ columnDs ++ resolverDs)
  | .enum e =>
    let (package, ds) := package.claimAll packageSpace (enumClaims site e)
    ((package, regions), ds)
  | .view v =>
    if (s.entity? v.name).isSome then ((package, regions), [])
    else
      let (package, ds) := package.claimAll packageSpace (viewClaims site v)
      ((package, regions), ds)
  | .workflow w =>
    let what := "workflow " ++ quoted w.name
    let (package, ds) := package.claim packageSpace ⟨site, w.pos, handlerName w.name, what⟩
    if ds.isEmpty then
      let (regions, ds) := regions.claim regionSpace ⟨site, w.pos, stepRegion w.name 1, what⟩
      ((package, regions), ds)
    else ((package, regions), ds)
  | _ => ((package, regions), [])

def claimDecls (s : Symbols) : Taken → Taken → List Decl → List Diagnostic
  | _, _, [] => []
  | package, regions, d :: ds =>
    let ((package, regions), own) := claimDecl s package regions d
    own ++ claimDecls s package regions ds

/-- Names that the generated routes module declares. -/
def routesModuleNames : List String := ["ComponentType", "RouteDef", "routes", "canAccess"]

def checkPageName (p : BlockDecl) : List Diagnostic :=
  let site : Site := ⟨p.file, .page, p.name⟩
  if routesModuleNames.contains p.name then [⟨site, p.pos, .pageNameTaken p.name⟩]
  else match lookup p.props "component" with
    | none => []
    | some c =>
      match nameOf? c.value with
      | some component =>
        if component = p.name ++ "Page" then
          [⟨site, c.value.pos, .componentNameTaken p.name component⟩]
        else []
      | none => []

def checkGeneratedNames (s : Symbols) : List Diagnostic :=
  claimDecls s runtimeOwners [] s.decls ++ s.pages.flatMap checkPageName

end Scaffold.Check
