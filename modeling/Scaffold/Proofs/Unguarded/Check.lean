import Scaffold.Check.Validate
import Scaffold.Proofs.Check.Entity
import Scaffold.Proofs.Unguarded.Text

/-! # Checks without a guard

A check follows references that an earlier lookup has already found: the enum behind a type, the
attribute behind a formula, the property that named an entity. -/
namespace Scaffold.Unguarded

open Scaffold.Source Scaffold.Model Scaffold.Check

theorem mapM_flatten {α β : Type} {f : α → Option (List β)} {g : α → List β} {xs : List α}
    (h : ∀ x ∈ xs, f x = some (g x)) : (xs.mapM f).map List.flatten = some (xs.flatMap g) := by
  rw [mapM_eq_some h, Option.map_some, List.flatMap_def]

/-! ## Names -/

/-- A single name, bare or as a string. The one part of a bare name is taken by its index. -/
def nameOf? : Value → Option (Option String)
  | .ident path _ => if path.length = 1 then (path[0]?).map some else some none
  | .string text _ => some (some text)
  | _ => some none

theorem nameOf?_eq (v : Value) : nameOf? v = some (Check.nameOf? v) := by
  cases v with
  | ident path p =>
    match path with
    | [] | [_] | _ :: _ :: _ => simp [nameOf?, Check.nameOf?]
  | _ => rfl

/-- Whether a dotted path starts elsewhere than at the trigger. -/
def strays? (path : List String) : Option Bool :=
  if path.length > 1 then (path[0]?).map fun head => decide (head ≠ "trigger") else some false

theorem strays?_eq (path : List String) :
    strays? path = some (path.length > 1 && path.head? ≠ some "trigger") := by
  match path with
  | [] | [_] | _ :: _ :: _ => simp [strays?]

/-! ## Entities -/

/-- Whether a literal can be a default; the values of an enum are read behind its type. -/
def literalFits? (s : Symbols) (t : FieldType) (v : Value) : Option Bool :=
  if t.list = false ∧ t.kind = .enum then do
    match ← nameOf? v with
    | none => some false
    | some name =>
      let e ← s.enum? t.ref
      some (e.values.any (·.name == name))
  else some (literalFits s t v)

def checkDefault? (s : Symbols) (site : Site) (f : FieldDecl) (t : FieldType) (v : Value) :
    Option (List Diagnostic) :=
  match v with
  | .call .. => some (checkDefault s site f t v)
  | v => do
    let fits ← literalFits? s t v
    some (if fits then [] else [⟨site, v.pos, .defaultType f.name v.describe t⟩])

def checkField? (s : Symbols) (site : Site) (f : FieldDecl) : Option (List Diagnostic) :=
  match s.fieldType? f.type with
  | none =>
    if f.type.name = TypeKind.enum.name then some [⟨site, f.type.pos, .bareEnum f.name⟩]
    else some [⟨site, f.type.pos, .unknownType f.name f.type.name⟩]
  | some t => do
    let defaultDs ← match f.default with
      | some v => if (attribute? f "virtual").isNone then checkDefault? s site f t v else some []
      | none => some []
    some
      ((if t.list && t.kind ≠ .relation then [⟨site, f.type.pos, .listOfScalar f.name t⟩]
        else []) ++
      (if f.primaryKey && (t.kind = .relation || f.optional) then
        [⟨site, f.pos, .invalidPrimaryKey f.name⟩] else []) ++
      (if t.kind = .relation && (s.entity? t.ref).any (!hasPrimaryKey ·) then
        [⟨site, f.type.pos, .targetWithoutKey f.name t.ref⟩] else []) ++
      checkAttributes site f t [] f.attributes ++ defaultDs)

def checkFields? (s : Symbols) (site : Site) (e : EntityDecl) :
    List FieldDecl → List FieldDecl → Option (List Diagnostic)
  | _, [] => some []
  | seen, f :: rest => do
    let fieldDs ← checkField? s site f
    let restDs ← checkFields? s site e (seen ++ [f]) rest
    some
      ((match seen.find? (·.name == f.name) with
        | some first => [⟨site, f.pos, .repeatedField e.name f.name first.pos⟩]
        | none => []) ++
      (match f.primaryKey, seen.find? (·.primaryKey) with
        | true, some key => [⟨site, f.pos, .secondPrimaryKey e.name key.name⟩]
        | _, _ => []) ++
      f.repeated.map (fun m => ⟨site, f.pos, .repeatedModifier f.name m⟩) ++ fieldDs ++ restDs)

/-- The relations to one target; the first of several is taken by its index. -/
def checkGroup? (site : Site) (e : EntityDecl) (relations : List (String × FieldDecl))
    (target : String) : Option (List Diagnostic) :=
  let fields := (relations.filter (·.1 == target)).map (·.2)
  let limit := if target = e.name then 2 else 1
  if fields.length < 2 then some []
  else if labelsDistinct limit (fields.map relationLabel) then some []
  else do
    let first ← fields[0]?
    some [⟨site, first.pos, .ambiguousRelations e.name target (fields.map (·.name))⟩]

def checkRelationGroups? (s : Symbols) (site : Site) (e : EntityDecl) :
    Option (List Diagnostic) :=
  let relations := relationFields s e
  ((distinct (relations.map (·.1))).mapM (checkGroup? site e relations)).map List.flatten

/-- The computed fields of an entity. Where the formula stands is read behind the attribute. -/
def computedFields? (s : Symbols) (site : Site) (e : EntityDecl) :
    List FieldDecl → Option (List Computed × List Diagnostic)
  | [] => some ([], [])
  | f :: fs => do
    let (cs, ds) ← computedFields? s site e fs
    match formulaSource? f with
    | none => some (cs, ds)
    | some (source, _) => do
      let a ← attribute? f "virtual"
      let q ← a.arg "from"
      let p := q.value.pos
      match parseFormula (Text.runes source) with
      | .error err => some (cs, ⟨site, p, .virtualFormula f.name source err⟩ :: ds)
      | .ok formula => some (⟨f, p, formula⟩ :: cs, checkComputed s site e ⟨f, p, formula⟩ ++ ds)

def checkComputedFields? (s : Symbols) (site : Site) (e : EntityDecl) :
    Option (List Diagnostic) := do
  let (cs, ds) ← computedFields? s site e e.fields
  let deps := cs.flatMap (computedRefs e)
  some (ds ++ (cs.filter fun c => dependsOnItself deps c.field.name).map fun c =>
    ⟨site, c.field.pos, .virtualCycle c.field.name⟩)

def checkEntity? (s : Symbols) (e : EntityDecl) : Option (List Diagnostic) := do
  let site : Site := ⟨e.file, .entity, e.name⟩
  let fieldDs ← checkFields? s site e [] e.fields
  let groupDs ← checkRelationGroups? s site e
  let computedDs ← checkComputedFields? s site e
  some (fieldDs ++ groupDs ++ computedDs)

/-- The enum behind the type of a field is declared. -/
theorem literalFits?_eq {s : Symbols} {r : TypeRef} {t : FieldType} (h : s.fieldType? r = some t)
    (v : Value) : literalFits? s t v = some (literalFits s t v) := by
  unfold literalFits?
  split
  next hkind =>
    have henum : ∃ e, s.enum? t.ref = some e := by
      rcases fieldType?_cases h with ⟨k, hk, rfl⟩ | ⟨e, he, hname, rfl⟩ | ⟨e, -, rfl⟩
      · obtain ⟨-, rfl⟩ := hkind
        exact absurd hk (by decide)
      · have hsome : (s.enum? r.name).isSome = true :=
          List.find?_isSome.mpr ⟨e, he, by simp [hname]⟩
        exact Option.isSome_iff_exists.mp hsome
      · simp at hkind
    obtain ⟨e, he⟩ := henum
    rw [nameOf?_eq, literalFits, hkind.1, he]
    · cases Check.nameOf? v <;> rfl
    · exact hkind.2
  next => rfl

theorem checkField?_eq (s : Symbols) (site : Site) (f : FieldDecl) :
    checkField? s site f = some (checkField s site f) := by
  unfold checkField? checkField
  cases ht : s.fieldType? f.type with
  | none =>
    dsimp only
    split <;> rfl
  | some t =>
    cases hd : f.default with
    | none => rfl
    | some v =>
      dsimp only
      split
      next =>
        have hdefault : checkDefault? s site f t v = some (checkDefault s site f t v) := by
          cases v with
          | call => rfl
          | _ => simp only [checkDefault?, checkDefault, literalFits?_eq ht, Option.bind_eq_bind,
              Option.bind_some]
        rw [hdefault]
        rfl
      next => rfl

theorem checkFields?_eq (s : Symbols) (site : Site) (e : EntityDecl) (seen fs : List FieldDecl) :
    checkFields? s site e seen fs = some (checkFields s site e seen fs) := by
  induction fs generalizing seen with
  | nil => rfl
  | cons f fs ih =>
    simp only [checkFields?, checkField?_eq, ih, Option.bind_eq_bind, Option.bind_some]
    rfl

theorem checkRelationGroups?_eq (s : Symbols) (site : Site) (e : EntityDecl) :
    checkRelationGroups? s site e = some (checkRelationGroups s site e) := by
  refine mapM_flatten fun target _ => ?_
  unfold checkGroup?
  dsimp only
  generalize ((relationFields s e).filter (·.1 == target)).map (·.2) = fields
  generalize (if target = e.name then 2 else 1) = limit
  match fields with
  | [] | [_] => rfl
  | first :: second :: rest =>
    rw [if_neg (by simp)]
    dsimp only
    split <;> rfl

/-- A formula stands behind an attribute with the argument that holds it. -/
theorem formulaSource?_eq_some {f : FieldDecl} {source : String} {p : Pos}
    (h : formulaSource? f = some (source, p)) :
    ∃ a q, attribute? f "virtual" = some a ∧ a.arg "from" = some q ∧ q.value.pos = p := by
  unfold formulaSource? at h
  split at h
  next key at_ text q hq =>
    cases h
    obtain ⟨a, ha, hq⟩ := Option.bind_eq_some_iff.mp hq
    exact ⟨a, _, ha, hq, rfl⟩
  next => cases h

theorem computedFields?_eq (s : Symbols) (site : Site) (e : EntityDecl) (fs : List FieldDecl) :
    computedFields? s site e fs = some (computedFields s site e fs) := by
  induction fs with
  | nil => rfl
  | cons f fs ih =>
    rw [computedFields?, ih, computedFields]
    cases hsource : formulaSource? f with
    | none => rfl
    | some found =>
      obtain ⟨source, p⟩ := found
      obtain ⟨a, q, ha, hq, rfl⟩ := formulaSource?_eq_some hsource
      simp only [ha, hq, Option.bind_eq_bind, Option.bind_some]
      cases parseFormula (Text.runes source) <;> rfl

theorem checkEntity?_eq (s : Symbols) (e : EntityDecl) :
    checkEntity? s e = some (checkEntity s e) := by
  simp only [checkEntity?, checkFields?_eq, checkRelationGroups?_eq, checkComputedFields?,
    computedFields?_eq, Option.bind_eq_bind, Option.bind_some]
  rfl

/-! ## Pages and views -/

/-- The entity that a page names. -/
def pageEntity (s : Symbols) (props : List Property) : Option EntityDecl :=
  (lookup props "entity").bind fun q => s.entity? (nameOf q.value)

/-- The key of the entity of a page. The property is looked up again once the entity is found. -/
def checkPageKey? (s : Symbols) (site : Site) (p : BlockDecl) (props : List Property)
    (kind : Option PageKind) : Option (List Diagnostic) :=
  match pageEntity s props with
  | none => some []
  | some e =>
    if kind = some .details && !hasPrimaryKey e then do
      let q ← lookup props "entity"
      some [⟨site, q.value.pos, .pageEntityWithoutKey p.name e.name⟩]
    else some []

def checkPageEntity? (s : Symbols) (site : Site) (p : BlockDecl) (props : List Property)
    (kind : Option PageKind) : Option (Option EntityDecl × List Diagnostic) := do
  let keyDs ← checkPageKey? s site p props kind
  let entityDs := match lookup props "entity" with
    | some q =>
      if (s.entity? (nameOf q.value)).isNone then
        [⟨site, q.value.pos, .pageEntityUnresolved p.name (nameOf q.value)⟩]
      else []
    | none =>
      match kind with
      | none | some .custom => []
      | some k => [⟨site, p.pos, .pageEntityMissing p.name k⟩]
  some (pageEntity s props, entityDs ++ keyDs)

def checkPage? (s : Symbols) (known : List String) (routes : List (String × String))
    (p : BlockDecl) : Option (List (String × String) × List Diagnostic) := do
  let site : Site := ⟨p.file, .page, p.name⟩
  let (props, ds) := checkProps site p.props pageKeys
  let (kind, typeDs) := checkPageType site p props
  let (entity, entityDs) ← checkPageEntity? s site p props kind
  let componentDs := if kind = some .custom then checkComponent site p props else []
  let (route, routeDs) := checkRoute site p props
  let (routes, takenDs) : List (String × String) × List Diagnostic :=
    match routes.lookup route with
    | some other => (routes, [⟨site, p.pos, .pageRouteTaken p.name route other⟩])
    | none => (routes ++ [(route, p.name)], [])
  some (routes,
    ds ++ typeDs ++ entityDs ++ componentDs ++ routeDs ++ takenDs ++
      checkTitle site p props ++
      ((lookup props "permissions").map (checkPermissions known site)).getD [] ++
      checkListed site p props kind entity "columns" .table false ++
      checkListed site p props kind entity "fields" .form true)

def checkPages? (s : Symbols) (known : List String) :
    List (String × String) → List BlockDecl → Option (List Diagnostic)
  | _, [] => some []
  | routes, p :: ps => do
    let (routes, ds) ← checkPage? s known routes p
    let rest ← checkPages? s known routes ps
    some (ds ++ rest)

theorem checkPageEntity?_eq (s : Symbols) (site : Site) (p : BlockDecl) (props : List Property)
    (kind : Option PageKind) :
    checkPageEntity? s site p props kind = some (checkPageEntity s site p props kind) := by
  unfold checkPageEntity? checkPageKey? checkPageEntity pageEntity
  cases hq : lookup props "entity" with
  | none =>
    match kind with
    | none | some .custom | some .table | some .form | some .details => rfl
  | some q =>
    cases he : s.entity? (nameOf q.value) with
    | none => simp [he]
    | some e =>
      simp only [Option.bind_some, he]
      split <;> simp

theorem checkPages?_eq (s : Symbols) (known : List String) (routes : List (String × String))
    (ps : List BlockDecl) :
    checkPages? s known routes ps = some (checkPages s known routes ps) := by
  induction ps generalizing routes with
  | nil => rfl
  | cons p ps ih =>
    have hpage : checkPage? s known routes p = some (checkPage s known routes p) := by
      simp only [checkPage?, checkPageEntity?_eq, Option.bind_eq_bind, Option.bind_some]
      rfl
    simp only [checkPages?, hpage, ih, Option.bind_eq_bind, Option.bind_some]
    rfl

/-! ## Sources -/

def validate? (f : File) (extraRoles : List String) :
    Option (Except (List Diagnostic) Checked) := do
  let (s, ds) := collect f
  let entityDs ← (s.entities.mapM (checkEntity? s)).map List.flatten
  let pageDs ← checkPages? s (roles s extraRoles) [] s.pages
  match ds ++ entityDs ++ s.enums.flatMap checkEnum ++ checkConfig s ++ pageDs ++
    s.views.flatMap (checkView s) ++ s.workflows.flatMap checkWorkflow ++
    checkGeneratedNames s with
  | [] => some (.ok ⟨s, roles s extraRoles⟩)
  | ds => some (.error (Diagnostic.sorted ds))

theorem validate?_eq (f : File) (extraRoles : List String) :
    validate? f extraRoles = some (validate f extraRoles) := by
  have hentities := mapM_flatten fun e (_ : e ∈ (collect f).1.entities) =>
    checkEntity?_eq (collect f).1 e
  simp only [validate?, hentities, checkPages?_eq, Option.bind_eq_bind, Option.bind_some]
  unfold validate
  change (match violations f extraRoles with | [] => _ | ds => _) = _
  cases violations f extraRoles <;> rfl

end Scaffold.Unguarded
