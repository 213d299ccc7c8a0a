import Scaffold.Check.Typing
import Scaffold.Text.Timestamp
import Scaffold.Text.Digits

/-! # Entities and enums

Fields and their attributes, defaults, groups of relations to one entity, and computed fields. -/
namespace Scaffold.Check

open Scaffold.Source Scaffold.Model

/-- Whether a literal can be the default of a field. -/
def literalFits (s : Symbols) (t : FieldType) (v : Value) : Bool :=
  !t.list && match t.kind, v with
    | .string, .string .. | .text, .string .. | .password, .string .. => true
    | .int, .number raw _ => !raw.toList.contains '.'
    | .decimal, .number .. => true
    | .boolean, .boolean .. => true
    | .dateTime, .string text _ => Text.Timestamp.valid text
    | .uuid, .string text _ => Text.Uuid.valid text
    | .json, .string .. | .json, .number .. | .json, .boolean .. | .json, .array ..
    | .json, .object .. => true
    | .enum, v =>
      match nameOf? v, s.enum? t.ref with
      | some name, some e => e.values.any (·.name == name)
      | _, _ => false
    | _, _ => false

def checkDefault (s : Symbols) (site : Site) (f : FieldDecl) (t : FieldType) (v : Value) :
    List Diagnostic :=
  match v with
  | .call name args p =>
    match DefaultFunction.ofName? name with
    | none => [⟨site, p, .unknownDefaultFunction f.name name⟩]
    | some fn =>
      if !args.isEmpty then [⟨site, p, .defaultFunctionArguments f.name name⟩]
      else if t.list || !fn.fits t.kind then [⟨site, p, .defaultFunctionType f.name name t⟩]
      else []
  | v => if literalFits s t v then [] else [⟨site, v.pos, .defaultType f.name v.describe t⟩]

def checkArgs (site : Site) (f : FieldDecl) (a : Attribute) (allowed : List String) :
    List String → List Property → List Diagnostic
  | _, [] => []
  | seen, p :: ps =>
    (if seen.contains p.key then [⟨site, p.pos, .repeatedArgument f.name a.name p.key⟩]
      else if !allowed.contains p.key then
        [⟨site, p.pos, .unknownArgument f.name a.name p.key allowed⟩]
      else []) ++ checkArgs site f a allowed (p.key :: seen) ps

def checkRelation (site : Site) (f : FieldDecl) (t : FieldType) (a : Attribute) :
    List Diagnostic :=
  if t.kind ≠ .relation then [⟨site, a.pos, .relationOnScalar f.name t⟩]
  else
    checkArgs site f a ["name", "onDelete"] [] a.args ++
    (match a.arg "name" with
      | none => []
      | some ⟨_, p, .string text _⟩ => if text = "" then [⟨site, p, .relationName f.name⟩] else []
      | some p => [⟨site, p.pos, .relationName f.name⟩]) ++
    (match a.arg "onDelete" with
      | none => []
      | some p =>
        match OnDelete.ofName? (nameOf p.value) with
        | none => [⟨site, p.pos, .unknownOnDelete f.name (nameOf p.value)⟩]
        | some .setNull =>
          if !f.optional && !t.list then [⟨site, p.pos, .requiredSetNull f.name⟩] else []
        | some _ => [])

def checkVirtual (site : Site) (f : FieldDecl) (t : FieldType) (a : Attribute) :
    List Diagnostic :=
  checkArgs site f a ["from"] [] a.args ++
  match a.arg "from" with
  | none => [⟨site, a.pos, .virtualWithoutFormula f.name⟩]
  | some p =>
    (match p.value with
      | .string .. => []
      | v => [⟨site, p.pos, .virtualFormulaKind f.name v.describe⟩]) ++
    (if t.kind = .relation || f.primaryKey || f.default.isSome then
      [⟨site, a.pos, .virtualModifier f.name⟩]
    else [])

/-- The attributes of a field; a repeated one is reported and not looked into. -/
def checkAttributes (site : Site) (f : FieldDecl) (t : FieldType) :
    List String → List Attribute → List Diagnostic
  | _, [] => []
  | seen, a :: rest =>
    if seen.contains a.name then
      ⟨site, a.pos, .repeatedAttribute f.name a.name⟩ :: checkAttributes site f t seen rest
    else
      (if a.name = "relation" then checkRelation site f t a
        else if a.name = "virtual" then checkVirtual site f t a
        else [⟨site, a.pos, .unknownAttribute f.name a.name⟩]) ++
      checkAttributes site f t (a.name :: seen) rest

def checkField (s : Symbols) (site : Site) (f : FieldDecl) : List Diagnostic :=
  match s.fieldType? f.type with
  | none =>
    if f.type.name = TypeKind.enum.name then [⟨site, f.type.pos, .bareEnum f.name⟩]
    else [⟨site, f.type.pos, .unknownType f.name f.type.name⟩]
  | some t =>
    (if t.list && t.kind ≠ .relation then [⟨site, f.type.pos, .listOfScalar f.name t⟩] else []) ++
    (if f.primaryKey && (t.kind = .relation || f.optional) then
      [⟨site, f.pos, .invalidPrimaryKey f.name⟩] else []) ++
    (if t.kind = .relation && (s.entity? t.ref).any (!hasPrimaryKey ·) then
      [⟨site, f.type.pos, .targetWithoutKey f.name t.ref⟩] else []) ++
    checkAttributes site f t [] f.attributes ++
    (match f.default with
      | some v => if (attribute? f "virtual").isNone then checkDefault s site f t v else []
      | none => [])

/-- Fields in order; `seen` holds those before. -/
def checkFields (s : Symbols) (site : Site) (e : EntityDecl) :
    List FieldDecl → List FieldDecl → List Diagnostic
  | _, [] => []
  | seen, f :: rest =>
    (match seen.find? (·.name == f.name) with
      | some first => [⟨site, f.pos, .repeatedField e.name f.name first.pos⟩]
      | none => []) ++
    (match f.primaryKey, seen.find? (·.primaryKey) with
      | true, some key => [⟨site, f.pos, .secondPrimaryKey e.name key.name⟩]
      | _, _ => []) ++
    f.repeated.map (fun m => ⟨site, f.pos, .repeatedModifier f.name m⟩) ++
    checkField s site f ++
    checkFields s site e (seen ++ [f]) rest

/-! ## Groups of relations -/

/-- The fields of an entity that are relations, with their targets. -/
def relationFields (s : Symbols) (e : EntityDecl) : List (String × FieldDecl) :=
  e.fields.filterMap fun f =>
    match s.fieldType? f.type with
    | some t => if t.kind = .relation then some (t.ref, f) else none
    | none => none

/-- The members of a list without repetitions, in order of first appearance. -/
def distinct (xs : List String) : List String :=
  xs.foldl (fun seen x => if seen.contains x then seen else seen ++ [x]) []

/-- Relations to one target are told apart by names: each is named, and no name is used more than
once, or twice when the target is the entity itself, where the two fields are the two sides of one
relation. -/
def labelsDistinct (limit : Nat) (labels : List String) : Bool :=
  labels.all fun x => x ≠ "" && labels.count x ≤ limit

def checkRelationGroups (s : Symbols) (site : Site) (e : EntityDecl) : List Diagnostic :=
  let relations := relationFields s e
  (distinct (relations.map (·.1))).flatMap fun target =>
    let fields := (relations.filter (·.1 == target)).map (·.2)
    let limit := if target = e.name then 2 else 1
    match fields with
    | first :: _ :: _ =>
      if labelsDistinct limit (fields.map relationLabel) then []
      else [⟨site, first.pos, .ambiguousRelations e.name target (fields.map (·.name))⟩]
    | _ => []

/-! ## Computed fields -/

/-- A computed field whose formula parses. -/
structure Computed where
  field : FieldDecl
  pos : Pos
  formula : Formula
  deriving Repr

/-- The dependencies of a computed field on computed fields. -/
def computedRefs (e : EntityDecl) (c : Computed) : List (String × String) :=
  c.formula.refs.filterMap fun (name, _) =>
    match findField? e name with
    | some target => if isComputed target then some (c.field.name, target.name) else none
    | none => none

/-- Names reached from a set by one more dependency. -/
def grow (deps : List (String × String)) (set : List String) : List String :=
  distinct (set ++ (deps.filter fun d => set.contains d.1).map (·.2))

/-- Names reached from a set by any number of dependencies. -/
def closure (deps : List (String × String)) (set : List String) : List String :=
  Nat.repeat (grow deps) deps.length set

/-- Whether a field is reached from itself. -/
def dependsOnItself (deps : List (String × String)) (name : String) : Bool :=
  (closure deps ((deps.filter (·.1 == name)).map (·.2))).contains name

def checkComputed (s : Symbols) (site : Site) (e : EntityDecl) (c : Computed) : List Diagnostic :=
  match c.formula.refs.filter fun (name, _) => (findField? e name).isNone with
  | [] =>
    match typeOf (fieldKind? s e) c.formula with
    | .error err => [⟨site, c.pos, .virtualTyping c.field.name err⟩]
    | .ok got =>
      match s.fieldType? c.field.type with
      | some t =>
        if t.kind.assignable got then [] else [⟨site, c.pos, .virtualType c.field.name t got⟩]
      | none => []
  | missing => missing.map fun (name, _) =>
      ⟨site, c.pos, .virtualUnknownField c.field.name name e.name⟩

/-- The computed fields of an entity, and for each the diagnostics of its formula. -/
def computedFields (s : Symbols) (site : Site) (e : EntityDecl) :
    List FieldDecl → List Computed × List Diagnostic
  | [] => ([], [])
  | f :: fs =>
    let (cs, ds) := computedFields s site e fs
    match formulaSource? f with
    | none => (cs, ds)
    | some (source, p) =>
      match parseFormula (Text.runes source) with
      | .error err => (cs, ⟨site, p, .virtualFormula f.name source err⟩ :: ds)
      | .ok formula => (⟨f, p, formula⟩ :: cs, checkComputed s site e ⟨f, p, formula⟩ ++ ds)

def checkComputedFields (s : Symbols) (site : Site) (e : EntityDecl) : List Diagnostic :=
  let (cs, ds) := computedFields s site e e.fields
  let deps := cs.flatMap (computedRefs e)
  ds ++ (cs.filter fun c => dependsOnItself deps c.field.name).map fun c =>
    ⟨site, c.field.pos, .virtualCycle c.field.name⟩

def checkEntity (s : Symbols) (e : EntityDecl) : List Diagnostic :=
  let site : Site := ⟨e.file, .entity, e.name⟩
  checkFields s site e [] e.fields ++ checkRelationGroups s site e ++ checkComputedFields s site e

/-! ## Enums -/

def checkValues (site : Site) (e : EnumDecl) : List String → List EnumValue → List Diagnostic
  | _, [] => []
  | seen, v :: vs =>
    if seen.contains v.name then
      ⟨site, v.pos, .repeatedEnumValue e.name v.name⟩ :: checkValues site e seen vs
    else checkValues site e (v.name :: seen) vs

def checkEnum (e : EnumDecl) : List Diagnostic :=
  let site : Site := ⟨e.file, .enum, e.name⟩
  (if e.values.isEmpty then [⟨site, e.pos, .emptyEnum e.name⟩] else []) ++
    checkValues site e [] e.values

end Scaffold.Check
