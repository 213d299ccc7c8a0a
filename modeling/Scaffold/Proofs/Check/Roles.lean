import Scaffold.Build.Application
import Scaffold.Proofs.Check.Clash
import Scaffold.Proofs.Check.Config
import Scaffold.Proofs.Check.Report

/-! # More roles

Roles are looked at in one place only, the permissions of a page. With more of them the reports are
the same but for the roles that have become known, which are no longer missed, and for the list of
known roles that stands behind each role that is. -/
namespace Scaffold.Check

open Scaffold.Source Scaffold.Model

/-! ## Roles in a report -/

/-- The role that is not known, where a violation is of that kind. -/
def Violation.role? : Violation → Option String
  | roleUnknown _ role _ => some role
  | _ => none

theorem Violation.code_of_role? {v : Violation} {role : String} (h : v.role? = some role) :
    v.code = "role_unknown" := by
  cases v <;> first | rfl | cases h

/-- A violation as it reads beside the known roles. -/
def Violation.knowing (known : List String) : Violation → Violation
  | roleUnknown page role _ => roleUnknown page role known
  | v => v

theorem Violation.knowing_of_role? {v : Violation} (h : v.role? = none) (known : List String) :
    v.knowing known = v := by
  cases v <;> first | rfl | cases h

namespace Diagnostic

def knowing (known : List String) (d : Diagnostic) : Diagnostic :=
  { d with violation := d.violation.knowing known }

/-- Whether a role is missed that is granted. -/
def misses (granted : List String) (d : Diagnostic) : Bool := d.violation.role?.any granted.contains

/-- A report after roles are granted: those are not missed any more, and the others beside all
roles that are known by then. -/
def granting (granted known : List String) (ds : List Diagnostic) : List Diagnostic :=
  (ds.filter (!·.misses granted)).map (·.knowing known)

variable (granted known : List String)

@[simp] theorem granting_nil : granting granted known [] = [] := rfl

@[simp] theorem granting_append (ds ds' : List Diagnostic) :
    granting granted known (ds ++ ds') =
      granting granted known ds ++ granting granted known ds' := by
  simp [granting]

theorem granting_flatMap {α : Type} (xs : List α) (f : α → List Diagnostic) :
    granting granted known (xs.flatMap f) = xs.flatMap fun x => granting granted known (f x) := by
  induction xs with
  | nil => rfl
  | cons x xs ih => rw [List.flatMap_cons, List.flatMap_cons, granting_append, ih]

/-- Reports of something else than a role that is not known. -/
def Plain (ds : List Diagnostic) : Prop := ∀ d ∈ ds, d.violation.role? = none

@[simp] theorem plain_nil : Plain [] := by simp [Plain]

@[simp] theorem plain_cons {d : Diagnostic} {ds : List Diagnostic} :
    Plain (d :: ds) ↔ d.violation.role? = none ∧ Plain ds := List.forall_mem_cons

@[simp] theorem plain_append {ds ds' : List Diagnostic} :
    Plain (ds ++ ds') ↔ Plain ds ∧ Plain ds' := List.forall_mem_append

@[simp] theorem plain_flatMap {α : Type} {xs : List α} {f : α → List Diagnostic} :
    Plain (xs.flatMap f) ↔ ∀ x ∈ xs, Plain (f x) := by
  simp only [Plain, List.mem_flatMap]
  grind

@[simp] theorem plain_map {α : Type} {xs : List α} {f : α → Diagnostic} :
    Plain (xs.map f) ↔ ∀ x ∈ xs, (f x).violation.role? = none := List.forall_mem_map

@[simp] theorem plain_getD {α : Type} {o : Option α} {f : α → List Diagnostic} :
    Plain ((o.map f).getD []) ↔ ∀ x ∈ o, Plain (f x) := by
  cases o <;> simp

variable {granted known} in
/-- Such reports stay as they are. -/
theorem Plain.granting {ds : List Diagnostic} (h : Plain ds) :
    Diagnostic.granting granted known ds = ds := by
  have hkept : ds.filter (!·.misses granted) = ds :=
    List.filter_eq_self.mpr fun d hd => by simp [misses, h d hd]
  rw [Diagnostic.granting, hkept]
  refine (List.map_congr_left fun d hd => ?_).trans (List.map_id ds)
  rw [knowing, Violation.knowing_of_role? (h d hd)]
  rfl

end Diagnostic

/-! ## Sorting what is left -/

section Sorting

variable {α : Type} {le : α → α → Bool}
  (trans : ∀ a b c, le a b = true → le b c = true → le a c = true)
  (total : ∀ a b, (le a b || le b a) = true)

theorem orderedInsert_of_le {x : α} {l : List α} (h : ∀ y ∈ l, le x y = true) :
    l.orderedInsert (le · ·) x = x :: l := by
  cases l with
  | nil => rfl
  | cons y l => exact List.orderedInsert_cons_of_le _ l (h y (.head _))

include trans in
/-- What is put into a sorted list is in the same place after the list is thinned out. -/
theorem filter_orderedInsert (keep : α → Bool) (x : α) {l : List α} (hl : l.Pairwise (le · ·)) :
    (l.orderedInsert (le · ·) x).filter keep =
      if keep x then (l.filter keep).orderedInsert (le · ·) x else l.filter keep := by
  induction l with
  | nil => cases hx : keep x <;> simp [hx]
  | cons y l ih =>
    obtain ⟨hy, hl⟩ := List.pairwise_cons.mp hl
    by_cases hxy : le x y = true
    · have hall (z : α) (hz : z ∈ (y :: l).filter keep) : le x z = true := by
        rcases List.mem_cons.mp (List.mem_of_mem_filter hz) with rfl | hz
        · exact hxy
        · exact trans x y z hxy (hy z hz)
      rw [List.orderedInsert_cons_of_le _ l hxy, orderedInsert_of_le hall, List.filter_cons]
    · rw [List.orderedInsert_of_not_le _ l hxy, List.filter_cons, List.filter_cons, ih hl]
      by_cases hkeep : keep y = true
      · simp only [hkeep, if_true]
        split
        · exact (List.orderedInsert_of_not_le (le · ·) _ hxy).symm
        · rfl
      · simp only [hkeep, if_false, Bool.false_eq_true]

include trans total in
/-- A stable sort commutes with a filter. -/
theorem mergeSort_filter (keep : α → Bool) (l : List α) :
    (l.filter keep).mergeSort le = (l.mergeSort le).filter keep := by
  induction l with
  | nil => simp
  | cons x l ih =>
    rw [mergeSort_cons_eq trans total, filter_orderedInsert trans keep x
      (List.pairwise_mergeSort trans total l), ← ih, List.filter_cons]
    split
    · rw [mergeSort_cons_eq trans total]
    · rfl

end Sorting

/-- Where a report stands has nothing to do with roles. -/
theorem sorted_granting (granted known : List String) (ds : List Diagnostic) :
    Diagnostic.sorted (Diagnostic.granting granted known ds) =
      Diagnostic.granting granted known (Diagnostic.sorted ds) := by
  rw [Diagnostic.sorted, Diagnostic.granting,
    ← List.map_mergeSort (f := (·.knowing known)) (r := Diagnostic.before) (fun _ _ _ _ => rfl),
    mergeSort_filter Diagnostic.before_trans Diagnostic.before_total]
  rfl

/-! ## Checks that do not look at roles

Each check is gone through branch by branch: whatever it reports, it is no role. -/

open Diagnostic (Plain)

section Plain

variable (s : Symbols) (site : Site)

theorem plain_accept (ds : List Decl) : Plain (accept s ds).2 := by
  have hobjection (s : Symbols) (d : Decl) (v : Violation) (h : s.objection d = some v) :
      v.role? = none := by
    cases d <;> simp only [Symbols.objection] at h <;>
      grind [Violation.role?, Option.map_eq_some_iff]
  induction ds generalizing s with
  | nil => simp [accept]
  | cons d ds ih =>
    rw [accept]
    split
    · exact ih _
    next v hv => simp [hobjection s d v hv, ih]

theorem plain_collect (f : File) : Plain (collect f).2 := by
  simp [collect, viewClashes, plain_accept, Violation.role?]

@[simp] theorem plain_acceptProps (allowed : Option (List String)) (seen ps : List Property) :
    Plain (acceptProps site allowed seen ps).2 := by
  induction ps generalizing seen with
  | nil => simp [acceptProps]
  | cons p ps ih =>
    unfold acceptProps
    grind [Plain, Violation.role?]

@[simp] theorem plain_checkProps (props : List Property) (allowed : List String) :
    Plain (checkProps site props allowed).2 := plain_acceptProps site _ _ _

@[simp] theorem plain_checkKeys (props : List Property) : Plain (checkKeys site props).2 :=
  plain_acceptProps site _ _ _

@[simp] theorem plain_checkArgs (f : FieldDecl) (a : Attribute) (allowed seen : List String)
    (ps : List Property) : Plain (checkArgs site f a allowed seen ps) := by
  induction ps generalizing seen with
  | nil => simp [checkArgs]
  | cons p ps ih =>
    rw [checkArgs]
    split <;> [skip; split] <;> simp [ih, Violation.role?]

theorem plain_checkRelation (f : FieldDecl) (t : FieldType) (a : Attribute) :
    Plain (checkRelation site f t a) := by
  unfold checkRelation
  split
  · simp [Violation.role?]
  · simp only [Diagnostic.plain_append]
    refine ⟨⟨plain_checkArgs site f a _ _ _, ?_⟩, ?_⟩
    all_goals
      repeat' split
      all_goals simp [Violation.role?]

theorem plain_checkVirtual (f : FieldDecl) (t : FieldType) (a : Attribute) :
    Plain (checkVirtual site f t a) := by
  unfold checkVirtual
  grind [Plain, plain_checkArgs, Violation.role?]

theorem plain_checkAttributes (f : FieldDecl) (t : FieldType) (seen : List String)
    (as : List Attribute) : Plain (checkAttributes site f t seen as) := by
  induction as generalizing seen with
  | nil => simp [checkAttributes]
  | cons a as ih =>
    unfold checkAttributes
    grind [Plain, plain_checkRelation, plain_checkVirtual, Violation.role?]

theorem plain_checkDefault (f : FieldDecl) (t : FieldType) (v : Value) :
    Plain (checkDefault s site f t v) := by
  unfold checkDefault
  grind [Plain, Violation.role?]

theorem plain_checkField (f : FieldDecl) : Plain (checkField s site f) := by
  unfold checkField
  split
  · split <;> simp [Violation.role?]
  next t _ =>
    simp only [Diagnostic.plain_append]
    refine ⟨⟨⟨⟨?_, ?_⟩, ?_⟩, plain_checkAttributes site f t [] f.attributes⟩, ?_⟩
    all_goals
      repeat' split
      all_goals simp [plain_checkDefault, Violation.role?]

theorem plain_checkFields (e : EntityDecl) (seen fs : List FieldDecl) :
    Plain (checkFields s site e seen fs) := by
  induction fs generalizing seen with
  | nil => simp [checkFields]
  | cons f fs ih =>
    simp only [checkFields, Diagnostic.plain_append]
    refine ⟨⟨⟨⟨?_, ?_⟩, ?_⟩, plain_checkField s site f⟩, ih _⟩
    · split <;> simp [Violation.role?]
    · split <;> simp [Violation.role?]
    · simp [Violation.role?]

theorem plain_checkRelationGroups (e : EntityDecl) : Plain (checkRelationGroups s site e) := by
  unfold checkRelationGroups
  grind [Plain, Violation.role?]

theorem plain_checkComputed (e : EntityDecl) (c : Computed) : Plain (checkComputed s site e c) := by
  unfold checkComputed
  grind [Plain, Violation.role?]

theorem plain_computedFields (e : EntityDecl) (fs : List FieldDecl) :
    Plain (computedFields s site e fs).2 := by
  induction fs with
  | nil => simp [computedFields]
  | cons f fs ih =>
    unfold computedFields
    grind [Plain, plain_checkComputed, Violation.role?]

theorem plain_checkEntity (e : EntityDecl) : Plain (checkEntity s e) := by
  simp [checkEntity, checkComputedFields, plain_checkFields, plain_checkRelationGroups,
    plain_computedFields, Violation.role?]

theorem plain_checkEnum (e : EnumDecl) : Plain (checkEnum e) := by
  have hvalues (site : Site) (seen : List String) (vs : List EnumValue) :
      Plain (checkValues site e seen vs) := by
    induction vs generalizing seen with
    | nil => simp [checkValues]
    | cons v vs ih =>
      unfold checkValues
      grind [Plain, Violation.role?]
  unfold checkEnum
  grind [Plain, Violation.role?]

theorem plain_checkProviderProps (schema : ProviderSchema) (seen : List String)
    (ps : List Property) : Plain (checkProviderProps s site schema seen ps) := by
  induction ps generalizing seen with
  | nil => simp [checkProviderProps]
  | cons p ps ih =>
    unfold checkProviderProps checkPropKind
    grind [Plain, Violation.role?]

theorem plain_checkProviderBlock (block : ProviderBlock) (at_ : Pos) (props : List Property) :
    Plain (checkProviderBlock s site block at_ props) := by
  unfold checkProviderBlock
  grind [Plain, plain_checkProviderProps, Violation.role?]

theorem plain_checkConfig : Plain (checkConfig s) := by
  have hroot (r : BlockDecl) : Plain (checkRoot r) := by
    unfold checkRoot
    grind [Plain, plain_checkProps, Violation.role?]
  have hintegration (site : Site) (props : List Property) (block : ProviderBlock) :
      Plain (checkIntegration s site props block) := by
    unfold checkIntegration
    grind [Plain, plain_checkProviderBlock, Violation.role?]
  simp [checkConfig, checkIntegrations, hroot, hintegration, plain_checkProviderBlock]

theorem plain_checkView (v : BlockDecl) : Plain (checkView s v) := by
  have hfield (site : Site) (e : EntityDecl) (p : Property) :
      Plain (checkViewField s site e p) := by
    unfold checkViewField
    repeat' split
    all_goals simp [Violation.role?]
  have hfields (site : Site) (source : Option EntityDecl) (fields : Option Property) :
      Plain (checkViewFields s site v source fields) := by
    unfold checkViewFields
    grind [Plain, plain_checkKeys, Violation.role?]
  unfold checkView
  grind [Plain, plain_checkProps, Violation.role?]

mutual

theorem plain_checkInput (action key : String) (v : Value) :
    Plain (checkInput site action key v) := by
  cases v with
  | array elems _ => exact plain_checkElems action key elems
  | object props _ => exact plain_checkMembers action key props
  | ident path p =>
    rw [checkInput]
    split <;> simp [Violation.role?]
  | _ => simp [checkInput, Violation.role?]

theorem plain_checkElems (action key : String) (vs : List Value) :
    Plain (checkElems site action key vs) := by
  cases vs with
  | nil => simp [checkElems]
  | cons v vs =>
    rw [checkElems, Diagnostic.plain_append]
    exact ⟨plain_checkInput action key v, plain_checkElems action key vs⟩

theorem plain_checkMembers (action key : String) (ps : List (Entry Value)) :
    Plain (checkMembers site action key ps) := by
  cases ps with
  | nil => simp [checkMembers]
  | cons p ps =>
    rw [checkMembers, Diagnostic.plain_append]
    exact ⟨plain_checkInput action _ p.value, plain_checkMembers action key ps⟩

end

theorem plain_checkWorkflow (w : WorkflowDecl) : Plain (checkWorkflow w) := by
  have htrigger (site : Site) (props : List Property) : Plain (checkTrigger site w props) := by
    unfold checkTrigger
    grind [Plain, Violation.role?]
  have hstep (site : Site) (st : StepDecl) : Plain (checkStep w.file site st) := by
    simp [checkStep, plain_checkInput]
  unfold checkWorkflow
  grind [Plain, plain_checkProps, Violation.role?]

theorem plain_claimAll (space : String) (taken : Taken) (cs : List Claim) :
    Plain (taken.claimAll space cs).2 := by
  induction cs generalizing taken with
  | nil => simp [Taken.claimAll]
  | cons c cs ih =>
    simp only [Taken.claimAll, Taken.claim]
    grind [Plain, Claim.collision, Violation.role?]

theorem plain_checkGeneratedNames : Plain (checkGeneratedNames s) := by
  have hdecl (package regions : Taken) (d : Decl) : Plain (claimDecl s package regions d).2 := by
    unfold claimDecl
    grind [Plain, plain_claimAll, Taken.claim, Claim.collision, Violation.role?]
  have hdecls (package regions : Taken) (ds : List Decl) :
      Plain (claimDecls s package regions ds) := by
    induction ds generalizing package regions with
    | nil => simp [claimDecls]
    | cons d ds ih => simp [claimDecls, hdecl, ih]
  have hpage (p : BlockDecl) : Plain (checkPageName p) := by
    unfold checkPageName
    grind [Plain, Violation.role?]
  simp [checkGeneratedNames, hdecls, hpage]

theorem plain_checkPageType (p : BlockDecl) (props : List Property) :
    Plain (checkPageType site p props).2 := by
  unfold checkPageType
  grind [Plain, Violation.role?]

theorem plain_checkPageEntity (p : BlockDecl) (props : List Property) (kind : Option PageKind) :
    Plain (checkPageEntity s site p props kind).2 := by
  unfold checkPageEntity
  grind [Plain, Violation.role?]

theorem plain_checkComponent (p : BlockDecl) (props : List Property) :
    Plain (checkComponent site p props) := by
  unfold checkComponent
  grind [Plain, Violation.role?]

theorem plain_checkRoute (p : BlockDecl) (props : List Property) :
    Plain (checkRoute site p props).2 := by
  unfold checkRoute
  grind [Plain, Violation.role?]

theorem plain_checkTitle (p : BlockDecl) (props : List Property) :
    Plain (checkTitle site p props) := by
  unfold checkTitle
  grind [Plain, Violation.role?]

theorem plain_checkListed (p : BlockDecl) (props : List Property) (kind : Option PageKind)
    (entity : Option EntityDecl) (key : String) (only : PageKind) (editable : Bool) :
    Plain (checkListed site p props kind entity key only editable) := by
  have hlist (e : EntityDecl) (q : Property) : Plain (checkFieldList site e q editable) := by
    unfold checkFieldList
    split
    · refine Diagnostic.plain_flatMap.mpr fun el _ => ?_
      repeat' split
      all_goals simp [Violation.role?]
    · simp [Violation.role?]
  unfold checkListed
  grind [Plain, Violation.role?]

end Plain

/-! ## Pages -/

section Pages

variable {known known' granted : List String}
  (hknown : ∀ r, r ∈ known' ↔ r ∈ known ∨ r ∈ granted)
include hknown

theorem checkPermissions_granting (site : Site) (p : Property) :
    checkPermissions known' site p =
      Diagnostic.granting granted known' (checkPermissions known site p) := by
  unfold checkPermissions
  split
  next elems _ _ =>
    rw [Diagnostic.granting_flatMap]
    refine List.flatMap_congr fun el _ => ?_
    cases nameOf? el with
    | none => rfl
    | some role =>
      have hrole := hknown role
      by_cases hk : role ∈ known
      · simp [hk, hrole]
      · by_cases hg : role ∈ granted
        · simp [hk, hg, hrole, Diagnostic.granting, Diagnostic.misses, Violation.role?]
        · simp [hk, hg, hrole, Diagnostic.granting, Diagnostic.misses, Violation.role?,
            Diagnostic.knowing, Violation.knowing]
  · rfl

/-- What a page has to report after roles are granted. The route that it takes is the same. -/
theorem checkPage_granting (s : Symbols) (routes : List (String × String)) (p : BlockDecl) :
    checkPage s known' routes p = ((checkPage s known routes p).1,
      Diagnostic.granting granted known' (checkPage s known routes p).2) := by
  have hgranting (o : Option Property) (site : Site) :
      Diagnostic.granting granted known' ((o.map (checkPermissions known site)).getD []) =
        (o.map (checkPermissions known' site)).getD [] := by
    cases o with
    | none => rfl
    | some q => exact (checkPermissions_granting hknown site q).symm
  have hcomponent (c : Prop) [Decidable c] (site : Site) (props : List Property) :
      Plain (if c then checkComponent site p props else []) := by
    split
    · exact plain_checkComponent site p props
    · simp
  simp only [checkPage, Diagnostic.granting_append, hgranting, (hcomponent _ _ _).granting,
    (plain_checkProps _ _ _).granting, (plain_checkPageType _ _ _).granting,
    (plain_checkPageEntity _ _ _ _ _).granting, (plain_checkRoute _ _ _).granting,
    (plain_checkTitle _ _ _).granting, (plain_checkListed _ _ _ _ _ _ _ _).granting]
  split <;> rfl

theorem checkPages_granting (s : Symbols) (routes : List (String × String)) (ps : List BlockDecl) :
    checkPages s known' routes ps =
      Diagnostic.granting granted known' (checkPages s known routes ps) := by
  induction ps generalizing routes with
  | nil => rfl
  | cons p ps ih =>
    simp only [checkPages, checkPage_granting hknown s routes p, Diagnostic.granting_append, ih]

end Pages

/-! ## Sources -/

theorem violations_granting (f : File) (extra granted : List String) :
    violations f (extra ++ granted) =
      Diagnostic.granting granted (roles (collect f).1 (extra ++ granted)) (violations f extra) := by
  have hknown (r : String) : r ∈ roles (collect f).1 (extra ++ granted) ↔
      r ∈ roles (collect f).1 extra ∨ r ∈ granted := by
    simp only [mem_roles, List.mem_append]
    tauto
  have hentities := Diagnostic.plain_flatMap.mpr fun e (_ : e ∈ (collect f).1.entities) =>
    plain_checkEntity (collect f).1 e
  have henums := Diagnostic.plain_flatMap.mpr fun e (_ : e ∈ (collect f).1.enums) =>
    plain_checkEnum e
  have hviews := Diagnostic.plain_flatMap.mpr fun v (_ : v ∈ (collect f).1.views) =>
    plain_checkView (collect f).1 v
  have hworkflows := Diagnostic.plain_flatMap.mpr fun w (_ : w ∈ (collect f).1.workflows) =>
    plain_checkWorkflow w
  simp only [violations, checkPages_granting hknown, Diagnostic.granting_append,
    (plain_collect f).granting, hentities.granting, henums.granting, (plain_checkConfig _).granting,
    hviews.granting, hworkflows.granting, (plain_checkGeneratedNames _).granting]

/-- What a validation has to report. -/
def reported : Except (List Diagnostic) Checked → List Diagnostic
  | .error ds => ds
  | .ok _ => []

theorem reported_validate (f : File) (extra : List String) :
    reported (validate f extra) = Diagnostic.sorted (violations f extra) := by
  unfold validate
  split
  next h => rw [h, sorted_eq_nil.mpr rfl, reported]
  · rfl

end Scaffold.Check

namespace Scaffold

open Scaffold.Source Scaffold.Check Scaffold.Model

/-- More roles never spoil a source. They take away the reports of a role that is among them and
leave the others in their order, each of them as it was but for the list of known roles; so an
accepted source is accepted with them too, and gives the same application. -/
theorem validate_granting (f : File) (extra granted : List String) :
    reported (validate f (extra ++ granted)) =
      Diagnostic.granting granted (roles (collect f).1 (extra ++ granted))
        (reported (validate f extra)) ∧
    (∀ d ∈ reported (validate f extra), d.misses granted = true →
      d.violation.code = "role_unknown") ∧
    (∀ c, validate f extra = .ok c →
      validate f (extra ++ granted) = .ok ⟨c.symbols, roles c.symbols (extra ++ granted)⟩) ∧
    ∀ name app, compileFile f ⟨extra, name⟩ = .ok app →
      compileFile f ⟨extra ++ granted, name⟩ = .ok app := by
  have hok (c : Checked) (hc : validate f extra = .ok c) :
      validate f (extra ++ granted) = .ok ⟨c.symbols, roles c.symbols (extra ++ granted)⟩ := by
    have hnil : violations f extra = [] := validate_ok_iff.mp ⟨c, hc⟩
    have hnil' : violations f (extra ++ granted) = [] := by
      rw [violations_granting, hnil, Diagnostic.granting_nil]
    unfold validate at hc ⊢
    simp only [hnil, hnil'] at hc ⊢
    cases hc
    rfl
  refine ⟨?_, fun d _ hd => ?_, hok, fun name app happ => ?_⟩
  · rw [reported_validate, reported_validate, violations_granting, sorted_granting]
  · cases hrole : d.violation.role? with
    | none => simp [Diagnostic.misses, hrole] at hd
    | some role => exact Violation.code_of_role? hrole
  · unfold compileFile at happ ⊢
    cases hc : validate f extra with
    | error ds => simp [hc] at happ
    | ok c =>
      simp only [hc] at happ
      simpa only [hok c hc] using happ

/-- The roles of a page on a desk. -/
def deskRoles : Property := ⟨"permissions", .start,
  .array [.ident ["EDITOR"] .start, .ident ["GUEST"] .start, .ident ["USER"] .start] .start⟩

/-- A page for editors, guests and users. -/
def desk : File := ⟨"desk", [
  .page ⟨⟨"Desk", .start, "desk"⟩, [
    ⟨"type", .start, .ident ["custom"] .start⟩,
    ⟨"component", .start, .string "Desk" .start⟩, deskRoles]⟩]⟩

theorem violations_desk (extra : List String) :
    violations desk extra = ["EDITOR", "GUEST"].flatMap fun role =>
      if role ∈ extra then [] else
        [⟨⟨"desk", .page, "Desk"⟩, .start, .roleUnknown "Desk" role (roles ⟨desk.decls⟩ extra)⟩] := by
  have hpage : violations desk extra = checkPermissions (roles ⟨desk.decls⟩ extra)
      ⟨"desk", .page, "Desk"⟩ deskRoles ++ [] ++ [] ++ [] ++ [] ++ [] ++ [] := rfl
  have hknown (role : String) : role ∈ roles ⟨desk.decls⟩ extra ↔
      role ∈ reservedRoles ∨ role ∈ extra := by
    have hvalues : enumValues ⟨desk.decls⟩ roleEnumName = [] := rfl
    have huser : userRoles ⟨desk.decls⟩ = [] := rfl
    simp [mem_roles, hvalues, huser]
  simp [hpage, deskRoles, checkPermissions, nameOf?, hknown, reservedRoles, Value.pos]

theorem desk_granting :
    (∃ d, reported (validate desk ["EDITOR"]) = [d] ∧ d.violation.role? = some "GUEST") ∧
    reported (validate desk (["EDITOR"] ++ ["GUEST"])) = [] ∧
    ∃ c, validate desk ["EDITOR", "GUEST"] = .ok c ∧
      validate desk (["EDITOR", "GUEST"] ++ ["CLERK"]) =
        .ok ⟨c.symbols, roles c.symbols (["EDITOR", "GUEST"] ++ ["CLERK"])⟩ := by
  have hguest : reported (validate desk ["EDITOR"]) = [⟨⟨"desk", .page, "Desk"⟩, .start,
      .roleUnknown "Desk" "GUEST" (roles ⟨desk.decls⟩ ["EDITOR"])⟩] := by
    rw [reported_validate, violations_desk]
    exact List.mergeSort_singleton _
  refine ⟨⟨_, hguest, rfl⟩, ?_, ?_⟩
  · rw [(validate_granting desk ["EDITOR"] ["GUEST"]).1, hguest]
    rfl
  · obtain ⟨c, hc⟩ := validate_ok_iff.mpr (violations_desk ["EDITOR", "GUEST"])
    exact ⟨c, hc, (validate_granting desk _ ["CLERK"]).2.2.1 c hc⟩

end Scaffold
