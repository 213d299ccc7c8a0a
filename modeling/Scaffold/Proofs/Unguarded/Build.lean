import Scaffold.Proofs.Source.Spelling
import Scaffold.Proofs.Unguarded.Relation

/-! # Building without a guard

The model is built from checked declarations: formulas are read again, the source of a view is
looked up, and members are taken out of values that have to be objects. -/
namespace Scaffold.Unguarded

open Scaffold.Source Scaffold.Check Scaffold.Model Scaffold.Build

/-! ## Entities -/

/-- A formula is read again; without one there is nothing to lower. -/
def virtual? (s : Symbols) (e : EntityDecl) (f : FieldDecl) : Option (Option Virtual) :=
  match formulaSource? f with
  | none => some none
  | some (source, _) => do
    let formula ← (parseFormula (Text.runes source)).toOption
    let kindOf := declaredKind s e
    some (some ⟨source, lower kindOf formula, formulaKind kindOf formula,
      resolverName e.name f.name, formula.refs.map (·.1)⟩)

def draftEntity? (s : Symbols) (e : EntityDecl) : Option Entity := do
  let fields ← e.fields.mapM fun f => do
    let v ← virtual? s e f
    some { draftField s e f with virtual := v }
  some { draftEntity s e with fields := fields }

theorem virtual?_eq {s : Symbols} {e : EntityDecl} (he : EntityAccepted s e) {f : FieldDecl}
    (hf : f ∈ e.fields) : virtual? s e f = some (buildVirtual s e f) := by
  unfold virtual? buildVirtual
  cases hsource : formulaSource? f with
  | none => rfl
  | some found =>
    obtain ⟨source, p⟩ := found
    obtain ⟨formula, hparse, -⟩ := he.formula f hf source p hsource
    simp [hparse, Except.toOption]

theorem draftEntity?_eq {s : Symbols} {e : EntityDecl} (he : EntityAccepted s e) :
    draftEntity? s e = some (draftEntity s e) := by
  have hfields : (e.fields.mapM fun f => do
      let v ← virtual? s e f
      some { draftField s e f with virtual := v }) = some (e.fields.map (draftField s e)) := by
    refine mapM_eq_some fun f hf => ?_
    rw [virtual?_eq he hf]
    rfl
  rw [draftEntity?, hfields]
  rfl

/-! ## Views -/

/-- The fields of a view are the members of an object, and each shows a field or a formula. -/
def viewFields? (kindOf : String → Option TypeKind) (v : BlockDecl) : Option (List ViewField) :=
  match lookup v.props "fields" with
  | none => some []
  | some ⟨_, _, .object members _⟩ => members.mapM (buildViewField kindOf v.name)
  | some _ => none

def buildView? (s : Symbols) (v : BlockDecl) : Option View := do
  let source := (textOf v.props "source").getD ""
  let e ← s.entity? source
  let fields ← viewFields? (declaredKind s e) v
  some ⟨v.name, source, fields⟩

theorem mapM_eq_filterMap {α β : Type} {f : α → Option β} {xs : List α}
    (h : ∀ x ∈ xs, ∃ y, f x = some y) : xs.mapM f = some (xs.filterMap f) := by
  induction xs with
  | nil => rfl
  | cons x xs ih =>
    obtain ⟨⟨y, hy⟩, hxs⟩ := List.forall_mem_cons.mp h
    rw [List.mapM_cons, hy, ih hxs, List.filterMap_cons_some hy]
    rfl

theorem buildView?_eq {s : Symbols} {extra : List String} (hs : s.Accepted extra)
    (hn : EntitiesNamed s) {v : BlockDecl} (hv : v ∈ s.views) :
    buildView? s v = some (buildView s v) := by
  obtain ⟨e, members, h⟩ := hs.view hv
  obtain ⟨hm, hsource, hbuilt⟩ := view_built h hs.distinct hn
  obtain ⟨key, q, at_, hf⟩ := h.fields
  have hmembers : members.mapM (buildViewField (declaredKind s e) v.name) =
      some (members.filterMap (buildViewField (declaredKind s e) v.name)) := by
    refine mapM_eq_filterMap fun r hr => ?_
    obtain ⟨f, hbuilt, -⟩ :=
      buildViewField_closed (hs.entity hm) (h.member r hr) (declaredKind s e) v.name
    exact ⟨f, hbuilt⟩
  simp [buildView?, hbuilt, viewFields?, hsource, hf, hs.distinct.entity? hm, hmembers]

/-! ## Workflows -/

/-- An input of a step; a path is asked for its first name. -/
def buildInput? (p : Property) : Option Input :=
  match p.value with
  | .ident path _ => do
    let head ← path[0]?
    if head = "trigger" then do
      let rest ← slice? path 1 path.length
      some ⟨p.key, .trigger rest⟩
    else some ⟨p.key, .literal (literalValue p.value)⟩
  | .env var _ => some ⟨p.key, .env var⟩
  | v => some ⟨p.key, .literal (literalValue v)⟩

def buildStep? (st : StepDecl) : Option WorkflowStep := do
  let inputs ← st.inputs.mapM buildInput?
  some ⟨st.action, inputs⟩

def buildWorkflow? (w : WorkflowDecl) : Option Workflow := do
  let steps ← w.steps.mapM buildStep?
  some { name := w.name, event := (textOf w.props "trigger").getD "", steps := steps }

/-- No path among the inputs of steps is empty. -/
def PathsNamed (s : Symbols) : Prop :=
  ∀ w ∈ s.workflows, ∀ st ∈ w.steps, ∀ p ∈ st.inputs, ∀ path at_,
    p.value = .ident path at_ → path ≠ []

theorem buildInput?_eq {p : Property}
    (h : ∀ path at_, p.value = .ident path at_ → path ≠ []) :
    buildInput? p = some (buildInput p) := by
  unfold buildInput? buildInput
  cases hv : p.value with
  | ident path at_ =>
    obtain ⟨head, rest, rfl⟩ := List.exists_cons_of_ne_nil (h path at_ hv)
    by_cases hhead : head = "trigger"
    · have hrest : slice? ("trigger" :: rest) 1 ("trigger" :: rest).length = some rest :=
        slice?_drop (by simp)
      subst hhead
      simp only [List.getElem?_cons_zero, hrest, Option.bind_eq_bind, Option.bind_some, if_true]
    · simp [hhead]
  | _ => rfl

/-- An empty path would be a crash. -/
example : buildInput? ⟨"to", .start, .ident [] .start⟩ = none := rfl

theorem buildWorkflow?_eq {s : Symbols} (hp : PathsNamed s) {w : WorkflowDecl}
    (hw : w ∈ s.workflows) : buildWorkflow? w = some (buildWorkflow w) := by
  have hsteps : w.steps.mapM buildStep? =
      some (w.steps.map fun st => ⟨st.action, st.inputs.map buildInput⟩) := by
    refine mapM_eq_some fun st hst => ?_
    have hinputs := mapM_eq_some fun p h => buildInput?_eq (hp w hw st hst p h)
    rw [buildStep?, hinputs]
    rfl
  rw [buildWorkflow?, hsteps]
  rfl

/-- A path is read from at least one token. -/
theorem path_ne_nil (t : Grammar.PropTree) {path : List String} {at_ : Pos}
    (h : t.prop.value = .ident path at_) : path ≠ [] := by
  obtain ⟨key, colon, value⟩ := t
  rw [Grammar.PropTree.prop] at h
  cases value with
  | path head more =>
    rw [Grammar.ValueTree.value] at h
    cases h
    simp
  | object block =>
    obtain ⟨opening, body, closing⟩ := block
    simp [Grammar.ValueTree.value] at h
  | _ => simp [Grammar.ValueTree.value] at h

theorem pathsNamed_of_parseSource {path : String} {source : List Text.Rune} {f : File}
    (h : parseSource path source = .ok f) : PathsNamed ⟨f.decls⟩ := by
  unfold parseSource at h
  split at h
  · cases h
  next tokens hl =>
    split at h
    · cases h
    next g hg =>
      cases h
      obtain ⟨hends, -⟩ := lexFrom_spelled hl
      obtain ⟨tree, -, rfl⟩ := Grammar.derivation_of_parseTokens hends hg
      intro w hw st hst p hp path' at_ hv
      obtain ⟨d, hd, hpick⟩ := List.mem_filterMap.mp hw
      obtain ⟨d, -, rfl⟩ := List.mem_map.mp hd
      cases d with
      | workflow keyword name block =>
        cases hpick
        obtain ⟨item, -, hstep⟩ := List.mem_filterMap.mp hst
        cases item with
        | prop t => cases hstep
        | step t =>
          cases hstep
          obtain ⟨t, -, rfl⟩ := List.mem_map.mp hp
          exact path_ne_nil t hv
      | _ => cases hpick

/-! ## Configuration -/

/-- The properties of an integration, which have to be those of an object. -/
def integrationProps? (s : Symbols) (block : ProviderBlock) : Option (Option (List Property)) :=
  match s.integrations.bind (lookup ·.props block.name) with
  | none => some none
  | some ⟨_, _, .object members _⟩ => some (some members)
  | some _ => none

def buildConfig? (s : Symbols) : Option Config := do
  let email ← integrationProps? s .email
  let monitoring ← integrationProps? s .monitoring
  some
    { database := ((s.root.bind (textOf ·.props "db")).bind Database.ofName?).getD .sqlite
      auth := s.auth.bind (buildAuth ·.props)
      email := email.bind buildEmail
      monitoring := monitoring.bind buildMonitoring }

theorem integrationProps?_eq {s : Symbols} (h : checkConfig s = []) (block : ProviderBlock)
    (hb : block ∈ [ProviderBlock.email, .monitoring]) :
    integrationProps? s block = some (integrationProps s block) := by
  unfold integrationProps? integrationProps
  cases hd : s.integrations with
  | none => rfl
  | some d =>
    have hcheck := (integrations_checked h hd).2.2 block hb
    unfold checkIntegration at hcheck
    simp only [Option.bind_some, Option.bind_eq_bind]
    split at hcheck
    next hnone => simp [hnone]
    next hsome => simp [hsome]
    next => cases hcheck

theorem buildConfig?_eq {s : Symbols} (h : checkConfig s = []) :
    buildConfig? s = some (buildConfig s) := by
  simp only [buildConfig?, integrationProps?_eq h .email (by simp),
    integrationProps?_eq h .monitoring (by simp), Option.bind_eq_bind, Option.bind_some]
  rfl

/-! ## Applications -/

def build? (s : Symbols) (fallbackName : String) : Option Application := do
  let drafts ← s.entities.mapM (draftEntity? s)
  let (entities, relations) ← relations? drafts
  let views ← s.views.mapM (buildView? s)
  let workflows ← s.workflows.mapM buildWorkflow?
  let config ← buildConfig? s
  some
    { name := applicationName s fallbackName
      entities := entities
      enums := s.enums.map buildEnum
      pages := s.pages.map (buildPage entities)
      views := views
      workflows := workflows
      relations := relations
      config := config }

theorem build?_eq {s : Symbols} {extra : List String} (hs : s.Accepted extra)
    (hn : EntitiesNamed s) (hp : PathsNamed s) (name : String) :
    build? s name = some (build s name) := by
  have hdrafts := mapM_eq_some fun e (he : e ∈ s.entities) => draftEntity?_eq (hs.entity he)
  have hviews := mapM_eq_some fun v (hv : v ∈ s.views) => buildView?_eq hs hn hv
  have hworkflows := mapM_eq_some fun w (hw : w ∈ s.workflows) => buildWorkflow?_eq hp hw
  simp only [build?, hdrafts, relations?_eq hs, hviews, hworkflows, buildConfig?_eq hs.config,
    Option.bind_eq_bind, Option.bind_some]
  rfl

end Scaffold.Unguarded
