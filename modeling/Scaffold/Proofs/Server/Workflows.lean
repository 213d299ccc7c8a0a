import Scaffold.Proofs.Code.Bare
import Scaffold.Proofs.Model.Texts
import Scaffold.Proofs.Server.Names
import Scaffold.Server.Workflows

/-! # Workflow handlers without markers

Each step of a workflow has a region, and so has the function that the steps are handed to. -/
namespace Scaffold.Server

open Scaffold.Model Scaffold.Output Scaffold.Code
open Scaffold.Text (quoted unlines)

/-! ## Inputs -/

theorem literalCode_array (xs : List Json) :
    literalCode (.array xs) = "[]any\x7b" ++ ", ".intercalate (literalCodes xs) ++ "\x7d" := rfl

theorem literalCode_object (ms : List (String × Json)) : literalCode (.object ms) =
    "map[string]any\x7b" ++ ", ".intercalate (memberCodes ms) ++ "\x7d" := rfl

theorem literals_code (xs : List Json) : literalCodes xs = xs.map literalCode := by
  induction xs with
  | nil => rfl
  | cons x xs ih => exact congrArg (literalCode x :: ·) ih

theorem members_code (ms : List (String × Json)) :
    memberCodes ms = ms.map fun m => quoted m.1 ++ ": " ++ literalCode m.2 := by
  induction ms with
  | nil => rfl
  | cons m ms ih => exact congrArg ((quoted m.1 ++ ": " ++ literalCode m.2) :: ·) ih

theorem unmarked_literalCode {j : Json} (h : j.Bare) : Unmarked (literalCode j) := by
  induction j using Json.induct with
  | null => exact unmarked_of_colon (s := "nil") (by decide)
  | bool value =>
    cases value with
    | false => exact unmarked_of_colon (s := "false") (by decide)
    | true => exact unmarked_of_colon (s := "true") (by decide)
  | number raw => exact (Json.bare_number raw).mp h
  | string text => exact unmarked_quoted ((Json.bare_string text).mp h)
  | array xs ih =>
    rw [Json.bare_array] at h
    rw [literalCode_array, literals_code, unmarked_before (by decide), unmarked_after (by decide),
      unmarked_intercalate (by decide), List.forall_mem_map]
    exact fun x hx => ih x hx (h x hx)
  | object ms ih =>
    rw [Json.bare_object, Json.BareMembers] at h
    rw [literalCode_object, members_code, unmarked_before (by decide),
      unmarked_after (by decide), unmarked_intercalate (by decide), List.forall_mem_map]
    refine fun m hm => (unmarked_sealed (by decide) _ _).mpr ?_
    exact ⟨unmarked_quoted (h m hm).1, ih m hm (h m hm).2⟩

theorem unmarked_inputCode {v : InputValue} (h : v.Bare) : Unmarked (inputCode v) := by
  cases v with
  | literal value => exact unmarked_literalCode h
  | env name =>
    unfold inputCode
    simp (disch := with_reducible refine id ?_; refine isSeal_ofList ?_; decide) only
      [unmarked_before, unmarked_after]
    exact unmarked_quoted h
  | trigger path =>
    unfold inputCode
    simp (disch := with_reducible refine id ?_; refine isSeal_ofList ?_; decide) only
      [unmarked_before, unmarked_after, unmarked_intercalate]
    refine List.forall_mem_cons.mpr ⟨unmarked_of_colon (by decide), ?_⟩
    exact List.forall_mem_map.mpr fun t ht => unmarked_quoted (h t ht)

/-! ## Layout of the inputs -/

/-- The lines are cut into sections, none is lost and all stay in order. -/
theorem flatten_sections (group : List Nat) (entries : List (String × String)) :
    (sections group entries).flatten = entries.map fun e => [e.1 ++ ":", e.2 ++ ","] := by
  induction entries generalizing group with
  | nil => rfl
  | cons e entries ih =>
    unfold sections
    dsimp only
    split
    -- In either case the rest is cut next, with or without the lines before.
    all_goals
      split
      all_goals
        next hsections =>
          have hrest := congrArg List.flatten hsections
          rw [ih] at hrest
          simp [hrest]

theorem unmarked_entryLines {entries : List (String × String)}
    (h : ∀ e ∈ entries, Unmarked e.1 ∧ Unmarked (e.1 ++ ":") ∧ Unmarked e.2) :
    ∀ l ∈ entryLines entries, Unmarked l := by
  unfold entryLines
  split
  next key value =>
    obtain ⟨hkey, -, hvalue⟩ := h _ (.head _)
    rw [List.forall_mem_singleton, unmarked_before (by decide), unmarked_sealed (by decide)]
    exact ⟨hkey, hvalue⟩
  next =>
    refine List.forall_mem_flatMap.mpr fun rows hrows => unmarked_aligned fun row hrow => ?_
    have hmem := List.mem_flatten_of_mem hrows hrow
    rw [flatten_sections] at hmem
    obtain ⟨e, he, rfl⟩ := List.mem_map.mp hmem
    obtain ⟨-, hkey, hvalue⟩ := h e he
    have hcomma : Unmarked (e.2 ++ ",") := (unmarked_before (by decide) _).mpr hvalue
    exact List.forall_mem_cons.mpr ⟨hkey, List.forall_mem_singleton.mpr hcomma⟩

/-! ## Steps -/

/-- The region of the step at place `n`. -/
def stepWritten (w : Workflow) (n : Nat) (s : WorkflowStep) : Region :=
  .written "\t\t//" (stepRegion w.name (n + 1)) (stepBody s)

theorem colon_digits (n : Nat) : ':' ∉ Nat.toDigits 10 (n + 1) := by
  rw [← toList_step]
  exact fun h => step_chars n ':' h (by decide)

theorem isId_stepRegion (w : String) (n : Nat) : IsId (stepRegion w (n + 1)) where
  ne_empty := by simp [stepRegion]
  unbroken := unbroken_stepRegion w n
  unmarked := by
    refine unmarked_of_colon ?_
    simp only [stepRegion, String.toList_append, List.mem_append, not_or]
    exact ⟨⟨colon_camel w, by decide⟩, fun h => step_chars n ':' h (by decide)⟩

theorem lays_step (w : Workflow) (n : Nat) {s : WorkflowStep} (hs : s.json.Bare) :
    Lays (unlines (stepLines w n s)) [stepWritten w n s] := by
  obtain ⟨haction, hinputs⟩ := (bare_step s).mp hs
  have hcomment : Unmarked ("\t// step " ++ toString (n + 1) ++ ": " ++ s.action) := by
    have hnumber : Unmarked ("\t// step " ++ toString (n + 1)) :=
      unmarked_of_colon (by simp [colon_digits])
    exact (unmarked_sealed (by decide) _ _).mpr ⟨hnumber, haction⟩
  have hbody : Unmarked (stepBody s) := by
    unfold stepBody
    simp (disch := with_reducible refine id ?_; refine isSeal_ofList ?_; decide) only
      [unmarked_before, unmarked_after]
    exact unmarked_quoted haction
  have hregion : Lays (stepRegionText w n s) [stepWritten w n s] :=
    lays_region ⟨by decide, by decide, by decide, by decide⟩
      (isId_stepRegion w.name n) hbody
  have hentries : ∀ l ∈ entryLines (s.inputs.map fun i => (quoted i.key, inputCode i.value)),
      Unmarked l := by
    refine unmarked_entryLines (List.forall_mem_map.mpr fun i hi => ?_)
    obtain ⟨hkey, hvalue⟩ := (bare_input i).mp (hinputs i hi)
    exact ⟨unmarked_quoted hkey, unmarked_quoted_colon hkey, unmarked_inputCode hvalue⟩
  have hinputLines : Lays (unlines (["\t// step " ++ toString (n + 1) ++ ": " ++ s.action, "\t\x7b"] ++
      (if (s.inputs.map fun i => (quoted i.key, inputCode i.value)).isEmpty then
        ["\t\tin := map[string]any\x7b\x7d"]
      else ["\t\tin := map[string]any\x7b"] ++
        (entryLines (s.inputs.map fun i => (quoted i.key, inputCode i.value))).map ("\t\t\t" ++ ·) ++
          ["\t\t\x7d"]))) [] := by
    have htabs : IsSeal "\t\t\t" := by decide
    refine lays_unlines (List.forall_mem_append.mpr ⟨?_, ?_⟩)
    · exact List.forall_mem_cons.mpr ⟨hcomment, by decide⟩
    · split
      · decide
      · refine List.forall_mem_append.mpr ⟨List.forall_mem_append.mpr ⟨by decide, ?_⟩,
          by decide⟩
        exact List.forall_mem_map.mpr fun l hl => (unmarked_after htabs l).mpr (hentries l hl)
  exact hinputLines.unlines_append (hregion.unlines_singleton (by decide))

/-! ## Handlers -/

/-- The regions of the steps of a workflow. -/
def stepsWritten (w : Workflow) : List Region :=
  w.steps.zipIdx.map fun (s, n) => stepWritten w n s

theorem map_stepsWritten (w : Workflow) : (stepsWritten w).map (·.id) = stepRegions w := by
  rw [stepsWritten, List.map_map]
  rfl

theorem lays_handler {w : Workflow} (hw : w.json.Bare) : (handlerPart w).Lays (stepsWritten w) := by
  obtain ⟨hname, hevent, hsteps⟩ := (bare_workflow w).mp hw
  have hcomment : Unmarked (handlerName w.name ++ " runs workflow " ++ w.name ++ " on " ++
      quoted w.event ++ ".") := by
    simp (disch := with_reducible refine id ?_; refine isSeal_ofList ?_; decide) only
      [unmarked_before, unmarked_sealed]
    exact ⟨⟨unmarked_handlerName w.name, hname⟩, unmarked_quoted hevent⟩
  have hheader : Unmarked
      ("func " ++ handlerName w.name ++ "(ctx context.Context, ev Event) error \x7b") := by
    simp (disch := with_reducible refine id ?_; refine isSeal_ofList ?_; decide) only
      [unmarked_before, unmarked_after, unmarked_handlerName]
  have hbefore : Lays (unlines [docComment (handlerName w.name ++ " runs workflow " ++ w.name ++
      " on " ++ quoted w.event ++ "."),
      "func " ++ handlerName w.name ++ "(ctx context.Context, ev Event) error \x7b"]) [] :=
    lays_unlines (by simp [unmarked_docComment, hcomment, hheader])
  have hsteps : Lays (unlines (w.steps.zipIdx.flatMap fun (s, n) => stepLines w n s))
      (stepsWritten w) := by
    rw [stepsWritten, List.map_eq_flatMap]
    exact lays_flatMap fun (s, n) hmem => lays_step w n (hsteps s (List.fst_mem_of_mem_zipIdx hmem))
  have hafter : Lays (unlines ["\treturn nil", "\x7d"]) [] := lays_unlines (by decide)
  refine ⟨by simp [handlerPart], ?_⟩
  have hlines := (hbefore.unlines_append hsteps).unlines_append hafter
  rwa [List.nil_append, List.append_nil] at hlines

theorem lays_handlerTable {ws : List Workflow} (h : ∀ w ∈ ws, w.json.Bare) :
    (handlerTable ws).Lays [] := by
  have hentry : ∀ w ∈ ws, Unmarked (handlerEntry w) := fun w hw => by
    obtain ⟨hname, hevent, -⟩ := (bare_workflow w).mp (h w hw)
    unfold handlerEntry
    simp (disch := with_reducible refine id ?_; refine isSeal_ofList ?_; decide) only
      [unmarked_before, unmarked_sealed, unmarked_after]
    exact ⟨⟨unmarked_quoted hname, unmarked_quoted hevent⟩, unmarked_handlerName w.name⟩
  refine Part.lays_unmarked (by simp [handlerTable]) (List.forall_mem_append.mpr ⟨?_, ?_⟩)
  · decide
  · split
    · decide
    · refine List.forall_mem_append.mpr ⟨List.forall_mem_append.mpr ⟨?_, ?_⟩, by decide⟩
      · decide
      · exact List.forall_mem_map.mpr hentry

/-- The region of the function that steps are handed to. -/
def dispatchWritten : Region := .written "\t//" "dispatch" "\t_, _, _ = ctx, action, in"

set_option maxRecDepth 2000 in
theorem lays_dispatchPart : dispatchPart.Lays [dispatchWritten] := by
  have hregion : Lays dispatchRegion [dispatchWritten] :=
    lays_region ⟨by decide, by decide, by decide, by decide⟩
      ⟨by decide, by simp [Text.isBlank], by decide⟩ (by decide)
  have hbefore : Lays (unlines ["// dispatch hands a step to its action implementation.",
      "func dispatch(ctx context.Context, action string, in map[string]any) error \x7b"]) [] := by
    refine lays_unlines ?_
    simp (disch := with_reducible refine id ?_; refine unmarked_ofList ?_; decide) only
      [List.forall_mem_cons, unmarked_nil, unmarked_fixed, and_self]
  have hafter : Lays (unlines ["\x7d"]) [] := lays_unlines (by decide)
  have hreturn : Lays (unlines [dispatchRegion ++ "\treturn nil"]) [dispatchWritten] :=
    hregion.unlines_singleton (by decide)
  exact ⟨by simp [dispatchPart], (hbefore.unlines_append hreturn).unlines_append hafter⟩

theorem lays_fixedParts :
    eventPart.Lays [] ∧ handlerTypePart.Lays [] ∧ lookupPart.Lays [] := by
  refine ⟨Part.lays_unmarked (by simp [eventPart]) ?_,
    Part.lays_unmarked (by simp [handlerTypePart]) ?_,
    Part.lays_unmarked (by simp [lookupPart]) ?_⟩ <;>
    simp (disch := with_reducible refine id ?_; refine unmarked_ofList ?_; decide) only
      [eventPart, handlerTypePart, lookupPart, List.forall_mem_cons, unmarked_nil, unmarked_fixed,
        and_self]

/-- The handlers have one region for each step, and one in the function that steps are handed to. -/
theorem lays_workflowListing {a : Application} (ha : a.Bare) :
    Lays (workflowListing a).text (a.workflows.flatMap stepsWritten ++ [dispatchWritten]) := by
  have himports : ∀ p ∈ (workflowListing a).imports, Unmarked p := by
    refine List.forall_mem_cons.mpr ⟨unmarked_of_colon (by decide), ?_⟩
    split
    · exact List.forall_mem_singleton.mpr (unmarked_of_colon (by decide))
    · exact List.forall_mem_nil _
  obtain ⟨hevent, htype, hlookup⟩ := lays_fixedParts
  have hhandlers : List.Forall₂ Part.Lays (a.workflows.map handlerPart)
      (a.workflows.map stepsWritten) := by
    rw [List.forall₂_map_left_iff, List.forall₂_map_right_iff, List.forall₂_same]
    exact fun w hw => lays_handler (ha.workflows w hw)
  have hlisting := lays_listing (l := workflowListing a) himports
    (List.rel_append (List.rel_append (.cons hevent (.cons htype (.cons
      (lays_handlerTable ha.workflows) .nil))) hhandlers)
      (.cons lays_dispatchPart (.cons hlookup .nil)))
  simpa [List.flatMap_def] using hlisting

end Scaffold.Server
