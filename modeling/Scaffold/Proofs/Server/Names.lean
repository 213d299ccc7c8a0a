import Scaffold.Client.Files
import Scaffold.Proofs.Build.Closed
import Scaffold.Proofs.Check.GeneratedNames
import Scaffold.Proofs.Server.Members
import Scaffold.Proofs.Source.Spelling
import Scaffold.Proofs.Text.Words
import Scaffold.Server.Files

/-! # Generated names do not collide

The checks claim names while they walk over the declarations; the code is generated from the model.
Each generated name is traced back to the claim that was made for it. -/
namespace Scaffold.Server

open Scaffold.Source Scaffold.Check Scaffold.Model Scaffold.Build
open Scaffold.Text (pascal camel isBlank isWordChar IsMark)

/-! ## Identifiers of the package -/

/-- The record types of an application: those of its entities, then those of its views. -/
def recordNames (a : Application) : List String :=
  a.entities.map (typeName ·.name) ++ a.views.map (typeName ·.name)

/-- The identifiers that the generated package declares. -/
def packageNames (a : Application) : List String :=
  ((a.enums.map enumType).flatMap fun e => e.name :: e.constants.map (·.1)) ++
    recordNames a ++ (resolvers a).map (·.name) ++ a.workflows.map (handlerName ·.name) ++
    ["Event", "WorkflowHandler", "Workflows", "dispatch", "lookup"]

theorem enum_idents {e : EnumDecl} (h : checkEnum e = []) :
    (enumType (buildEnum e)).name :: (enumType (buildEnum e)).constants.map (·.1) =
      packageIdents (.enum e) := by
  have hfirst : firstOf EnumValue.name [] e.values = e.values :=
    firstOf_eq (by simp) (checkEnum_accepted h)
  simp [enumType, buildEnum, packageIdents, hfirst, Function.comp_def]

/-- What is kept of a list and renamed, when exactly the members of a class are kept. -/
theorem map_filterMap_eq {α β γ : Type} {g : α → Option β} {p : α → Bool} {name : β → γ}
    {key : α → γ} {xs : List α} (hnone : ∀ x ∈ xs, p x = false → g x = none)
    (hsome : ∀ x ∈ xs, p x = true → ∃ y, g x = some y ∧ name y = key x) :
    (xs.filterMap g).map name = (xs.filter p).map key := by
  induction xs with
  | nil => rfl
  | cons x xs ih =>
    obtain ⟨hx, hxs⟩ := List.forall_mem_cons.mp hnone
    obtain ⟨hx', hxs'⟩ := List.forall_mem_cons.mp hsome
    cases hp : p x with
    | false =>
      rw [List.filterMap_cons_none (hx hp), List.filter_cons_of_neg (by simp [hp]), ih hxs hxs']
    | true =>
      obtain ⟨y, hy, hk⟩ := hx' hp
      rw [List.filterMap_cons_some hy, List.filter_cons_of_pos hp, List.map_cons, List.map_cons,
        hk, ih hxs hxs']

/-- The resolvers of an entity are those of its computed fields. -/
theorem entity_resolvers {s : Symbols} {e : EntityDecl} (he : EntityAccepted s e) :
    ((buildEntity s e).fields.filterMap (virtualResolver? (buildEntity s e))).map (·.name) =
      (e.fields.filter isComputed).map (resolverName e.name ·.name) := by
  have hfields : (buildEntity s e).fields = e.fields.map (buildField s e) := rfl
  rw [hfields, List.filterMap_map]
  refine map_filterMap_eq (fun f hf hc => ?_) fun f hf hc => ?_
  · have hv := (buildVirtual_eq_none he hf).mpr hc
    simp [virtualResolver?, buildField, hv]
  · cases hv : buildVirtual s e f with
    | none => simp [(buildVirtual_eq_none he hf).mp hv] at hc
    | some v =>
      obtain ⟨sp, -, hsome⟩ := Option.bind_eq_some_iff.mp hv
      obtain ⟨formula, -, hsome⟩ := Option.bind_eq_some_iff.mp hsome
      cases hsome
      simp [virtualResolver?, buildField, hv]

/-- A field of a view that is given by a formula. -/
def isFormula (p : Property) : Bool :=
  match p.value with
  | .string .. => true
  | _ => false

/-- The resolvers of a view are those of its formulas. -/
theorem view_resolvers {s : Symbols} {extra : List String} (hs : s.Accepted extra)
    (hn : EntitiesNamed s) {v : BlockDecl} (hv : v ∈ s.views) (name : String) :
    ((buildView s v).fields.filterMap (viewResolver? (build s name) (buildView s v))).map (·.name) =
      (viewFormulas v).map (resolverName v.name ·.key) := by
  obtain ⟨e, members, h⟩ := hs.view hv
  obtain ⟨hm, -, hbuilt⟩ := view_built h hs.distinct hn
  obtain ⟨key, q, at_, hf⟩ := h.fields
  have howner : (build s name).entity? (buildView s v).source = some (buildEntity s e) := by
    rw [hbuilt]
    exact find?_buildEntity hs.distinct hm
  have hfields : (buildView s v).fields =
      members.filterMap (buildViewField (declaredKind s e) v.name) := by rw [hbuilt]
  have hformulas : viewFormulas v = members.filter isFormula := by
    have hkeys : ((members.filter isFormula).map Entry.key).Nodup :=
      h.keys.sublist (List.filter_sublist.map _)
    simp only [viewFormulas, hf]
    exact firstOf_eq (by simp) hkeys
  rw [hfields, hformulas, List.filterMap_filterMap]
  refine map_filterMap_eq (fun r hr hc => ?_) fun r hr hc => ?_
  · cases hvalue : r.value with
    | string source p => simp [isFormula, hvalue] at hc
    | ident path p => simp [buildViewField, hvalue, viewResolver?]
    | number | boolean | array | object | env | call => simp [buildViewField, hvalue]
  · have hmember := h.member r hr
    cases hvalue : r.value with
    | string source p =>
      rw [hvalue] at hmember
      cases hmember with
      | formula _ parsed accepted =>
        simp [buildViewField, hvalue, viewResolver?, howner, parsed, Except.toOption]
    | ident | number | boolean | array | object | env | call => simp [isFormula, hvalue] at hc

/-- The resolvers of an application, as they were claimed. -/
theorem resolvers_build {s : Symbols} {extra : List String} (hs : s.Accepted extra)
    (hn : EntitiesNamed s) (name : String) :
    (resolvers (build s name)).map (·.name) =
      (s.entities.flatMap fun e =>
        (e.fields.filter isComputed).map (resolverName e.name ·.name)) ++
      s.views.flatMap fun v => (viewFormulas v).map (resolverName v.name ·.key) := by
  rw [resolvers, List.map_append, List.map_flatMap, List.map_flatMap]
  congr 1
  · simp only [build, List.flatMap_map]
    exact List.flatMap_congr fun e he => entity_resolvers (hs.entity he)
  · simp only [build, List.flatMap_map]
    exact List.flatMap_congr fun v hv => view_resolvers hs hn hv name

/-- The declared identifiers are those that were claimed, in another order. -/
theorem packageNames_perm {s : Symbols} {extra : List String} (hs : s.Accepted extra)
    (hn : EntitiesNamed s) (name : String) :
    (packageNames (build s name)).Perm
      (runtimeNames ++ s.decls.flatMap packageIdents ++ ["dispatch", "lookup"]) := by
  have henums : ((build s name).enums.map enumType).flatMap
      (fun e => e.name :: e.constants.map (·.1)) = s.enums.flatMap (packageIdents ∘ .enum) := by
    simp only [build, List.map_map, List.flatMap_map]
    exact List.flatMap_congr fun e he => enum_idents (hs.enums e he)
  have hentities := List.map_append_flatMap_perm s.entities (typeName ·.name)
    fun e => (e.fields.filter isComputed).map (resolverName e.name ·.name)
  have hviews := List.map_append_flatMap_perm s.views (typeName ·.name)
    fun v => (viewFormulas v).map (resolverName v.name ·.key)
  have hdecls := flatMap_decls_perm s packageIdents (fun _ => rfl) fun _ => rfl
  have hworkflows : (build s name).workflows.map (handlerName ·.name) =
      s.workflows.flatMap (packageIdents ∘ .workflow) := by
    rw [build, List.map_map]
    exact List.map_eq_flatMap
  have hrecords : recordNames (build s name) =
      s.entities.map (typeName ·.name) ++ s.views.map (typeName ·.name) := by
    simp only [recordNames, build, List.map_map]
    rfl
  rw [packageNames, henums, hrecords, resolvers_build hs hn name, hworkflows,
    List.perm_iff_count]
  intro ident
  have hentities := hentities.count_eq ident
  have hviews := hviews.count_eq ident
  have hdecls := hdecls.count_eq ident
  have hfixed : List.count ident ["Event", "WorkflowHandler", "Workflows", "dispatch", "lookup"] =
      List.count ident runtimeNames + List.count ident ["dispatch", "lookup"] := by
    rw [← List.count_append]
    rfl
  simp only [Function.comp_def, packageIdents, List.count_append] at hentities hviews hdecls hfixed ⊢
  omega

theorem ne_of_head {s t : String} (h : s.toList.head? ≠ t.toList.head?) : s ≠ t :=
  fun he => h (he ▸ rfl)

/-- Types and constants start with a capital, resolvers and handlers with words of their own. -/
theorem packageIdents_ne (d : Decl) :
    ∀ ident ∈ packageIdents d, ident ≠ "dispatch" ∧ ident ≠ "lookup" := by
  have hpascal (name rest : String) (hrest : rest ≠ "dispatch" ∧ rest ≠ "lookup") :
      pascal name ++ rest ≠ "dispatch" ∧ pascal name ++ rest ≠ "lookup" :=
    ⟨Text.pascal_append_ne (c := 'd') name rfl ⟨by decide, by decide⟩ hrest.1,
      Text.pascal_append_ne (c := 'l') name rfl ⟨by decide, by decide⟩ hrest.2⟩
  have htype (name : String) : typeName name ≠ "dispatch" ∧ typeName name ≠ "lookup" := by
    simpa [typeName] using hpascal name "" (by decide)
  have hresolver (owner field : String) :
      resolverName owner field ≠ "dispatch" ∧ resolverName owner field ≠ "lookup" :=
    ⟨ne_of_head (by simp [resolverName]), ne_of_head (by simp [resolverName])⟩
  cases d with
  | entity e =>
    exact List.forall_mem_cons.mpr ⟨htype e.name, List.forall_mem_map.mpr fun f _ =>
      hresolver e.name f.name⟩
  | enum e =>
    exact List.forall_mem_cons.mpr ⟨htype e.name, List.forall_mem_map.mpr fun v _ =>
      hpascal e.name _ (htype (Text.downcase v.name))⟩
  | view v =>
    exact List.forall_mem_cons.mpr ⟨htype v.name, List.forall_mem_map.mpr fun p _ =>
      hresolver v.name p.key⟩
  | workflow w =>
    exact List.forall_mem_singleton.mpr
      ⟨ne_of_head (by simp [handlerName]), ne_of_head (by simp [handlerName])⟩
  | page p => simp [packageIdents]
  | config c => simp [packageIdents]

theorem packageNames_nodup {s : Symbols} {extra : List String} (hs : s.Accepted extra)
    (hn : EntitiesNamed s) (name : String) : (packageNames (build s name)).Nodup := by
  rw [(packageNames_perm hs hn name).nodup_iff]
  refine List.Nodup.append hs.claimed.1 (by decide) fun ident hident hlast => ?_
  have hne : ident ≠ "dispatch" ∧ ident ≠ "lookup" := by
    rcases List.mem_append.mp hident with hm | hm
    · revert hm
      simp only [runtimeNames, List.mem_cons, List.not_mem_nil, or_false]
      rintro (rfl | rfl | rfl) <;> decide
    · obtain ⟨d, -, hd⟩ := List.mem_flatMap.mp hm
      exact packageIdents_ne d ident hd
  simp [hne] at hlast

/-! ## Record types -/

/-- A plan gives one record type to each entity and to each view. -/
theorem records_names {s : Symbols} {extra : List String} (hs : s.Accepted extra)
    (hn : EntitiesNamed s) (name : String) {tables : List Storage.Table}
    (h : Storage.plan (build s name) = .ok tables) :
    (records (build s name) tables).map (·.name) = recordNames (build s name) := by
  obtain ⟨own, hown, hrecords⟩ :=
    records_plan (build_entity? hs.distinct name) (build_entity?_empty hn name) h
  rw [hrecords, List.map_append, map_name_zipWith hown, List.map_map]
  rfl

/-! ## Regions -/

/-- The regions of the steps of a workflow. -/
def stepRegions (w : Workflow) : List String :=
  w.steps.zipIdx.map fun (_, n) => stepRegion w.name (n + 1)

/-- The files that hold regions, each with the ids of its regions in order. -/
def regionIds (a : Application) : List (String × List String) :=
  [(ddlPath, ["schema"]), ("resolvers.go", (resolvers a).map (·.name)),
    ("workflows.go", a.workflows.flatMap stepRegions ++ ["dispatch"])] ++
  a.pages.map fun p => (Client.pagePath (Rest.pageOf p), [p.name])

/-- A text without blanks. -/
def Unbroken (s : String) : Prop := ∀ c ∈ s.toList, isBlank c = false

instance (s : String) : Decidable (Unbroken s) :=
  List.decidableBAll (fun c => isBlank c = false) s.toList

theorem Unbroken.append {s t : String} (hs : Unbroken s) (ht : Unbroken t) :
    Unbroken (s ++ t) := by
  intro c hc
  rcases List.mem_append.mp (String.toList_append ▸ hc) with hc | hc
  · exact hs c hc
  · exact ht c hc

theorem unbroken_of_marks {s : String} (h : ∀ c ∈ s.toList, ¬ IsMark c) : Unbroken s :=
  fun c hc => Text.not_isBlank (h c hc)

theorem unbroken_resolverName (owner field : String) : Unbroken (resolverName owner field) := by
  have hresolve : Unbroken "resolve" := by decide
  exact (hresolve.append (unbroken_of_marks (Text.pascal_chars owner))).append
    (unbroken_of_marks (Text.pascal_chars field))

theorem toList_step (n : Nat) : (toString ((n : Int) + 1)).toList = Nat.toDigits 10 (n + 1) := by
  change (Nat.repr (n + 1)).toList = _
  simp [Nat.repr]

/-- The number of a step is written in digits. -/
theorem step_chars (n : Nat) : ∀ c ∈ (toString ((n : Int) + 1)).toList, ¬ IsMark c := by
  intro c hc
  rw [toList_step] at hc
  have hdigit := Char.isDigit_iff_toNat.mp (Nat.isDigit_of_mem_toDigits (by decide) (by decide) hc)
  have hall : ∀ m ∈ Text.marks, m < 48 ∨ 57 < m := by decide
  intro hm
  have := hall _ hm
  have h0 : '0'.toNat = 48 := rfl
  have h9 : '9'.toNat = 57 := rfl
  omega

theorem unbroken_stepRegion (w : String) (n : Nat) : Unbroken (stepRegion w (n + 1)) := by
  have hstep : Unbroken ".step" := by decide
  exact ((unbroken_of_marks (Text.camel_chars w)).append hstep).append
    (unbroken_of_marks (step_chars n))

/-- A region tells its workflow and its step: there is no full stop before the one in it. -/
theorem stepRegion_inj {v w : String} {m n : Nat}
    (h : stepRegion v (m + 1) = stepRegion w (n + 1)) : camel v = camel w ∧ m = n := by
  have hcamel : '.' ∉ (camel v).toList := fun hm => Text.camel_chars v '.' hm (by decide)
  have hnumber : '.' ∉ "step".toList ++ (toString ((m : Int) + 1)).toList := by
    intro hm
    rcases List.mem_append.mp hm with hm | hm
    · revert hm
      decide
    · exact step_chars m '.' hm (by decide)
  have hsplit : (camel v).toList ++ '.' :: ("step".toList ++ (toString ((m : Int) + 1)).toList) =
      (camel w).toList ++ '.' :: ("step".toList ++ (toString ((n : Int) + 1)).toList) := by
    simpa [stepRegion] using congrArg String.toList h
  obtain ⟨hname, -, hstep⟩ := (List.append_cons_inj_of_notMem hcamel hnumber).mp hsplit
  have hdigits : Nat.toDigits 10 (m + 1) = Nat.toDigits 10 (n + 1) := by
    rw [← toList_step, ← toList_step]
    exact List.append_cancel_left hstep
  have hread := congrArg (Nat.ofDigitChars 10 · 0) hdigits
  simp only [Nat.ofDigitChars_ten_toDigits] at hread
  exact ⟨String.toList_inj.mp hname, by omega⟩

theorem mem_stepRegions {w : Workflow} {id : String} (h : id ∈ stepRegions w) :
    ∃ n : Nat, id = stepRegion w.name (n + 1) := by
  obtain ⟨⟨st, n⟩, -, rfl⟩ := List.mem_map.mp h
  exact ⟨n, rfl⟩

/-- Workflows are told apart by the regions of their first steps. -/
theorem stepRegions_nodup {ws : List Workflow}
    (h : (ws.map (stepRegion ·.name 1)).Nodup) : (ws.flatMap stepRegions).Nodup := by
  rw [List.nodup_flatMap]
  constructor
  · intro w _
    have hmap : stepRegions w =
        (List.range' 0 w.steps.length).map fun n : Nat => stepRegion w.name (n + 1) := by
      rw [← List.zipIdx_map_snd, List.map_map]
      rfl
    rw [hmap]
    exact List.Nodup.map (fun m n he => (stepRegion_inj he).2) List.nodup_range'
  · refine (List.pairwise_map.mp h).imp fun {v w} hne id hv hw => hne ?_
    obtain ⟨m, rfl⟩ := mem_stepRegions hv
    obtain ⟨n, he⟩ := mem_stepRegions hw
    simp only [stepRegion, (stepRegion_inj he).1]

theorem dispatch_notMem (ws : List Workflow) : "dispatch" ∉ ws.flatMap stepRegions := by
  intro hm
  obtain ⟨w, -, hw⟩ := List.mem_flatMap.mp hm
  obtain ⟨n, he⟩ := mem_stepRegions hw
  have hdot : '.' ∈ "dispatch".toList := by
    rw [he]
    simp [stepRegion]
  revert hdot
  decide

theorem not_isBlank_of_isNamePart {c : Char} (h : isNamePart c = true) : isBlank c = false := by
  simp only [isNamePart, Bool.or_eq_true, decide_eq_true_eq] at h
  rcases h with (rfl | h) | h
  · decide
  · exact Text.not_isBlank (Text.not_isMark (by simp [isWordChar, h]))
  · exact Text.not_isBlank (Text.not_isMark (by simp [isWordChar, h]))

/-- The ids of the regions of a file are told apart, and none has a blank. -/
theorem regionIds_apart {s : Symbols} {extra : List String} (hs : s.Accepted extra)
    (hn : EntitiesNamed s) (name : String)
    (hspelled : ∀ p ∈ s.pages, ∀ c ∈ p.name.toList, isNamePart c = true) {file : String}
    {ids : List String} (h : (file, ids) ∈ regionIds (build s name)) :
    ids.Nodup ∧ ∀ id ∈ ids, Unbroken id := by
  simp only [regionIds, List.mem_append, List.mem_cons, Prod.mk.injEq, List.not_mem_nil,
    or_false] at h
  rcases h with (⟨-, rfl⟩ | ⟨-, rfl⟩ | ⟨-, rfl⟩) | hpage
  · exact ⟨by decide, by decide⟩
  · constructor
    · exact (packageNames_nodup hs hn name).of_append_left.of_append_left.of_append_right
    · rw [resolvers_build hs hn name]
      intro id hid
      rcases List.mem_append.mp hid with hid | hid
      · obtain ⟨e, -, hid⟩ := List.mem_flatMap.mp hid
        obtain ⟨f, -, rfl⟩ := List.mem_map.mp hid
        exact unbroken_resolverName e.name f.name
      · obtain ⟨v, -, hid⟩ := List.mem_flatMap.mp hid
        obtain ⟨p, -, rfl⟩ := List.mem_map.mp hid
        exact unbroken_resolverName v.name p.key
  · constructor
    · have hsteps : ((build s name).workflows.map (stepRegion ·.name 1)).Nodup := by
        rw [build, List.map_map]
        exact hs.claimed.2.1
      exact (stepRegions_nodup hsteps).append (by simp) (by simpa using dispatch_notMem _)
    · intro id hid
      rcases List.mem_append.mp hid with hid | hid
      · obtain ⟨w, -, hid⟩ := List.mem_flatMap.mp hid
        obtain ⟨n, rfl⟩ := mem_stepRegions hid
        exact unbroken_stepRegion w.name n
      · rw [List.mem_singleton.mp hid]
        decide
  · obtain ⟨p, hp, he⟩ := List.mem_map.mp hpage
    cases he
    obtain ⟨d, hd, rfl⟩ := List.mem_map.mp hp
    refine ⟨by simp, List.forall_mem_singleton.mpr fun c hc => ?_⟩
    have hpart := hspelled d hd c hc
    exact not_isBlank_of_isNamePart hpart

end Scaffold.Server

namespace Scaffold

open Scaffold.Source Scaffold.Model Scaffold.Build Scaffold.Server

theorem pageNames_spelled {path : String} {source : List Text.Rune} {f : File}
    (h : parseSource path source = .ok f) :
    ∀ p ∈ (Check.Symbols.mk f.decls).pages, ∀ c ∈ p.name.toList, isNamePart c = true := by
  intro p hp
  obtain ⟨d, hd, hpick⟩ := List.mem_filterMap.mp hp
  cases d <;> cases hpick
  exact parseSource_spelled h (.page p) hd

/-- The ids of the regions of a file are told apart, and none has a blank. -/
theorem compile_regionIds {path : String} {source : List Text.Rune} {opts : CompileOptions}
    {app : Application} (h : compile path source opts = .ok app) (file : String)
    {ids : List String} (hids : (file, ids) ∈ regionIds app) :
    ids.Nodup ∧ ∀ id ∈ ids, Unbroken id := by
  obtain ⟨f, hf, hnamed, haccepted, rfl⟩ := compile_ok h
  exact regionIds_apart haccepted (entitiesNamed_of_named hnamed) opts.name (pageNames_spelled hf)
    hids

/-- Something of every kind that gives a name to generated code. -/
def items : List Text.Rune := [
  "enum Size \x7b S L \x7d ",
  "entity Item \x7b id: Int primaryKey ",
  "sum: Int @virtual(from: \"id + id\") \x7d ",
  "view Sums \x7b source: Item ",
  "fields: \x7b sum: \"id + id\" \x7d \x7d ",
  "workflow Pay \x7b trigger: \"paid\" ",
  "step mail \x7b \x7d \x7d ",
  "page Items \x7b type: table entity: Item \x7d"].flatMap Text.runes

theorem items_compile : (compile "items" items ⟨[], ""⟩).toOption.isSome = true := by
  simp only [items, List.flatMap_cons]
  repeat rw [Text.runes_ofList]
  decide +kernel

end Scaffold
