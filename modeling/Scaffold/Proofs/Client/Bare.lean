import Scaffold.Client.Api
import Scaffold.Client.Page
import Scaffold.Client.Routes
import Scaffold.Proofs.Code.Bare
import Scaffold.Proofs.Rest.Bare
import Scaffold.Proofs.Text.Search

/-! # Scripts of the client without markers

The routes and the calls have no region, and each page has one. -/
namespace Scaffold.Client

open Scaffold.Rest Scaffold.Output Scaffold.Code
open Scaffold.Text (pascal quoted unlines cut? cut?_eq_some)

/-! ## Script text -/

theorem unmarked_scriptText {s : String} (h : Unmarked s) : Unmarked (scriptText s) :=
  Json.unmarked_quoteText false h

theorem unmarked_scriptTexts {ts : List String} (h : ∀ t ∈ ts, Unmarked t) :
    Unmarked (scriptTexts ts) := by
  rw [scriptTexts, unmarked_before (by decide), unmarked_after (by decide),
    unmarked_intercalate (by decide), List.forall_mem_map]
  exact fun t ht => unmarked_scriptText (h t ht)

/-- An escaped character begins with an ampersand. -/
theorem unmarked_markupText {s : String} (h : Unmarked s) : Unmarked (markupText s) := by
  refine unmarked_escaped (fun c => ?_) h
  unfold escapeMarkup
  split
  on_goal 8 => exact .inl rfl
  all_goals exact .inr (by decide)

theorem colon_scriptType (f : ResourceField) : ':' ∉ (scriptType f).toList := by
  unfold scriptType
  cases f.list <;> cases f.type <;> simp

theorem unmarked_header : ∀ l ∈ header, Unmarked l := by
  have hcomment := (unmarked_after (p := "// ") (by decide) _).mpr unmarked_generatedHeader
  exact List.forall_mem_cons.mpr ⟨hcomment, by decide⟩

/-! ## Routes -/

set_option maxRecDepth 2000 in
theorem lays_routesScript {s : Schema} (hs : s.json.Bare) : Lays (routesScript s) [] := by
  obtain ⟨-, -, -, -, -, hpages, -⟩ := (bare_schema s).mp hs
  have himport : ∀ p ∈ s.pages, Unmarked (pageImport p) := fun p hp => by
    obtain ⟨hname, -⟩ := (bare_pageAccess p).mp (hpages p hp)
    unfold pageImport
    simp (disch := with_reducible refine id ?_; refine isSeal_ofList ?_; decide) only
      [unmarked_before, unmarked_sealed, unmarked_after, hname, and_self]
  have hroute : ∀ p ∈ s.pages, Unmarked (routeEntry p) := fun p hp => by
    obtain ⟨hname, -, hroute, htitle, -, -, hpermissions, -⟩ :=
      (bare_pageAccess p).mp (hpages p hp)
    unfold routeEntry
    simp (disch := with_reducible refine id ?_; refine isSeal_ofList ?_; decide) only
      [unmarked_before, unmarked_sealed, unmarked_after]
    exact ⟨⟨⟨unmarked_scriptText hroute, unmarked_scriptText htitle⟩,
      unmarked_scriptTexts hpermissions⟩, hname⟩
  refine lays_unlines ?_
  simp (disch := with_reducible first
      | refine id ?_; refine isSeal_ofList ?_; decide
      | refine id ?_; refine unmarked_ofList ?_; decide) only [List.forall_mem_append,
        List.forall_mem_cons, List.forall_mem_map, unmarked_nil, unmarked_fixed, unmarked_after,
        and_true]
  exact ⟨⟨unmarked_header, himport⟩, hroute⟩

/-! ## Calls -/

theorem unmarked_interface {i : Interface} (hname : Unmarked i.name)
    (hmembers : ∀ m ∈ i.members, Unmarked m.1 ∧ Unmarked m.2) : ∀ l ∈ i.lines, Unmarked l := by
  have hopen : Unmarked ("export interface " ++ i.name ++ " \x7b") := by
    simp (disch := with_reducible refine id ?_; refine isSeal_ofList ?_; decide) only
      [unmarked_before, unmarked_after, hname]
  have hmember : ∀ m ∈ i.members, Unmarked ("  " ++ m.1 ++ ": " ++ m.2 ++ ";") := fun m hm => by
    simp (disch := with_reducible refine id ?_; refine isSeal_ofList ?_; decide) only
      [unmarked_before, unmarked_sealed, unmarked_after, hmembers m hm, and_self]
  refine List.forall_mem_append.mpr ⟨List.forall_mem_append.mpr ⟨?_, ?_⟩, by decide⟩
  · exact List.forall_mem_singleton.mpr hopen
  · exact List.forall_mem_map.mpr hmember

theorem unmarked_resourceInterface {r : Resource} (hr : r.json.Bare) :
    ∀ l ∈ (resourceInterface r).lines, Unmarked l := by
  obtain ⟨-, -, -, hfields, -⟩ := (bare_resource r).mp hr
  refine unmarked_interface (Model.unmarked_pascal r.name) (List.forall_mem_map.mpr fun f hf => ?_)
  refine ⟨?_, unmarked_of_colon (colon_scriptType f)⟩
  have hname := ((bare_resourceField f).mp (hfields f hf)).1
  split
  · exact (unmarked_before (by decide) f.name).mpr hname
  · rwa [String.append_empty]

theorem unmarked_viewInterface {v : ViewRoute} (hv : v.json.Bare) :
    ∀ l ∈ (viewInterface v).lines, Unmarked l := by
  obtain ⟨-, -, -, hfields⟩ := (bare_viewRoute v).mp hv
  refine unmarked_interface (Model.unmarked_pascal v.name) (List.forall_mem_map.mpr fun f hf => ?_)
  exact ⟨((bare_resourceField f).mp (hfields f hf)).1, unmarked_of_colon (colon_scriptType f)⟩

/-- A parameter of a path and the path around it are parts of the path. -/
theorem unmarked_pathParam {path param template : String} (hpath : Unmarked path)
    (h : pathParam? path = some (param, template)) : Unmarked param ∧ Unmarked template := by
  unfold pathParam? at h
  obtain ⟨⟨before, rest⟩, hopen, h⟩ := Option.bind_eq_some_iff.mp h
  obtain ⟨⟨name, after⟩, hclose, h⟩ := Option.bind_eq_some_iff.mp h
  cases h
  have hsplit : path.toList = before ++ '\x7b' :: (name ++ '\x7d' :: after) := by
    rw [cut?_eq_some hopen, cut?_eq_some hclose]
    simp
  have hpart (cs : List Char) (hcs : cs <:+: path.toList) : Unmarked (String.ofList cs) :=
    hpath.of_infix (by simpa using hcs)
  have hname := hpart name ⟨before ++ ['\x7b'], '\x7d' :: after, by simp [hsplit]⟩
  have hbefore := hpart before ⟨[], '\x7b' :: (name ++ '\x7d' :: after), by simp [hsplit]⟩
  have hafter := hpart after ⟨before ++ '\x7b' :: name ++ ['\x7d'], [], by simp [hsplit]⟩
  refine ⟨hname, ?_⟩
  simp (disch := with_reducible refine id ?_; refine isSeal_ofList ?_; decide) only [unmarked_sealed]
  exact ⟨⟨hbefore, hname⟩, hafter⟩

theorem unmarked_answerType {type : String} (h : Unmarked type) (method : String) (single : Bool) :
    Unmarked (answerType type method single).1 := by
  unfold answerType
  split
  · dsimp only
    split
    · exact h
    · exact (unmarked_before (by decide) type).mpr h
  · exact h
  · exact h
  · exact unmarked_of_colon (by decide)
  · exact unmarked_empty

theorem unmarked_clientCall {type : String} (htype : Unmarked type) {op : Operation}
    (hop : op.json.Bare) : Unmarked (clientCall type op) := by
  obtain ⟨-, hmethod, hpath⟩ := (bare_operation op).mp hop
  have hname : ∀ name ∈ ((pathParam? op.path).map fun param => param.1 ++ ": string").toList,
      Unmarked name := by
    cases hparam : pathParam? op.path with
    | none => simp
    | some param =>
      have hstring : IsSeal ": string" := by decide
      exact List.forall_mem_singleton.mpr
        ((unmarked_before hstring param.1).mpr (unmarked_pathParam hpath hparam).1)
  have htemplate : Unmarked (((pathParam? op.path).map (·.2)).getD op.path) := by
    cases hparam : pathParam? op.path with
    | none => exact hpath
    | some param => exact (unmarked_pathParam hpath hparam).2
  have hdata (body : Bool) :
      ∀ data ∈ (if body then ["data: Partial<" ++ type ++ ">"] else []), Unmarked data := by
    split
    · -- A marker may end in the first letter of this line, so it is cut behind its first word.
      have hword : "data: Partial<" = "data" ++ ": Partial<" := by decide
      rw [List.forall_mem_singleton, unmarked_before (by decide), hword,
        unmarked_sealed (by decide)]
      exact ⟨by decide, htype⟩
    · exact List.forall_mem_nil _
  have hbody (body : Bool) : Attachable (if body then ", data" else "") := by
    split
    · exact IsSeal.attachable (by decide)
    · exact attachable_empty
  have hanswer := unmarked_answerType htype op.method (pathParam? op.path).isSome
  unfold clientCall
  dsimp only
  rw [unmarked_before (by decide)]
  refine hbody _ _ ?_
  simp (disch := with_reducible refine id ?_; refine isSeal_ofList ?_; decide) only
    [unmarked_before, unmarked_sealed, unmarked_after, unmarked_intercalate]
  exact ⟨⟨⟨List.forall_mem_append.mpr ⟨hname, hdata _⟩, hanswer⟩, unmarked_quoted hmethod⟩,
    htemplate⟩

/-- A call without a marker, under a name without one. -/
theorem unmarked_calls {s : Schema} (hs : s.json.Bare) :
    ∀ c ∈ calls s, Unmarked c.1 ∧ Unmarked c.2 := by
  obtain ⟨-, -, -, hresources, hviews, -⟩ := (bare_schema s).mp hs
  refine List.forall_mem_append.mpr ⟨?_, List.forall_mem_map.mpr fun v hv => ?_⟩
  · refine List.forall_mem_flatMap.mpr fun r hr => List.forall_mem_map.mpr fun op hop => ?_
    obtain ⟨-, -, -, -, hops⟩ := (bare_resource r).mp (hresources r hr)
    exact ⟨((bare_operation op).mp (hops op hop)).1,
      unmarked_clientCall (Model.unmarked_pascal r.name) (hops op hop)⟩
  · have hpath := ((bare_viewRoute v).mp (hviews v hv)).2.1
    have hcall : Unmarked
        ("() => request<" ++ pascal v.name ++ "[]>(\"GET\", " ++ scriptText v.path ++ ")") := by
      simp (disch := with_reducible refine id ?_; refine isSeal_ofList ?_; decide) only
        [unmarked_before, unmarked_sealed, unmarked_after]
      exact ⟨Model.unmarked_pascal v.name, unmarked_scriptText hpath⟩
    exact ⟨unmarked_of_colon (by simp), hcall⟩

set_option maxRecDepth 2000 in
theorem lays_apiScript {s : Schema} (hs : s.json.Bare) : Lays (apiScript s) [] := by
  obtain ⟨-, -, -, hresources, hviews, -⟩ := (bare_schema s).mp hs
  have hinterfaces : ∀ l ∈ (interfaces s).flatMap Interface.lines, Unmarked l := by
    refine List.forall_mem_flatMap.mpr (List.forall_mem_append.mpr ⟨?_, ?_⟩)
    · exact List.forall_mem_map.mpr fun r hr => unmarked_resourceInterface (hresources r hr)
    · exact List.forall_mem_map.mpr fun v hv => unmarked_viewInterface (hviews v hv)
  have hrequest : ∀ l ∈ requestLines, Unmarked l := by
    unfold requestLines
    simp (disch := with_reducible refine id ?_; refine unmarked_ofList ?_; decide) only
      [List.forall_mem_cons, unmarked_nil, unmarked_fixed, true_and]
  have hcalls : ∀ l ∈ (calls s).map fun c => "  " ++ c.1 ++ ": " ++ c.2 ++ ",", Unmarked l := by
    refine List.forall_mem_map.mpr fun c hc => ?_
    simp (disch := with_reducible refine id ?_; refine isSeal_ofList ?_; decide) only
      [unmarked_before, unmarked_sealed, unmarked_after]
    exact unmarked_calls hs c hc
  have hopen : ∀ l ∈ ["export const api = \x7b"], Unmarked l := by decide
  have hclose : ∀ l ∈ ["\x7d;"], Unmarked l := by decide
  refine lays_unlines ?_
  simp only [List.forall_mem_append]
  exact ⟨⟨⟨⟨⟨unmarked_header, hinterfaces⟩, hrequest⟩, hopen⟩, hcalls⟩, hclose⟩

/-! ## Pages -/

theorem colon_inputType (s : Schema) (entity field : String) :
    ':' ∉ (inputType s entity field).toList := by
  have hknown (f : ResourceField) : ∀ type, inputType? f = some type → ':' ∉ type.toList := by
    unfold inputType?
    split <;> simp
  unfold inputType
  cases hinput : ((resourceFields s entity).filter (·.name == field)).findSome? inputType? with
  | none => simp
  | some type =>
    obtain ⟨f, -, hf⟩ := List.exists_of_findSome?_eq_some hinput
    exact hknown f type hf

theorem unmarked_reactImport {names : String} (h : Unmarked names) :
    Unmarked (reactImport names) := by
  unfold reactImport
  simp (disch := with_reducible refine id ?_; refine isSeal_ofList ?_; decide) only
    [unmarked_before, unmarked_after, h]

theorem unmarked_clientImport (entity : String) : Unmarked (clientImport (pascal entity)) := by
  unfold clientImport
  simp (disch := with_reducible refine id ?_; refine isSeal_ofList ?_; decide) only
    [unmarked_before, unmarked_after, Model.unmarked_pascal]

theorem unmarked_title {title : String} (h : Unmarked title) :
    Unmarked ("      <h1>" ++ markupText title ++ "</h1>") := by
  simp (disch := with_reducible refine id ?_; refine isSeal_ofList ?_; decide) only
    [unmarked_before, unmarked_after]
  exact unmarked_markupText h

/-- The region of a page, before what the page shows. -/
def pageWritten (p : PageAccess) : Region := .written "  //" p.name ""

section Pages

variable {s : Schema} {p : PageAccess}

theorem lays_page (hid : IsId p.name) {before after : List String}
    (hbefore : ∀ l ∈ before, Unmarked l) (hafter : ∀ l ∈ after, Unmarked l) :
    Lays (unlines before ++ pageRegion p ++ unlines after) [pageWritten p] := by
  have hregion : Lays (pageRegion p) [pageWritten p] :=
    lays_region ⟨by decide, by decide, by decide, by decide⟩ hid
      unmarked_empty
  exact ((lays_unlines hbefore).append hregion).append (lays_unlines hafter)

theorem lays_customPage (hid : IsId p.name) (hp : p.json.Bare) :
    Lays (customPage p) [pageWritten p] := by
  obtain ⟨hname, -, -, -, -, -, -, -, -, hcomponent⟩ := (bare_pageAccess p).mp hp
  refine lays_page hid ?_ ?_ <;>
    simp (disch := with_reducible first
        | refine id ?_; refine isSeal_ofList ?_; decide
        | refine id ?_; refine unmarked_ofList ?_; decide) only [List.forall_mem_append, List.forall_mem_cons, unmarked_nil,
        unmarked_fixed, unmarked_before, unmarked_sealed, unmarked_after, hname, hcomponent,
        and_self, and_true]
  exact unmarked_header

theorem lays_tablePage (hid : IsId p.name) (hp : p.json.Bare) :
    Lays (tablePage p) [pageWritten p] := by
  obtain ⟨hname, -, -, htitle, -, -, -, hcolumns, -⟩ := (bare_pageAccess p).mp hp
  have hreact : Unmarked (reactImport "useEffect, useState") :=
    unmarked_reactImport (unmarked_of_colon (by decide))
  have hlist : Unmarked ("    api.list" ++ pascal p.entity) := unmarked_of_colon (by simp)
  refine lays_page hid ?_ ?_ <;>
    simp (disch := with_reducible first
        | refine id ?_; refine isSeal_ofList ?_; decide
        | refine id ?_; refine unmarked_ofList ?_; decide) only [List.forall_mem_append, List.forall_mem_cons, List.forall_mem_map,
        unmarked_nil, unmarked_fixed, unmarked_before, unmarked_after, hname, hreact, hlist,
        unmarked_clientImport, Model.unmarked_pascal, unmarked_title htitle, and_self, and_true,
        true_and]
  · exact unmarked_header
  · exact hcolumns

theorem unmarked_formInput (s : Schema) (entity : String) {field : String} (h : Unmarked field) :
    ∀ l ∈ formInput s entity field, Unmarked l := by
  have htype : Unmarked (inputType s entity field) := unmarked_of_colon (colon_inputType s entity field)
  unfold formInput
  simp (disch := with_reducible first
      | refine id ?_; refine isSeal_ofList ?_; decide
      | refine id ?_; refine unmarked_ofList ?_; decide) only [List.forall_mem_cons, unmarked_nil,
        unmarked_fixed, unmarked_before, unmarked_sealed, unmarked_after, unmarked_quoted h,
        unmarked_quoted htype, h, and_self]

theorem lays_formPage (s : Schema) (hid : IsId p.name) (hp : p.json.Bare) :
    Lays (formPage s p) [pageWritten p] := by
  obtain ⟨hname, -, -, htitle, -, -, -, -, hfields, -⟩ := (bare_pageAccess p).mp hp
  have hreact : Unmarked (reactImport "useState") :=
    unmarked_reactImport (unmarked_of_colon (by decide))
  have hinputs : ∀ l ∈ p.fields.flatMap (formInput s p.entity), Unmarked l :=
    List.forall_mem_flatMap.mpr fun f hf => unmarked_formInput s p.entity (hfields f hf)
  refine lays_page hid ?_ ?_ <;>
    simp (disch := with_reducible first
        | refine id ?_; refine isSeal_ofList ?_; decide
        | refine id ?_; refine unmarked_ofList ?_; decide) only [List.forall_mem_append,
        List.forall_mem_cons, unmarked_nil, unmarked_fixed, unmarked_before, unmarked_after, hname,
        hreact, unmarked_clientImport, Model.unmarked_pascal, unmarked_title htitle, and_self,
        and_true, true_and]
  · exact unmarked_header
  · exact hinputs

theorem lays_detailsPage (hs : s.json.Bare) (hid : IsId p.name) (hp : p.json.Bare) :
    Lays (detailsPage s p) [pageWritten p] := by
  obtain ⟨hname, -, -, htitle, -⟩ := (bare_pageAccess p).mp hp
  have hreact : Unmarked (reactImport "useEffect, useState") :=
    unmarked_reactImport (unmarked_of_colon (by decide))
  have hget : Unmarked ("    api.get" ++ pascal p.entity) := unmarked_of_colon (by simp)
  have hfields : ∀ f ∈ resourceFields s p.entity, Unmarked f.name := by
    unfold resourceFields
    cases hr : s.resources.find? (·.name == p.entity) with
    | none => exact List.forall_mem_nil _
    | some r =>
      obtain ⟨-, -, -, hresources, -⟩ := (bare_schema s).mp hs
      obtain ⟨-, -, -, hfields, -⟩ :=
        (bare_resource r).mp (hresources r (List.mem_of_find?_eq_some hr))
      exact fun f hf => ((bare_resourceField f).mp (hfields f hf)).1
  have hrows : ∀ l ∈ ((resourceFields s p.entity).filter (!·.writeOnly)).flatMap (fun f =>
      ["        <dt>" ++ f.name ++ "</dt>",
        "        <dd>\x7bString(record." ++ f.name ++ " ?? \"\")\x7d</dd>"]), Unmarked l := by
    refine List.forall_mem_flatMap.mpr fun f hf => ?_
    have hf := hfields f (List.mem_filter.mp hf).1
    simp (disch := with_reducible refine id ?_; refine isSeal_ofList ?_; decide) only
      [List.forall_mem_cons, unmarked_nil, unmarked_before, unmarked_after, hf, and_self]
  refine lays_page hid ?_ ?_ <;>
    simp (disch := with_reducible first
        | refine id ?_; refine isSeal_ofList ?_; decide
        | refine id ?_; refine unmarked_ofList ?_; decide) only [List.forall_mem_append,
        List.forall_mem_cons, unmarked_nil, unmarked_fixed, unmarked_before, unmarked_after, hname,
        hreact, hget, unmarked_clientImport, Model.unmarked_pascal, unmarked_title htitle, and_self,
        and_true, true_and]
  · exact unmarked_header
  · exact hrows

/-- The script of a page has the region before what it shows. -/
theorem lays_pageScript (hs : s.json.Bare) (hid : IsId p.name) (hp : p.json.Bare) :
    Lays (pageScript s p) [pageWritten p] := by
  unfold pageScript
  split
  · exact lays_customPage hid hp
  · exact lays_tablePage hid hp
  · exact lays_formPage s hid hp
  · exact lays_detailsPage hs hid hp

end Pages

end Scaffold.Client
