import Scaffold.Proofs.Client.Agreement
import Scaffold.Proofs.Client.Bare
import Scaffold.Proofs.Server.Bare
import Scaffold.Proofs.Server.Workflows

/-! # The regions of generated files

Texts of an application stand in many places of its files. As long as none of them has a marker, a
file has the regions that were written into it and no others. A text with a marker can open a region
of its own, since a marker is looked for anywhere in a line. -/
namespace Scaffold

open Scaffold.Source Scaffold.Model Scaffold.Build Scaffold.Output

/-- The regions that are written into each file of the server, in order. -/
def serverRegions (a : Application) : List (String × List Region) :=
  [(Server.ddlPath, [.written "--" "schema" ""]),
    (Server.schemaPath, []),
    ("models.go", []),
    ("resolvers.go", (Server.resolvers a).map Server.Resolver.written),
    ("workflows.go", a.workflows.flatMap Server.stepsWritten ++ [Server.dispatchWritten])]

/-- The regions that are written into each file of the client, in order. -/
def clientRegions (a : Application) : List (String × List Region) :=
  [("src/routes.ts", []), ("src/api/client.ts", [])] ++
    a.pages.map fun p => (Client.pagePath (Rest.pageOf p), [Client.pageWritten (Rest.pageOf p)])

/-- Each file reads as the regions that were written into it. -/
def ReadsAs (files : Tree) (regions : List (String × List Region)) : Prop :=
  List.Forall₂ (fun f r => f.1 = r.1 ∧ parseRegions f.2 = .ok r.2) files regions

theorem ReadsAs.parse {files : Tree} {regions : List (String × List Region)}
    (h : ReadsAs files regions) {path content : String} (hget : files.get? path = some content) :
    ∃ rs, (path, rs) ∈ regions ∧ parseRegions content = .ok rs := by
  obtain ⟨before, after, hsplit, -⟩ := List.lookup_eq_some_iff.mp hget
  have hfile : (path, content) ∈ files := by simp [hsplit]
  obtain ⟨⟨file, rs⟩, hrs, rfl, hparse⟩ := exists_of_mem_left h hfile
  exact ⟨rs, hrs, hparse⟩

/-! ## Ids -/

/-- An option cannot bring in another provider than the configured one. -/
theorem resolve_auth {requested : Generator.Requested} {a : Application} {o : Generator.Options}
    (h : Generator.resolve requested a = .ok o) : o.auth = Generator.configuredAuth a.config := by
  obtain ⟨database, auth, integrations⟩ := requested
  simp only [Generator.resolve] at h
  repeat' split at h
  all_goals cases h <;> first | rfl | assumption

theorem unmarked_auth {requested : Generator.Requested} {a : Application} {o : Generator.Options}
    (h : Generator.resolve requested a = .ok o) : Unmarked o.auth := by
  rw [resolve_auth h, Generator.configuredAuth]
  cases a.config.auth with
  | none => exact unmarked_of_colon (by simp [Generator.noAuth])
  | some auth => cases auth <;> exact unmarked_of_colon (by simp [Auth.provider])

theorem isId_resolverName (owner field : String) : IsId (resolverName owner field) where
  ne_empty := by simp [resolverName]
  unbroken := Server.unbroken_resolverName owner field
  unmarked := unmarked_resolverName owner field

section Ids

variable {path : String} {source : List Text.Rune} {opts : CompileOptions} {app : Application}

theorem isId_resolver (h : compile path source opts = .ok app) :
    ∀ r ∈ Server.resolvers app, IsId r.name := by
  obtain ⟨f, -, hnamed, haccepted, rfl⟩ := compile_ok h
  have hnames : ∀ name ∈ (Server.resolvers (build ⟨f.decls⟩ opts.name)).map (·.name),
      IsId name := by
    rw [Server.resolvers_build haccepted (entitiesNamed_of_named hnamed)]
    refine List.forall_mem_append.mpr ⟨?_, ?_⟩
    · exact List.forall_mem_flatMap.mpr fun e _ => List.forall_mem_map.mpr fun g _ =>
        isId_resolverName e.name g.name
    · exact List.forall_mem_flatMap.mpr fun v _ => List.forall_mem_map.mpr fun p _ =>
        isId_resolverName v.name p.key
  exact List.forall_mem_map.mp hnames

theorem isId_page (h : compile path source opts = .ok app) (ha : app.Bare) :
    ∀ p ∈ app.pages, IsId p.name := by
  intro p hp
  have hunmarked := ((bare_page p).mp (ha.pages p hp)).1
  obtain ⟨f, hf, hnamed, -, rfl⟩ := compile_ok h
  obtain ⟨d, hd, rfl⟩ := List.mem_map.mp hp
  have hspelled := pageNames_spelled hf d hd
  have hne : d.name ≠ "" := by
    obtain ⟨decl, hdecl, hpick⟩ := List.mem_filterMap.mp hd
    have hnamed := hnamed decl hdecl
    cases decl <;> cases hpick
    exact hnamed
  exact ⟨hne, fun c hc => Server.not_isBlank_of_isNamePart (hspelled c hc), hunmarked⟩

end Ids

/-! ## Files -/

section Files

variable {path : String} {source : List Text.Rune} {opts : CompileOptions} {app : Application}
  (h : compile path source opts = .ok app) (ha : app.Bare)
include h ha

theorem resolvers_read : parseRegions (Server.resolverListing app).text =
    .ok ((Server.resolvers app).map Server.Resolver.written) := by
  refine (Server.lays_resolverListing ha (isId_resolver h)).parseRegions ?_
  have hids := (compile_regionIds h "resolvers.go" (.tail _ (.head _))).1
  simpa [Function.comp_def, Server.Resolver.written, Region.written] using hids

theorem workflows_read : parseRegions (Server.workflowListing app).text =
    .ok (app.workflows.flatMap Server.stepsWritten ++ [Server.dispatchWritten]) := by
  refine (Server.lays_workflowListing ha).parseRegions ?_
  have hids := (compile_regionIds h "workflows.go" (.tail _ (.tail _ (.head _)))).1
  rw [List.map_append, List.map_flatMap]
  simp only [Server.map_stepsWritten]
  exact hids

theorem server_reads {o : Generator.Options} (hauth : Unmarked o.auth) {server : Tree}
    (hserver : Server.files app o = .ok server) : ReadsAs server (serverRegions app) := by
  obtain ⟨tables, text, htables, htext, rfl⟩ := Client.files_ok hserver
  have hbare := Storage.plan_bare htables
  have hdefaults : ∀ t ∈ tables, ∀ c ∈ t.columns, Storage.BareDefault c := by
    intro t ht c hc v hv
    obtain ⟨e, he, f, hf, hdefault⟩ :=
      Storage.default_of_field (Storage.compile_plannable h) htables t ht c hc _ hv
    obtain ⟨-, hfields, -⟩ := (bare_entity e).mp (ha.entities e he)
    obtain ⟨-, -, hdefaults, -⟩ := (bare_field f).mp (hfields f hf)
    exact (bare_literal v).mp (hdefaults _ hdefault)
  have hscript := (Storage.lays_schemaScript ha o.database hbare hdefaults).parseRegions (by simp)
  have hschema := (Rest.lays_schema ha hauth htext).parseRegions (by simp)
  have hrecords := (Server.lays_recordListing ha hbare).parseRegions (by simp)
  exact .cons ⟨rfl, hscript⟩ (.cons ⟨rfl, hschema⟩ (.cons ⟨rfl, hrecords⟩
    (.cons ⟨rfl, resolvers_read h ha⟩ (.cons ⟨rfl, workflows_read h ha⟩ .nil))))

theorem client_reads {o : Generator.Options} (hauth : Unmarked o.auth) {server : Tree}
    (hserver : Server.files app o = .ok server) :
    ∃ client, Client.files server = .ok client ∧ ReadsAs client (clientRegions app) := by
  obtain ⟨text, htext, hread⟩ := Rest.ofText?_lines (Client.schemaOf_named h o)
  have hclosed := closed_of_compile h
  have hchecks : ∀ p ∈ (Rest.schemaOf app o).pages,
      Client.checkPage (Rest.schemaOf app o) p = .ok () :=
    List.forall_mem_map.mpr fun p hp => Client.checkPage_ok hclosed o hp
  have hnames : ((Rest.schemaOf app o).pages.map (·.name)).Nodup := by
    simp only [Rest.schemaOf, List.map_map]
    exact hclosed.page_names
  have hclient : Client.files server = Client.filesOf (Rest.schemaOf app o) := by
    simp only [Client.files, Client.files_schema hserver htext, hread]
  refine ⟨_, hclient.trans (Client.filesOf_ok hchecks hnames), ?_⟩
  have hs := Rest.bare_schemaOf ha hauth
  have hroutes := (Client.lays_routesScript hs).parseRegions (by simp)
  have hcalls := (Client.lays_apiScript hs).parseRegions (by simp)
  refine List.rel_append (.cons ⟨rfl, hroutes⟩ (.cons ⟨rfl, hcalls⟩ .nil)) ?_
  rw [Rest.schemaOf, List.map_map, List.forall₂_map_left_iff, List.forall₂_map_right_iff,
    List.forall₂_same]
  intro p hp
  have hpage := Client.lays_pageScript hs (isId_page h ha p hp) (Rest.bare_pageOf ha hp)
  exact ⟨rfl, hpage.parseRegions (by simp)⟩

end Files

/-- As long as no text of the application has a marker, each file of the server and of the client
reads as the regions that were written into it: none is lost, none is forged, and each has its id
and its body. -/
theorem compile_regions {path : String} {source : List Text.Rune} {opts : CompileOptions}
    {app : Application} (hcompile : compile path source opts = .ok app)
    (htexts : ∀ t ∈ app.texts, Unmarked t) {requested : Generator.Requested}
    {o : Generator.Options} (hoptions : Generator.resolve requested app = .ok o) {server : Tree}
    (hserver : Server.files app o = .ok server) :
    ReadsAs server (serverRegions app) ∧
      ∃ client, Client.files server = .ok client ∧ ReadsAs client (clientRegions app) := by
  have ha := Application.bare_of_texts htexts
  have hauth := unmarked_auth hoptions
  exact ⟨server_reads hcompile ha hauth hserver, client_reads hcompile ha hauth hserver⟩

theorem items_regions : ∃ app o server, compile "" items ⟨[], ""⟩ = .ok app ∧
    (∀ t ∈ app.texts, Unmarked t) ∧ Generator.resolve ⟨none, none, none⟩ app = .ok o ∧
    Server.files app o = .ok server ∧ ReadsAs server (serverRegions app) ∧
      ∃ client, Client.files server = .ok client ∧ ReadsAs client (clientRegions app) := by
  obtain ⟨app, o, server, hcompile, hresolve, hserver, htexts⟩ := Client.served?_any items
    (p := fun q => ∀ t ∈ q.1.texts, Unmarked t)
    (by simp only [items, List.flatMap_cons]; repeat rw [Text.runes_ofList]
        decide +kernel)
  exact ⟨app, o, server, hcompile, htexts, hresolve, hserver,
    compile_regions hcompile htexts hresolve hserver⟩

/-- The name of an application that tells of markers. -/
def guide : List Text.Rune :=
  Text.runes "config \x7b name: \"How to use stalmer:custom:begin markers\" \x7d"

/-- The lines of the script for an application of this name. -/
def guideLines : List String :=
  ["-- Code generated by stalmer. DO NOT EDIT outside custom regions.\n",
    "-- application: How to use stalmer:custom:begin markers, database: sqlite\n", "\n",
    "-- stalmer:custom:begin schema\n", "-- stalmer:custom:end schema\n"]

/-- The second line opens a region, and the fourth line another one in it. -/
theorem parseRegions_guideLines :
    parseRegions (String.join guideLines) = .error (.nested 4 "schema" "markers,") := by
  have hlines : Text.Lined guideLines := Text.lined_of_isLine (by
    intro l hl
    simp only [guideLines, List.mem_cons, List.not_mem_nil, or_false] at hl
    rcases hl with rfl | rfl | rfl | rfl | rfl <;>
      rw [Text.IsLine, String.toList_ofList] <;>
      exact ⟨_, by decide, (List.dropLast_concat_getLast (by simp)).symm⟩)
  have hplain : Plain "-- Code generated by stalmer. DO NOT EDIT outside custom regions.\n" :=
    plain_of_unmarked (unmarked_of_colon (by rw [String.toList_ofList]; decide))
  have hname : marker? beginMarker
      "-- application: How to use stalmer:custom:begin markers, database: sqlite\n" =
        some ("-- application: How to use ", "markers,") := by
    rw [marker?, beginMarker, String.toList_ofList, String.toList_ofList]
    rfl
  have hempty : Plain "\n" := plain_of_unmarked (unmarked_of_colon (by decide))
  have hregion : marker? beginMarker "-- stalmer:custom:begin schema\n" =
      some ("-- ", "schema") := by
    rw [marker?, beginMarker, String.toList_ofList, String.toList_ofList]
    rfl
  rw [parseRegions, parseChunks, Text.lines_join hlines, guideLines]
  rw [chunksFrom_line hplain, chunksFrom, hname]
  simp only [chunksFrom, hempty.1, hempty.2, hregion]
  rfl

/-- The name stands in a comment of the script. There it opens a region, and the script cannot be
read. -/
theorem guide_forged : ∃ app o server script, compile "" guide ⟨[], ""⟩ = .ok app ∧
    Generator.resolve ⟨none, none, none⟩ app = .ok o ∧ Server.files app o = .ok server ∧
    server.get? Server.ddlPath = some script ∧
    parseRegions script = .error (.nested 4 "schema" "markers,") ∧
    ¬ ReadsAs server (serverRegions app) := by
  obtain ⟨app, o, server, hcompile, hresolve, hserver, hscript⟩ := Client.served?_any guide
    (p := fun q => q.2.2.get? Server.ddlPath = some (String.join guideLines))
    (by rw [guide, Text.runes_ofList]; decide +kernel)
  have hread := parseRegions_guideLines
  refine ⟨app, o, server, _, hcompile, hresolve, hserver, hscript, hread,
    fun hreads => ?_⟩
  obtain ⟨rs, -, hok⟩ := hreads.parse hscript
  cases hread.symm.trans hok

end Scaffold
