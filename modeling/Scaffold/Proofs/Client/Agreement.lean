import Scaffold.Client.Files
import Scaffold.Proofs.Client.Outline
import Scaffold.Proofs.Rest.RoundTrip
import Scaffold.Proofs.Server.Names

/-! # The client agrees with the server

The client is made from the schema that the server wrote. Everything that a page of the client
calls, imports or shows is offered by the client's own module, which is made from the same
schema. -/
namespace Scaffold.Client

open Scaffold.Source Scaffold.Check Scaffold.Build Scaffold.Model Scaffold.Rest
open Scaffold.Text (pascal)

/-! ## Operations -/

/-- The verbs that the names of operations start with. -/
def verbs : List String := ["list", "create", "get", "update", "delete", "view"]

/-- Verbs start with different letters, so the name of an operation tells its verb and its noun. -/
theorem verb_append_inj {v w noun other : String} (hv : v ∈ verbs) (hw : w ∈ verbs)
    (h : v ++ noun = w ++ other) : v = w ∧ noun = other := by
  have hsome : ∀ v ∈ verbs, v.toList.head?.isSome = true := by decide
  have hheads : ∀ v ∈ verbs, ∀ w ∈ verbs, v.toList.head? = w.toList.head? → v = w := by decide
  have hhead (v rest : String) (hv : v ∈ verbs) : (v ++ rest).toList.head? = v.toList.head? := by
    rw [String.toList_append, List.head?_append]
    exact Option.or_of_isSome (hsome v hv)
  obtain rfl : v = w := by
    refine hheads v hv w hw ?_
    rw [← hhead v noun hv, ← hhead w other hw, h]
  exact ⟨rfl, (String.append_right_inj v).mp h⟩

def entityVerbs (e : Entity) : List String :=
  ["list", "create"] ++ if e.primaryKey = "" then [] else ["get", "update", "delete"]

/-- The operations of an application by verb and noun. -/
def operations (a : Application) : List (String × String) :=
  a.entities.flatMap (fun e => (entityVerbs e).map fun verb => (verb, pascal e.name)) ++
    a.views.map fun v => ("view", pascal v.name)

theorem entityVerbs_verbs (e : Entity) : ∀ verb ∈ entityVerbs e, verb ∈ verbs ∧ verb ≠ "view" := by
  unfold entityVerbs
  split <;> decide

theorem mem_entityVerbs (e : Entity) :
    "list" ∈ entityVerbs e ∧ "create" ∈ entityVerbs e ∧
      (e.primaryKey ≠ "" → "get" ∈ entityVerbs e) := by
  unfold entityVerbs
  split
  next hkey => exact ⟨by decide, by decide, fun h => absurd hkey h⟩
  next => exact ⟨by decide, by decide, fun _ => by decide⟩

theorem operationsOf_ids (e : Entity) :
    (operationsOf e).map (·.id) = (entityVerbs e).map (· ++ pascal e.name) := by
  unfold operationsOf entityVerbs
  split <;> rfl

/-- The keys of the client's calls are the names of the operations. -/
theorem map_calls (a : Application) (o : Generator.Options) :
    (calls (schemaOf a o)).map (·.1) = (operations a).map fun q => q.1 ++ q.2 := by
  have hresources : ((schemaOf a o).resources.flatMap fun r =>
      r.operations.map fun op => (op.id, clientCall (pascal r.name) op)).map (·.1) =
        a.entities.flatMap fun e => (entityVerbs e).map (· ++ pascal e.name) := by
    simp only [schemaOf, List.flatMap_map, List.map_flatMap, List.map_map]
    exact List.flatMap_congr fun e _ => operationsOf_ids e
  rw [calls, List.map_append, hresources, operations, List.map_append, List.map_flatMap]
  simp [schemaOf, viewOf, Function.comp_def]

theorem operations_nodup {a : Application} (h : (Server.recordNames a).Nodup) :
    (operations a).Nodup := by
  obtain ⟨hentities, hviews, -⟩ := List.nodup_append.mp h
  have hverbs : ∀ e : Entity, (entityVerbs e).Nodup := by
    intro e
    unfold entityVerbs
    split <;> decide
  refine List.Nodup.append ?_ ?_ ?_
  · refine List.nodup_flatMap.mpr ⟨fun e _ => ?_, ?_⟩
    · exact (hverbs e).map fun _ _ he => (Prod.mk.inj he).1
    · -- Operations of different entities have different nouns.
      refine (List.pairwise_map.mp hentities).imp fun hne q hq hq' => hne ?_
      obtain ⟨v, -, rfl⟩ := List.mem_map.mp hq
      obtain ⟨w, -, he⟩ := List.mem_map.mp hq'
      exact (Prod.mk.inj he).2.symm
  · exact List.Nodup.of_map Prod.snd (by rw [List.map_map]; exact hviews)
  · intro q hq hq'
    obtain ⟨e, -, hq⟩ := List.mem_flatMap.mp hq
    obtain ⟨verb, hverb, rfl⟩ := List.mem_map.mp hq
    obtain ⟨v, -, he⟩ := List.mem_map.mp hq'
    exact (entityVerbs_verbs e verb hverb).2 (Prod.mk.inj he).1.symm

theorem operations_verbs {a : Application} : ∀ q ∈ operations a, q.1 ∈ verbs := by
  intro q hq
  rcases List.mem_append.mp hq with hq | hq
  · obtain ⟨e, -, hq⟩ := List.mem_flatMap.mp hq
    obtain ⟨verb, hverb, rfl⟩ := List.mem_map.mp hq
    exact (entityVerbs_verbs e verb hverb).1
  · obtain ⟨v, -, rfl⟩ := List.mem_map.mp hq
    exact List.mem_of_getLast? rfl

theorem calls_nodup {a : Application} (h : (Server.recordNames a).Nodup) (o : Generator.Options) :
    ((calls (schemaOf a o)).map (·.1)).Nodup := by
  rw [map_calls]
  refine List.Nodup.map_on (fun q hq r hr he => ?_) (operations_nodup h)
  exact Prod.ext_iff.mpr (verb_append_inj (operations_verbs q hq) (operations_verbs r hr) he)

theorem map_interfaces (a : Application) (o : Generator.Options) :
    (interfaces (schemaOf a o)).map (·.name) = Server.recordNames a := by
  simp only [interfaces, schemaOf, List.map_append, List.map_map, Server.recordNames]
  rfl

/-! ## Pages -/

/-- Whether records of an interface have a member; one that may be missing has a question mark. -/
def Interface.Has (i : Interface) (name : String) : Prop :=
  ∃ m ∈ i.members, m.1 = name ∨ m.1 = name ++ "?"

/-- The script of a page is the text of an outline, whose fixed code calls nothing. What the outline
calls is a key of the calls, the types it imports are interfaces, and their records have the members
that it uses. -/
structure Supported (s : Schema) (p : PageAccess) : Prop where
  text : pageScript s p = (pageOutline s p).text (pageRegion p)
  fixed : ∀ text ∈ (pageOutline s p).fixed, Callless text
  calls : ∀ call ∈ (pageOutline s p).calls, call ∈ (calls s).map (·.1)
  records : ∀ type ∈ (pageOutline s p).records, ∃ i ∈ interfaces s, i.name = type
  members : ∀ name ∈ (pageOutline s p).members, ∃ type ∈ (pageOutline s p).records,
    ∃ i ∈ interfaces s, i.name = type ∧ i.Has name

section Pages

variable {a : Application} {given : List String}

theorem resourceFields_entity (ha : a.Closed given) (o : Generator.Options) {e : Entity}
    (he : e ∈ a.entities) : resourceFields (schemaOf a o) e.name = e.fields.map fieldOf := by
  have hfind : a.entities.find? (·.name == e.name) = some e := find?_name ha.entity_names he
  simp only [resourceFields, schemaOf, List.find?_map]
  change Option.getD (((a.entities.find? (·.name == e.name)).map resourceOf).map (·.fields)) [] = _
  rw [hfind]
  rfl

theorem interface_entity (a : Application) (o : Generator.Options) {e : Entity}
    (he : e ∈ a.entities) : resourceInterface (resourceOf e) ∈ interfaces (schemaOf a o) :=
  List.mem_append_left _ (List.mem_map_of_mem (List.mem_map_of_mem he))

theorem has_field {e : Entity} {f : Field} (hf : f ∈ e.fields) :
    (resourceInterface (resourceOf e)).Has f.name := by
  refine ⟨_, List.mem_map_of_mem (List.mem_map_of_mem hf), ?_⟩
  dsimp only
  split
  · exact .inr rfl
  · exact .inl (String.append_empty)

theorem call_key {verb : String} {e : Entity} (he : e ∈ a.entities) (hverb : verb ∈ entityVerbs e)
    (o : Generator.Options) :
    verb ++ pascal e.name ∈ (calls (schemaOf a o)).map (·.1) := by
  rw [map_calls]
  refine List.mem_map.mpr ⟨(verb, pascal e.name), ?_, rfl⟩
  exact List.mem_append_left _ (List.mem_flatMap.mpr ⟨e, he, List.mem_map_of_mem hverb⟩)

/-- A page that uses an entity is supported when the entity has the operation and the members. -/
theorem supported_entity {p : PageAccess} {verb : String} {members : List String}
    {e : Entity} (he : e ∈ a.entities) (o : Generator.Options) (hname : p.entity = e.name)
    (huses : (pageOutline (schemaOf a o) p).Uses [verb ++ pascal p.entity] (pascal p.entity)
      members)
    (hverb : verb ∈ entityVerbs e) (hmembers : ∀ m ∈ members, e.Declares m) :
    Supported (schemaOf a o) p where
  text := pageScript_eq _ p
  fixed := pageOutline_fixed _ p
  calls := by
    rw [huses.calls, hname]
    exact fun call hcall => List.mem_singleton.mp hcall ▸ call_key he hverb o
  records := by
    intro type htype
    rw [huses.records type htype, hname]
    exact ⟨_, interface_entity a o he, rfl⟩
  members := by
    rw [huses.members]
    intro m hm
    obtain ⟨f, hf, rfl⟩ := hmembers m hm
    refine ⟨_, huses.imported, _, interface_entity a o he, ?_, has_field hf⟩
    rw [hname]
    rfl

theorem page_supported (ha : a.Closed given) (o : Generator.Options) {p : Page}
    (hp : p ∈ a.pages) : Supported (schemaOf a o) (pageOf p) := by
  have hclosed := ha.pages p hp
  have hsame : ∀ d ∈ a.entities, ∀ e ∈ a.entities, d.name = e.name → d = e :=
    fun d hd e he => List.inj_on_of_nodup_map ha.entity_names hd he
  cases hkind : p.kind with
  | custom =>
    have houtline : pageOutline (schemaOf a o) (pageOf p) = customOutline (pageOf p) := by
      simp [pageOutline, pageOf, hkind, PageKind.name]
    obtain ⟨hcalls, hrecords, hmembers⟩ := customOutline_uses (pageOf p)
    refine ⟨pageScript_eq _ _, pageOutline_fixed _ _, ?_, ?_, ?_⟩
    · simp [houtline, hcalls]
    · simp [houtline, hrecords]
    · simp [houtline, hmembers]
  | table =>
    obtain ⟨e, he, hname⟩ := hclosed.entity (.inr (by simp [hkind]))
    have houtline : pageOutline (schemaOf a o) (pageOf p) = tableOutline (pageOf p) := by
      simp [pageOutline, pageOf, hkind, PageKind.name]
    refine supported_entity he o hname.symm (houtline ▸ tableOutline_uses _) (mem_entityVerbs e).1
      fun c hc => ?_
    obtain ⟨-, d, hd, hdname, hdeclares⟩ := hclosed.columns c hc
    exact hsame d hd e he (hdname.trans hname.symm) ▸ hdeclares
  | form =>
    obtain ⟨e, he, hname⟩ := hclosed.entity (.inr (by simp [hkind]))
    have houtline : pageOutline (schemaOf a o) (pageOf p) =
        formOutline (schemaOf a o) (pageOf p) := by
      simp [pageOutline, pageOf, hkind, PageKind.name]
    refine supported_entity he o hname.symm (houtline ▸ formOutline_uses _ _)
      (mem_entityVerbs e).2.1 fun c hc => ?_
    obtain ⟨-, d, hd, hdname, f, hf, hfname, -⟩ := hclosed.fields c hc
    obtain rfl := hsame d hd e he (hdname.trans hname.symm)
    exact ⟨f, hf, hfname⟩
  | details =>
    obtain ⟨e, he, hname, hkey⟩ := hclosed.key hkind
    have houtline : pageOutline (schemaOf a o) (pageOf p) =
        detailsOutline (schemaOf a o) (pageOf p) := by
      simp [pageOutline, pageOf, hkind, PageKind.name]
    refine supported_entity he o hname.symm (houtline ▸ detailsOutline_uses _ _)
      ((mem_entityVerbs e).2.2 hkey.1) fun c hc => ?_
    have hentity : (pageOf p).entity = e.name := hname.symm
    rw [hentity, resourceFields_entity ha o he] at hc
    obtain ⟨g, hg, rfl⟩ := List.mem_map.mp hc
    obtain ⟨f, hf, rfl⟩ := List.mem_map.mp (List.mem_filter.mp hg).1
    exact ⟨f, hf, rfl⟩

/-- A details page has an operation that reads one record. -/
theorem checkPage_ok (ha : a.Closed given) (o : Generator.Options) {p : Page}
    (hp : p ∈ a.pages) : checkPage (schemaOf a o) (pageOf p) = .ok () := by
  unfold checkPage
  rw [if_neg]
  intro h
  obtain ⟨hkind, hmissing⟩ := Bool.and_eq_true_iff.mp h
  have hkind : p.kind = .details := by
    cases hk : p.kind <;> simp_all [pageOf, PageKind.name]
  obtain ⟨e, he, hname, hkey⟩ := (ha.pages p hp).key hkind
  have hget : hasOperation (schemaOf a o) (pageOf p).entity ("get" ++ pascal (pageOf p).entity) =
      true := by
    have hentity : (pageOf p).entity = e.name := hname.symm
    have hid : "get" ++ pascal e.name ∈ (operationsOf e).map (·.id) := by
      rw [operationsOf_ids]
      exact List.mem_map_of_mem ((mem_entityVerbs e).2.2 hkey.1)
    obtain ⟨op, hop, hopid⟩ := List.mem_map.mp hid
    rw [hentity]
    refine List.any_eq_true.mpr ⟨resourceOf e, List.mem_map_of_mem he, ?_⟩
    refine Bool.and_eq_true_iff.mpr ⟨beq_self_eq_true e.name, ?_⟩
    exact List.any_eq_true.mpr ⟨op, hop, by simp [hopid]⟩
  simp [hget] at hmissing

end Pages

/-! ## Files -/

theorem insert_of_notMem {t : Output.Tree} {path content : String} (h : path ∉ t.map (·.1)) :
    t.insert path content = t ++ [(path, content)] := by
  induction t with
  | nil => rfl
  | cons f t ih =>
    rw [List.map_cons, List.mem_cons, not_or] at h
    rw [Output.Tree.insert, if_neg (Ne.symm h.1), ih h.2]
    rfl

/-- Files with paths of their own are put behind those that are there. -/
theorem foldl_insert {α : Type} {path content : α → String} {t : Output.Tree} {xs : List α}
    (h : (t.map (·.1) ++ xs.map path).Nodup) :
    xs.foldl (fun t x => t.insert (path x) (content x)) t =
      t ++ xs.map fun x => (path x, content x) := by
  induction xs generalizing t with
  | nil => simp
  | cons x xs ih =>
    have hx : path x ∉ t.map (·.1) := fun hm =>
      (List.nodup_append.mp h).2.2 _ hm _ List.mem_cons_self rfl
    rw [List.foldl_cons, insert_of_notMem hx, ih (by simpa using h)]
    simp

theorem forM_ok {α ε : Type} {f : α → Except ε Unit} {xs : List α}
    (h : ∀ x ∈ xs, f x = .ok ()) : xs.forM f = .ok () := by
  induction xs with
  | nil => rfl
  | cons x xs ih =>
    obtain ⟨hx, hxs⟩ := List.forall_mem_cons.mp h
    change (f x >>= fun _ => xs.forM f) = .ok ()
    rw [hx]
    exact ih hxs

/-- The paths of the client's files. -/
def clientPaths (pages : List PageAccess) : List String :=
  ["src/routes.ts", "src/api/client.ts"] ++ pages.map pagePath

theorem clientPaths_nodup {pages : List PageAccess} (h : (pages.map (·.name)).Nodup) :
    (clientPaths pages).Nodup := by
  have hfixed : ∀ path ∈ ["src/routes.ts", "src/api/client.ts"],
      path.toList[4]? ≠ some 'p' := by decide
  have hpage (p : PageAccess) : (pagePath p).toList[4]? = some 'p' := by
    simp [pagePath]
  refine List.Nodup.append (by decide) ?_ fun path hpath hmem => ?_
  · refine List.pairwise_map.mpr ((List.pairwise_map.mp h).imp fun hne he => hne ?_)
    exact (String.append_right_inj _).mp ((String.append_left_inj _).mp he)
  · obtain ⟨p, -, rfl⟩ := List.mem_map.mp hmem
    exact hfixed _ hpath (hpage p)

theorem filesOf_ok {s : Schema} (hchecks : ∀ p ∈ s.pages, checkPage s p = .ok ())
    (hnames : (s.pages.map (·.name)).Nodup) :
    filesOf s = .ok ([("src/routes.ts", routesScript s), ("src/api/client.ts", apiScript s)] ++
      s.pages.map fun p => (pagePath p, pageScript s p)) := by
  rw [filesOf, forM_ok hchecks, ok_bind]
  congr 1
  exact foldl_insert (clientPaths_nodup hnames)

theorem code_ok {path : String} {l : Code.Listing} {file : String × String}
    (h : Server.code path l = .ok file) : file = (path, l.text) := by
  unfold Server.code Code.Listing.text? at h
  split at h
  next text htext =>
    split at htext <;> cases htext
    cases h
    rfl
  · cases h

/-- The server's files, once its tables are planned and its schema is printed. -/
theorem files_ok {a : Application} {o : Generator.Options} {server : Output.Tree}
    (h : Server.files a o = .ok server) :
    ∃ tables text, Storage.plan a = .ok tables ∧ (schemaOf a o).json.lines? = some text ∧
      server = [(Server.ddlPath, Storage.schemaScript o.database a tables),
        (Server.schemaPath, text ++ "\n"), ("models.go", (Server.recordListing a tables).text),
        ("resolvers.go", (Server.resolverListing a).text),
        ("workflows.go", (Server.workflowListing a).text)] := by
  unfold Server.files at h
  obtain ⟨tables, htables, h⟩ := bind_eq_ok.mp h
  cases htext : (schemaOf a o).json.lines? with
  | none =>
    rw [htext] at h
    cases h
  | some text =>
    simp only [htext] at h
    obtain ⟨schema, hschema, h⟩ := bind_eq_ok.mp h
    obtain ⟨records, hrecords, h⟩ := bind_eq_ok.mp h
    obtain ⟨resolvers, hresolvers, h⟩ := bind_eq_ok.mp h
    obtain ⟨workflows, hworkflows, h⟩ := bind_eq_ok.mp h
    cases hschema
    cases h
    obtain rfl := code_ok hrecords
    obtain rfl := code_ok hresolvers
    obtain rfl := code_ok hworkflows
    cases hplan : Storage.plan a with
    | error e =>
      rw [hplan] at htables
      cases htables
    | ok planned =>
      rw [hplan] at htables
      cases htables
      exact ⟨tables, text, rfl, rfl, rfl⟩

theorem files_schema {a : Application} {o : Generator.Options} {server : Output.Tree}
    (h : Server.files a o = .ok server) {text : String}
    (htext : (schemaOf a o).json.lines? = some text) :
    server.get? Server.schemaPath = some (text ++ "\n") := by
  obtain ⟨tables, printed, -, hprinted, rfl⟩ := files_ok h
  cases htext.symm.trans hprinted
  rfl

/-- The files of a client that is made from the schema `s`: the routes, the calls and the pages.
Every page that the routes import is among them, and every page is supported by the calls. -/
structure Agrees (s : Schema) (client : Output.Tree) : Prop where
  paths : client.map (·.1) = clientPaths s.pages
  distinct : (client.map (·.1)).Nodup
  routes : ∃ rest, client.get? "src/routes.ts" = some (Text.unlines (header ++
    ["import type \x7b ComponentType \x7d from \"react\";"] ++ (s.pages.map pageImport ++ rest)))
  imports : ∀ p ∈ s.pages, ∃ file,
    pageImport p = "import " ++ p.name ++ " from \"." ++ file ++ "\";" ∧
      client.get? ("src" ++ file ++ ".tsx") = some (pageScript s p)
  api : client.get? "src/api/client.ts" = some (apiScript s)
  calls : ((calls s).map (·.1)).Nodup
  interfaces : ((interfaces s).map (·.name)).Nodup
  pages : ∀ p ∈ s.pages, Supported s p

theorem get?_of_mem {t : Output.Tree} (h : (t.map (·.1)).Nodup) {path content : String}
    (hf : (path, content) ∈ t) : t.get? path = some content := by
  induction t with
  | nil => cases hf
  | cons f t ih =>
    rw [List.map_cons, List.nodup_cons] at h
    rw [Output.Tree.get?, List.lookup_cons]
    rcases List.mem_cons.mp hf with rfl | hf
    · simp
    · have hne : path ≠ f.1 := fun he => h.1 (he ▸ List.mem_map_of_mem hf)
      rw [beq_eq_false_iff_ne.mpr hne]
      exact ih h.2 hf

theorem pageImport_file (p : PageAccess) :
    pageImport p = "import " ++ p.name ++ " from \"." ++ ("/pages/" ++ p.name) ++ "\";" := by
  have hfrom : " from \"./pages/" = " from \"." ++ "/pages/" := by decide
  simp only [pageImport, hfrom, String.append_assoc]

theorem pagePath_file (p : PageAccess) : "src" ++ ("/pages/" ++ p.name) ++ ".tsx" = pagePath p := by
  have hsrc : "src/pages/" = "src" ++ "/pages/" := by decide
  simp only [pagePath, hsrc, String.append_assoc]

theorem routesScript_imports (s : Schema) : ∃ rest, routesScript s =
    Text.unlines (header ++ ["import type \x7b ComponentType \x7d from \"react\";"] ++
      (s.pages.map pageImport ++ rest)) := by
  unfold routesScript
  simp only [List.append_assoc]
  exact ⟨_, rfl⟩

theorem filesOf_agrees {a : Application} {given : List String} (ha : a.Closed given)
    (hrecords : (Server.recordNames a).Nodup) (o : Generator.Options) :
    ∃ client, filesOf (schemaOf a o) = .ok client ∧ Agrees (schemaOf a o) client := by
  have hnames : ((schemaOf a o).pages.map (·.name)).Nodup := by
    simp only [schemaOf, List.map_map]
    exact ha.page_names
  have hchecks : ∀ p ∈ (schemaOf a o).pages, checkPage (schemaOf a o) p = .ok () :=
    List.forall_mem_map.mpr fun p hp => checkPage_ok ha o hp
  refine ⟨_, filesOf_ok hchecks hnames, ?_⟩
  have hpaths (s : Schema) :
      ([("src/routes.ts", routesScript s), ("src/api/client.ts", apiScript s)] ++
        s.pages.map fun p => (pagePath p, pageScript s p)).map (·.1) = clientPaths s.pages := by
    simp [clientPaths]
  have hdistinct := (hpaths (schemaOf a o)).symm ▸ clientPaths_nodup hnames
  constructor
  · exact hpaths _
  · exact hdistinct
  · obtain ⟨rest, hrest⟩ := routesScript_imports (schemaOf a o)
    exact ⟨rest, hrest ▸ get?_of_mem hdistinct (.head _)⟩
  · intro p hp
    refine ⟨_, pageImport_file p, ?_⟩
    rw [pagePath_file]
    exact get?_of_mem hdistinct (List.mem_append_right _ (List.mem_map_of_mem hp))
  · exact get?_of_mem hdistinct (.tail _ (.head _))
  · exact calls_nodup hrecords o
  · rw [map_interfaces]
    exact hrecords
  · exact List.forall_mem_map.mpr fun p hp => page_supported ha o hp

theorem recordNames_nodup {path : String} {source : List Text.Rune} {opts : CompileOptions}
    {app : Application} (h : compile path source opts = .ok app) :
    (Server.recordNames app).Nodup := by
  obtain ⟨f, -, hnamed, haccepted, rfl⟩ := compile_ok h
  have hnames := Server.packageNames_nodup haccepted (entitiesNamed_of_named hnamed) opts.name
  exact hnames.of_append_left.of_append_left.of_append_left.of_append_right

theorem schemaOf_named {path : String} {source : List Text.Rune} {opts : CompileOptions}
    {app : Application} (h : compile path source opts = .ok app) (o : Generator.Options) :
    (schemaOf app o).Named := by
  obtain ⟨f, -, -, -, rfl⟩ := compile_ok h
  exact schemaOf_build_named _ _ o

/-- What the server makes of a source without further options. -/
def served? (source : List Text.Rune) : Option (Application × Generator.Options × Output.Tree) :=
  match compile "" source ⟨[], ""⟩ with
  | .error _ => none
  | .ok app => match Generator.resolve ⟨none, none, none⟩ app with
    | .error _ => none
    | .ok o => match Server.files app o with
      | .error _ => none
      | .ok server => some (app, o, server)

theorem served?_any (source : List Text.Rune)
    {p : Application × Generator.Options × Output.Tree → Prop} [DecidablePred p]
    (h : (served? source).any (fun q => decide (p q)) = true) :
    ∃ app o server, compile "" source ⟨[], ""⟩ = .ok app ∧
      Generator.resolve ⟨none, none, none⟩ app = .ok o ∧ Server.files app o = .ok server ∧
      p (app, o, server) := by
  unfold served? at h
  split at h
  · cases h
  next app hcompile =>
    split at h
    · cases h
    next o hresolve =>
      split at h
      · cases h
      next server hserver =>
        exact ⟨app, o, server, hcompile, hresolve, hserver, of_decide_eq_true h⟩

/-- A page of every kind. -/
def desk : List Text.Rune := [
  "entity User \x7b id: Int primaryKey email: String \x7d ",
  "view Mails \x7b source: User fields: \x7b mail: email \x7d \x7d ",
  "page Users \x7b type: table entity: User \x7d ",
  "page Join \x7b type: form entity: User fields: [email] \x7d ",
  "page Card \x7b type: details entity: User \x7d ",
  "page Home \x7b type: custom component: Start \x7d"].flatMap Text.runes

end Scaffold.Client
