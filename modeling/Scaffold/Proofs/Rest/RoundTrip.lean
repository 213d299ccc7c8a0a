import Scaffold.Build.Application
import Scaffold.Proofs.Check.Entity
import Scaffold.Proofs.Json.RoundTrip
import Scaffold.Proofs.Outcome
import Scaffold.Rest.Decode

/-! # A schema is read back

A printed schema leaves out members that are empty. What is left out is empty in a fresh record as
well, so the schema that is read is the one that was written. -/
namespace Scaffold.Rest

open Scaffold.Source Scaffold.Check Scaffold.Build Scaffold.Model
open Scaffold.Json (textMember flagMember listMember nests)

/-! ## Members -/

/-- Reads one member of an object onto a record. -/
def readMember {α : Type} (readers : List (String × Onto α)) (r : α) (m : String × Json) :
    Option α :=
  match memberReader? readers m.1 with
  | some read => read r m.2
  | none => some r

theorem readRecord_object {α : Type} (readers : List (String × Onto α)) (old : α)
    (members : List (String × Json)) :
    readRecord readers old (.object members) = members.foldlM (readMember readers) old := rfl

section Members

variable {α : Type} {readers : List (String × Onto α)} {r : α} {key : String}

/-- A member that is left out reads like the one with the empty text. -/
theorem foldlM_textMember (h : readMember readers r (key, .string "") = some r) (text : String) :
    (textMember key text).foldlM (readMember readers) r =
      readMember readers r (key, .string text) := by
  unfold textMember
  split
  next he => simp [he, h]
  next => simp

theorem foldlM_flagMember (h : readMember readers r (key, .bool false) = some r) (flag : Bool) :
    (flagMember key flag).foldlM (readMember readers) r =
      readMember readers r (key, .bool flag) := by
  cases flag with
  | false => simp [flagMember, h]
  | true => simp [flagMember]

theorem foldlM_listMember (h : readMember readers r (key, .strings []) = some r)
    (xs : List String) :
    (listMember key xs).foldlM (readMember readers) r =
      readMember readers r (key, .strings xs) := by
  cases xs with
  | nil => simp [listMember, h]
  | cons x xs => simp [listMember]

end Members

/-! ## Lists -/

theorem readList_map {α : Type} {item : Onto α} (fresh : α) {json : α → Json} (xs : List α)
    (h : ∀ x ∈ xs, item fresh (json x) = some x) :
    readList item fresh [] (.array (xs.map json)) = some xs := by
  rw [readList]
  induction xs with
  | nil => rfl
  | cons x xs ih =>
    obtain ⟨hx, hxs⟩ := List.forall_mem_cons.mp h
    simp [readItems, hx, ih hxs]

theorem readList_strings (xs : List String) :
    readList readString "" [] (.strings xs) = some xs :=
  readList_map "" xs fun _ _ => rfl

/-! ## Records -/

/-- A type that is known by its name. -/
def IsNamed (k : TypeKind) : Prop := TypeKind.ofName k.name = k

theorem readField_json {f : ResourceField} (h : IsNamed f.type) :
    readField emptyField f.json = some f := by
  have hnamed : TypeKind.ofName f.type.name = f.type := h
  -- What each reader does, so that the list of readers need not be gone through again.
  obtain ⟨readers, hread, hname, htype, href, hlist, hoptional, hunique, hreadOnly, hwriteOnly,
      hcardinality, hrelation⟩ : ∃ readers, readField = readRecord readers ∧
      (∀ r text, readMember readers r ("name", .string text) = some { r with name := text }) ∧
      (∀ r text, readMember readers r ("type", .string text) =
        some { r with type := TypeKind.ofName text }) ∧
      (∀ r text, readMember readers r ("ref", .string text) = some { r with ref := text }) ∧
      (∀ r flag, readMember readers r ("list", .bool flag) = some { r with list := flag }) ∧
      (∀ r flag, readMember readers r ("optional", .bool flag) =
        some { r with optional := flag }) ∧
      (∀ r flag, readMember readers r ("unique", .bool flag) = some { r with unique := flag }) ∧
      (∀ r flag, readMember readers r ("readOnly", .bool flag) =
        some { r with readOnly := flag }) ∧
      (∀ r flag, readMember readers r ("writeOnly", .bool flag) =
        some { r with writeOnly := flag }) ∧
      (∀ r text, readMember readers r ("cardinality", .string text) =
        some { r with cardinality := text }) ∧
      (∀ r text, readMember readers r ("relation", .string text) =
        some { r with relation := text }) := by
    refine ⟨_, rfl, ?_, ?_, ?_, ?_, ?_, ?_, ?_, ?_, ?_, ?_⟩ <;> exact fun _ _ => rfl
  rw [hread, ResourceField.json, readRecord_object]
  simp only [List.cons_append, List.nil_append, List.append_assoc, List.foldlM_cons,
    List.foldlM_append, foldlM_textMember, foldlM_flagMember, Option.bind_eq_bind,
    Option.bind_some, emptyField, hname, htype, href, hlist, hoptional, hunique, hreadOnly,
    hwriteOnly, hcardinality, hrelation, hnamed]

theorem readOperation_json (o : Operation) : readOperation ⟨"", "", ""⟩ o.json = some o := by
  rw [readOperation, Operation.json, readRecord_object]
  simp [readMember, memberReader?, List.lookup_cons, readString]

theorem readResource_json {r : Resource} (h : ∀ f ∈ r.fields, IsNamed f.type) :
    readResource ⟨"", "", "", [], []⟩ r.json = some r := by
  have hfields := readList_map emptyField _ fun f hf => readField_json (h f hf)
  have hoperations := readList_map _ r.operations fun o _ => readOperation_json o
  rw [readResource, Resource.json, readRecord_object]
  simp [foldlM_textMember, readMember, memberReader?, List.lookup_cons, readString, hfields,
    hoperations]

theorem readView_json {v : ViewRoute} (h : ∀ f ∈ v.fields, IsNamed f.type) :
    readView ⟨"", "", "", []⟩ v.json = some v := by
  have hfields := readList_map emptyField _ fun f hf => readField_json (h f hf)
  rw [readView, ViewRoute.json, readRecord_object]
  simp [readMember, memberReader?, List.lookup_cons, readString, hfields]

theorem readPage_json (p : PageAccess) : readPage emptyPage p.json = some p := by
  obtain ⟨readers, hread, hname, htype, hroute, htitle, hentity, hresource, hpermissions, hcolumns,
      hfields, hcomponent⟩ : ∃ readers, readPage = readRecord readers ∧
      (∀ r text, readMember readers r ("name", .string text) = some { r with name := text }) ∧
      (∀ r text, readMember readers r ("type", .string text) = some { r with kind := text }) ∧
      (∀ r text, readMember readers r ("route", .string text) = some { r with route := text }) ∧
      (∀ r text, readMember readers r ("title", .string text) = some { r with title := text }) ∧
      (∀ r text, readMember readers r ("entity", .string text) = some { r with entity := text }) ∧
      (∀ r text, readMember readers r ("resource", .string text) =
        some { r with resource := text }) ∧
      (∀ r x, readMember readers r ("permissions", x) =
        (readList readString "" r.permissions x).map fun xs => { r with permissions := xs }) ∧
      (∀ r x, readMember readers r ("columns", x) =
        (readList readString "" r.columns x).map fun xs => { r with columns := xs }) ∧
      (∀ r x, readMember readers r ("fields", x) =
        (readList readString "" r.fields x).map fun xs => { r with fields := xs }) ∧
      (∀ r text, readMember readers r ("component", .string text) =
        some { r with component := text }) := by
    refine ⟨_, rfl, ?_, ?_, ?_, ?_, ?_, ?_, ?_, ?_, ?_, ?_⟩ <;> exact fun _ _ => rfl
  rw [hread, PageAccess.json, readRecord_object]
  simp only [List.cons_append, List.nil_append, List.append_assoc, List.foldlM_cons,
    List.foldlM_append, foldlM_textMember, foldlM_listMember, Option.bind_eq_bind,
    Option.bind_some, Option.map_some, readList_strings, emptyPage, hname, htype, hroute, htitle,
    hentity, hresource, hpermissions, hcolumns, hfields, hcomponent]

theorem readWorkflow_json (w : WorkflowRef) : readWorkflow ⟨"", "", ""⟩ w.json = some w := by
  rw [readWorkflow, WorkflowRef.json, readRecord_object]
  simp [readMember, memberReader?, List.lookup_cons, readString]

/-- The types of a schema are known by their names. -/
structure Schema.Named (s : Schema) : Prop where
  resources : ∀ r ∈ s.resources, ∀ f ∈ r.fields, IsNamed f.type
  views : ∀ v ∈ s.views, ∀ f ∈ v.fields, IsNamed f.type

theorem readSchema_json {s : Schema} (h : s.Named) : readSchema emptySchema s.json = some s := by
  have hresources := readList_map _ _ fun r hr => readResource_json (h.resources r hr)
  have hviews := readList_map _ _ fun v hv => readView_json (h.views v hv)
  have hpages := readList_map _ s.pages fun p _ => readPage_json p
  have hworkflows := readList_map _ s.workflows fun w _ => readWorkflow_json w
  rw [readSchema, Schema.json, readRecord_object]
  simp [readMember, memberReader?, List.lookup_cons, readString, emptySchema, hresources, hviews,
    hpages, hworkflows]

/-! ## Texts -/

section Depth

variable (room : Nat)

theorem nests_object {ms : List (String × Json)} :
    nests (room + 1) (.object ms) = ms.all (nests room ·.2) := by
  simp [nests, Json.membersNest_eq]

theorem nests_string (text : String) : nests room (.string text) = true := by simp [nests]

theorem nests_map {α : Type} {json : α → Json} (h : ∀ x, nests room (json x) = true)
    (xs : List α) : nests (room + 1) (.array (xs.map json)) = true := by
  simp [nests, Json.allNest_eq, h]

theorem nests_strings (xs : List String) : nests (room + 1) (.strings xs) = true :=
  nests_map room (nests_string room) xs

theorem all_textMember (key text : String) :
    (textMember key text).all (nests room ·.2) = true := by
  unfold textMember
  split <;> simp [nests_string]

theorem all_flagMember (key : String) (flag : Bool) :
    (flagMember key flag).all (nests room ·.2) = true := by
  cases flag <;> simp [flagMember, nests]

theorem all_listMember (key : String) (xs : List String) :
    (listMember key xs).all (nests (room + 1) ·.2) = true := by
  unfold listMember
  split <;> simp [nests_strings]

theorem nests_field (f : ResourceField) : nests (room + 1) f.json = true := by
  simp [ResourceField.json, nests_object, all_textMember, all_flagMember, nests_string,
    -List.all_eq_true]

theorem nests_operation (o : Operation) : nests (room + 1) o.json = true := by
  simp [Operation.json, nests_object, nests_string]

theorem nests_resource (r : Resource) : nests (room + 3) r.json = true := by
  simp [Resource.json, nests_object, all_textMember, nests_map _ (nests_field room),
    nests_map _ (nests_operation room), nests_string, -List.all_eq_true]

theorem nests_view (v : ViewRoute) : nests (room + 3) v.json = true := by
  simp [ViewRoute.json, nests_object, nests_map _ (nests_field room), nests_string]

theorem nests_page (p : PageAccess) : nests (room + 2) p.json = true := by
  simp [PageAccess.json, nests_object, all_textMember, all_listMember, nests_strings,
    nests_string, -List.all_eq_true]

theorem nests_workflow (w : WorkflowRef) : nests (room + 1) w.json = true := by
  simp [WorkflowRef.json, nests_object, nests_string]

/-- A schema nests five deep: its resources are lists of records with lists of records. -/
theorem nests_schema (s : Schema) : nests (room + 5) s.json = true := by
  simp [Schema.json, nests_object, nests_map _ (nests_resource room), nests_map _ (nests_view room),
    nests_map _ (nests_page (room + 1)), nests_map _ (nests_workflow (room + 2)), nests_string]

end Depth

/-- The text of a schema spells that schema. -/
theorem ofText?_lines {s : Schema} (h : s.Named) :
    ∃ text, s.json.lines? = some text ∧ Schema.ofText? (text ++ "\n") = some s := by
  obtain ⟨text, htext, hread⟩ := Json.read?_lines (nests_schema 9995 s)
  exact ⟨text, htext, by simp [Schema.ofText?, hread, readSchema_json h]⟩

/-! ## Compiled applications -/

theorem isNamed_of_mem : ∀ k ∈ TypeKind.none :: .enum :: .relation :: TypeKind.scalars,
    IsNamed k := by
  unfold IsNamed
  decide

theorem isNamed_type {s : Symbols} {r : TypeRef} {t : FieldType} (h : s.fieldType? r = some t) :
    IsNamed t.kind := by
  refine isNamed_of_mem t.kind ?_
  rcases fieldType?_cases h with ⟨k, hk, rfl⟩ | ⟨e, -, -, rfl⟩ | ⟨e, -, rfl⟩
  · exact .tail _ (.tail _ (.tail _ hk))
  · exact .tail _ (.head _)
  · exact .tail _ (.tail _ (.head _))

theorem isNamed_field (s : Symbols) (e : EntityDecl) (f : FieldDecl) :
    IsNamed (buildField s e f).type.kind := by
  cases ht : s.fieldType? f.type with
  | none => simpa [buildField, ht] using isNamed_of_mem _ (.head _)
  | some t => simpa [buildField, ht] using isNamed_type ht

/-- The types that a formula may have are known by their names. -/
theorem isNamed_formulaKind (kindOf : String → Option TypeKind) (f : Formula) :
    IsNamed (formulaKind kindOf f) := by
  have hint : IsNamed .int := isNamed_of_mem _ (by decide)
  have hdecimal : IsNamed .decimal := isNamed_of_mem _ (by decide)
  have hstring : IsNamed .string := isNamed_of_mem _ (by decide)
  unfold formulaKind
  split
  next k h =>
    cases f with
    | string text p =>
      cases h
      exact hstring
    | number raw p =>
      cases h
      unfold numberKind
      split
      · exact hdecimal
      · exact hint
    | field name p =>
      unfold typeOf at h
      split at h
      · cases h
      next k' =>
        split at h
        next husable =>
          cases h
          -- Only types of the registry are numeric or textual.
          cases k with
          | other name => simp [TypeKind.isNumeric, TypeKind.isTextual] at husable
          | _ => exact isNamed_of_mem _ (by decide)
        next => cases h
    | binary op left right p =>
      obtain ⟨l, -, h⟩ := bind_eq_ok.mp h
      obtain ⟨r, -, h⟩ := bind_eq_ok.mp h
      unfold sumKind at h
      split at h
      · cases h
        exact hstring
      split at h
      · cases h
      split at h
      · cases h
        exact hdecimal
      · cases h
        exact hint
  next => exact isNamed_of_mem _ (by decide)

theorem isNamed_viewField {kindOf : String → Option TypeKind}
    (hkind : ∀ name k, kindOf name = some k → IsNamed k) {view : String} {p : Property}
    {f : ViewField} (h : buildViewField kindOf view p = some f) : IsNamed f.resultType := by
  unfold buildViewField at h
  split at h
  next path at_ hv =>
    cases h
    cases hk : kindOf (dotted path) with
    | none => exact isNamed_of_mem .none (by decide)
    | some k => exact hkind _ k hk
  next source at_ hv =>
    obtain ⟨formula, -, h⟩ := Option.bind_eq_some_iff.mp h
    cases h
    exact isNamed_formulaKind kindOf formula
  next => cases h

theorem isNamed_declaredKind (s : Symbols) (e : EntityDecl) (name : String) (k : TypeKind)
    (h : declaredKind s e name = some k) : IsNamed k := by
  obtain ⟨f, -, hf⟩ := Option.bind_eq_some_iff.mp h
  obtain ⟨t, ht, rfl⟩ := Option.map_eq_some_iff.mp hf
  exact isNamed_type ht

theorem isNamed_members {kindOf : String → Option TypeKind}
    (hkind : ∀ name k, kindOf name = some k → IsNamed k) (v : BlockDecl) :
    ∀ f ∈ (match lookup v.props "fields" with
      | some ⟨_, _, .object members _⟩ => members.filterMap (buildViewField kindOf v.name)
      | _ => []), IsNamed f.resultType := by
  intro f hf
  split at hf
  next members at_ hfields =>
    obtain ⟨p, -, hp⟩ := List.mem_filterMap.mp hf
    exact isNamed_viewField hkind hp
  next => cases hf

theorem isNamed_view (s : Symbols) (v : BlockDecl) :
    ∀ f ∈ (buildView s v).fields, IsNamed f.resultType := by
  refine isNamed_members (fun name k hk => ?_) v
  cases he : s.entity? ((textOf v.props "source").getD "") with
  | none => simp [he] at hk
  | some e =>
    rw [he] at hk
    exact isNamed_declaredKind s e name k hk

/-- The schema of a built application can be read back. -/
theorem schemaOf_build_named (s : Symbols) (name : String) (o : Generator.Options) :
    (schemaOf (build s name) o).Named := by
  have hfield : ∀ e ∈ (build s name).entities, ∀ f ∈ e.fields, IsNamed f.type.kind := by
    refine List.forall_mem_map.mpr fun e he => List.forall_mem_map.mpr fun f hf => ?_
    exact isNamed_field s e f
  constructor
  · refine List.forall_mem_map.mpr fun e he => List.forall_mem_map.mpr fun f hf => ?_
    exact hfield e he f hf
  · refine List.forall_mem_map.mpr fun v hv => List.forall_mem_map.mpr fun f hf => ?_
    simp only [viewFieldOf]
    split
    next g hg =>
      unfold shownField? at hg
      split at hg
      next shown hshown =>
        obtain ⟨e, he, hg⟩ := Option.bind_eq_some_iff.mp hg
        exact hfield e (List.mem_of_find?_eq_some he) g (List.mem_of_find?_eq_some hg)
      next => cases hg
    next =>
      obtain ⟨d, hd, rfl⟩ := List.mem_map.mp hv
      exact isNamed_view s d f hf

end Scaffold.Rest
