import Scaffold.Proofs.Code.Bare
import Scaffold.Proofs.Storage.Bare
import Scaffold.Server.Resolvers

/-! # Code of the server without markers

The records of the server have no region, and each resolver has one. -/
namespace Scaffold.Server

open Scaffold.Model Scaffold.Output Scaffold.Code
open Scaffold.Text (quoted unlines)

/-! ## Records -/

@[simp] theorem colon_typeName (name : String) : ':' ∉ (typeName name).toList := colon_pascal name

@[simp] theorem colon_type (kind : TypeKind) (enum : String) :
    ':' ∉ (ValueType.of kind enum).text.toList := by
  cases kind <;> simp [ValueType.of, ValueType.text]

theorem unmarked_imports (type : ValueType) : ∀ p ∈ type.imports, Unmarked p := by
  cases type <;> simp [ValueType.imports, unmarked_of_colon]

/-- No text in a record has a marker. -/
structure Record.Bare (r : Record) : Prop where
  name : Unmarked r.name
  doc : Unmarked r.doc
  members : ∀ m ∈ r.members, ∀ c ∈ m.cells, Unmarked c

theorem unmarked_lone {cells : List String} (h : ∀ c ∈ cells, Unmarked c) :
    ∀ l ∈ [" ".intercalate cells], Unmarked l := by
  rwa [List.forall_mem_singleton, unmarked_intercalate (by decide)]

theorem unmarked_tabbed {ls : List String} (h : ∀ l ∈ ls, Unmarked l) :
    ∀ l ∈ ls.map ("\t" ++ ·), Unmarked l :=
  List.forall_mem_map.mpr fun l hl => (unmarked_after (by decide) l).mpr (h l hl)

theorem Record.Bare.part {r : Record} (hr : r.Bare) : r.part.Lays [] := by
  have hmembers : ∀ l ∈ r.memberLines, Unmarked l := by
    unfold Record.memberLines
    split
    next m hm => exact unmarked_lone (hr.members m (by simp [hm]))
    next => exact unmarked_aligned (List.forall_mem_map.mpr hr.members)
  have hname : Unmarked ("type " ++ r.name ++ " struct \x7b") := by
    simp (disch := with_reducible refine id ?_; refine isSeal_ofList ?_; decide) only
      [unmarked_before, unmarked_after, hr.name]
  refine Part.lays_unmarked (by simp [Record.part]) ?_
  refine List.forall_mem_append.mpr ⟨List.forall_mem_append.mpr ⟨?_, ?_⟩, by decide⟩
  · exact List.forall_mem_cons.mpr ⟨unmarked_docComment hr.doc, List.forall_mem_singleton.mpr hname⟩
  · exact unmarked_tabbed hmembers

theorem unmarked_cells {m : Member} (hname : Unmarked m.name) (htype : Unmarked m.type.text)
    (htag : Unmarked m.tag) : ∀ c ∈ m.cells, Unmarked c := by
  refine List.forall_mem_append.mpr ⟨fun c hc => ?_, List.forall_mem_singleton.mpr htag⟩
  have hpair : ∀ c ∈ [m.name, m.type.text], Unmarked c := by simp [hname, htype]
  exact hpair c (List.mem_filter.mp hc).1

theorem unmarked_columnMember {c : Storage.Column} (hc : Unmarked c.name) :
    ∀ cell ∈ (columnMember c).cells, Unmarked cell := by
  refine unmarked_cells (unmarked_of_colon ?_) (unmarked_of_colon ?_) ?_
  · simp [columnMember]
  · simp [columnMember]
  · unfold columnMember
    simp (disch := with_reducible refine id ?_; refine isSeal_ofList ?_; decide) only
      [unmarked_before, unmarked_sealed, unmarked_after]
    exact ⟨unmarked_quoted (unmarked_camel c.name), unmarked_quoted hc⟩

theorem unmarked_virtualMember {f : Field} (hf : Unmarked f.name) :
    ∀ cell ∈ (virtualMember f).cells, Unmarked cell := by
  refine unmarked_cells (unmarked_of_colon ?_) (unmarked_of_colon ?_) ?_
  · simp [virtualMember, fieldMember]
  · simp [virtualMember]
  · unfold virtualMember
    simp (disch := with_reducible refine id ?_; refine isSeal_ofList ?_; decide) only
      [unmarked_before, unmarked_after]
    exact unmarked_quoted hf

theorem unmarked_viewMember (a : Application) (v : View) {f : ViewField} (hf : Unmarked f.name) :
    ∀ cell ∈ (viewMember a v f).cells, Unmarked cell := by
  refine unmarked_cells (unmarked_of_colon ?_) (unmarked_of_colon ?_) ?_
  · simp [viewMember, fieldMember]
  · unfold viewMember
    dsimp only
    split
    · split <;> simp
    · simp
  · unfold viewMember
    simp (disch := with_reducible refine id ?_; refine isSeal_ofList ?_; decide) only
      [unmarked_before, unmarked_after]
    exact unmarked_quoted hf

section Records

variable {a : Application} (ha : a.Bare)
include ha

theorem bare_entityRecord {t : Storage.Table} (ht : t.Bare) {e : Entity} (he : e ∈ a.entities) :
    (entityRecord e t.columns).Bare := by
  obtain ⟨hname, hfields, -⟩ := (bare_entity e).mp (ha.entities e he)
  have htype : Unmarked (typeName e.name) := unmarked_pascal e.name
  constructor
  · exact htype
  · unfold entityRecord
    simp (disch := with_reducible refine id ?_; refine isSeal_ofList ?_; decide) only
      [unmarked_before, unmarked_sealed]
    exact ⟨htype, hname⟩
  · simp only [entityRecord, List.forall_mem_append, List.forall_mem_map]
    refine ⟨fun c hc => unmarked_columnMember (ht.columns c hc), fun f hf => ?_⟩
    exact unmarked_virtualMember ((bare_field f).mp (hfields f (List.mem_filter.mp hf).1)).1

theorem bare_viewRecord {v : View} (hv : v ∈ a.views) : (viewRecord a v).Bare := by
  obtain ⟨hname, hsource, hfields⟩ := (bare_view v).mp (ha.views v hv)
  have htype : Unmarked (typeName v.name) := unmarked_pascal v.name
  constructor
  · exact htype
  · unfold viewRecord
    simp (disch := with_reducible refine id ?_; refine isSeal_ofList ?_; decide) only
      [unmarked_before, unmarked_sealed]
    exact ⟨htype, hsource⟩
  · simp only [viewRecord, List.forall_mem_map]
    exact fun f hf => unmarked_viewMember a v ((bare_viewField f).mp (hfields f hf)).1

theorem bare_records {tables : List Storage.Table} (htables : ∀ t ∈ tables, t.Bare) :
    ∀ r ∈ records a tables, r.Bare := by
  refine List.forall_mem_append.mpr ⟨fun r hr => ?_, List.forall_mem_map.mpr fun v hv => ?_⟩
  · obtain ⟨t, ht, hr⟩ := List.mem_filterMap.mp hr
    obtain ⟨e, he, rfl⟩ := Option.map_eq_some_iff.mp hr
    exact bare_entityRecord ha (htables t ht) (List.mem_of_find?_eq_some he)
  · exact bare_viewRecord ha hv

theorem lays_enumType {e : Enum} (he : e ∈ a.enums) : ∀ p ∈ (enumType e).parts, p.Lays [] := by
  obtain ⟨-, hvalues⟩ := (bare_enum e).mp (ha.enums e he)
  have htype : Unmarked (typeName e.name) := unmarked_pascal e.name
  have hcells : ∀ c ∈ (enumType e).constants, ∀ cell ∈ (enumType e).constantCells c,
      Unmarked cell := by
    refine List.forall_mem_map.mpr fun v hv => ?_
    have hvalue : Unmarked ("= " ++ quoted v) :=
      (unmarked_after (by decide) _).mpr (unmarked_quoted (hvalues v hv))
    simp [EnumType.constantCells, enumType, hvalue, htype, unmarked_enumConstName]
  have hconstants : ∀ l ∈ (enumType e).constantLines, Unmarked l := by
    unfold EnumType.constantLines
    split
    next c hc => exact unmarked_lone (hcells c (by simp [hc]))
    next => exact unmarked_aligned (List.forall_mem_map.mpr hcells)
  have hdeclared : Unmarked ("type " ++ typeName e.name ++ " string") := by
    simp (disch := with_reducible refine id ?_; refine isSeal_ofList ?_; decide) only
      [unmarked_before, unmarked_after, htype]
  refine List.forall_mem_cons.mpr ⟨Part.lays_unmarked (by simp) ?_, List.forall_mem_singleton.mpr ?_⟩
  · exact List.forall_mem_singleton.mpr hdeclared
  · split
    · exact Part.lays_unmarked (by simp) (List.forall_mem_singleton.mpr (by decide))
    · refine Part.lays_unmarked (by simp) ?_
      refine List.forall_mem_append.mpr ⟨List.forall_mem_append.mpr ⟨by decide, ?_⟩, by decide⟩
      exact unmarked_tabbed hconstants

/-- The types of the server have no region. -/
theorem lays_recordListing {tables : List Storage.Table} (htables : ∀ t ∈ tables, t.Bare) :
    Lays (recordListing a tables).text [] := by
  refine lays_unmarkedListing ?_ (List.forall_mem_append.mpr ⟨?_, ?_⟩)
  · exact List.forall_mem_flatMap.mpr fun r _ => List.forall_mem_flatMap.mpr fun m _ =>
      unmarked_imports m.type
  · exact List.forall_mem_flatMap.mpr (List.forall_mem_map.mpr fun e he => lays_enumType ha he)
  · exact List.forall_mem_map.mpr fun r hr => (bare_records ha htables r hr).part

end Records

/-! ## Resolvers -/

namespace Formula

variable {e : Expr}

theorem bare_asText {t : Term} (ht : t.Bare) (he : e.json.Bare) (kind : TypeKind) :
    (asText e t kind).Bare := by
  unfold asText
  split
  · exact bare_exprLiteral _ _ he
  · cases kind <;> simp [Term.Bare, ht, unmarked_of_colon]

theorem bare_asDecimal {t : Term} (ht : t.Bare) (kind : TypeKind) : (asDecimal e t kind).Bare := by
  unfold asDecimal
  split
  · exact ht
  · simp [Term.Bare, ht, unmarked_of_colon]
  · exact ht

theorem bare_term (owner : Entity) (he : e.json.Bare) : (term owner e).1.Bare := by
  induction e with
  | literal kind value =>
    have hvalue := bare_exprLiteral kind value he
    cases kind <;> exact hvalue
  | field name => exact unmarked_of_colon (by simp [fieldMember])
  | binary op left right kind hl hr =>
    obtain ⟨hleft, hright⟩ := bare_binary op left right kind he
    have hl := hl hleft
    have hr := hr hright
    cases kind <;>
      first
        | exact ⟨hl, hr⟩
        | exact ⟨bare_asText hl hleft _, bare_asText hr hright _⟩
        | exact ⟨bare_asDecimal hl _, bare_asDecimal hr _⟩

theorem bare_stripped {t : Term} (ht : t.Bare) : t.stripped.Bare := by
  cases t <;> exact ht

theorem bare_value (owner : Entity) (he : e.json.Bare) (want : TypeKind) :
    (value owner e want).Bare := by
  have hterm := bare_stripped (bare_term owner he)
  unfold value
  dsimp only
  split
  · simp [Term.Bare, hterm, unmarked_of_colon]
  · exact bare_asText hterm he _
  · exact bare_asText hterm he _
  · exact hterm

end Formula

theorem unmarked_termImports (t : Term) : ∀ p ∈ termImports t, Unmarked p := by
  induction t with
  | call function arg more ih =>
    refine List.forall_mem_append.mpr ⟨?_, ih⟩
    split <;> simp [unmarked_of_colon]
  | method target name arg ih => exact List.forall_mem_cons.mpr ⟨by decide, ih⟩
  | parens inner ih => exact ih
  | binary op left right hl hr => exact List.forall_mem_append.mpr ⟨hl, hr⟩
  | field | number | text => exact List.forall_mem_nil _

/-- No text in a resolver has a marker. -/
structure Resolver.Bare (r : Resolver) : Prop where
  name : Unmarked r.name
  receiver : Unmarked r.receiver
  type : Unmarked r.type.text
  doc : Unmarked r.doc
  value : r.value.Bare

/-- The region of a resolver, before its value is returned. -/
def Resolver.written (r : Resolver) : Region := .written "\t//" r.name ""

theorem Resolver.Bare.part {r : Resolver} (hr : r.Bare) (hid : IsId r.name) :
    r.part.Lays [r.written] := by
  have hregion : Lays r.region [r.written] :=
    lays_region ⟨by decide, by decide, by decide, by decide⟩ hid
      unmarked_empty
  have hcomment : Unmarked r.comment := by
    unfold Resolver.comment
    simp (disch := with_reducible refine id ?_; refine isSeal_ofList ?_; decide) only
      [unmarked_before, unmarked_sealed]
    exact ⟨hr.name, hr.doc⟩
  have hheader : Unmarked
      ("func " ++ r.name ++ "(r *" ++ r.receiver ++ ") (" ++ r.type.text ++ ", error) \x7b") := by
    simp (disch := with_reducible refine id ?_; refine isSeal_ofList ?_; decide) only
      [unmarked_before, unmarked_sealed, unmarked_after]
    exact ⟨⟨hr.name, hr.receiver⟩, hr.type⟩
  have hvalue : Unmarked ("\tv := " ++ r.value.print 1) :=
    (unmarked_after (by decide) _).mpr (unmarked_print hr.value 1)
  have hbefore : Lays (unlines [docComment r.comment,
      "func " ++ r.name ++ "(r *" ++ r.receiver ++ ") (" ++ r.type.text ++ ", error) \x7b",
      "\tv := " ++ r.value.print 1]) [] :=
    lays_unlines (by simp [unmarked_docComment, hcomment, hheader, hvalue])
  have hreturn : Lays (unlines [r.region ++ "\treturn v, nil"]) [r.written] :=
    hregion.unlines_singleton (by decide)
  have hend : Lays (unlines ["\x7d"]) [] := lays_unlines (by decide)
  exact ⟨by simp [Resolver.part], (hbefore.unlines_append hreturn).unlines_append hend⟩

section Resolvers

variable {a : Application} (ha : a.Bare)
include ha

theorem bare_virtualResolver {e : Entity} (he : e ∈ a.entities) {f : Field} (hf : f ∈ e.fields)
    {r : Resolver} (h : virtualResolver? e f = some r) : r.Bare := by
  obtain ⟨hname, hfields, -⟩ := (bare_entity e).mp (ha.entities e he)
  obtain ⟨hfield, -, -, hvirtual, -⟩ := (bare_field f).mp (hfields f hf)
  obtain ⟨v, hv, rfl⟩ := Option.map_eq_some_iff.mp h
  obtain ⟨hsource, hresolver, hexpr⟩ := bare_virtual v (hvirtual v hv)
  have hdoc : Unmarked (e.name ++ "." ++ f.name ++ " = " ++ v.source) := by
    simp (disch := with_reducible refine id ?_; refine isSeal_ofList ?_; decide) only [unmarked_sealed]
    exact ⟨⟨hname, hfield⟩, hsource⟩
  exact ⟨hresolver, unmarked_pascal e.name, unmarked_of_colon (colon_type _ _), hdoc,
    Formula.bare_value e hexpr f.type.kind⟩

theorem bare_viewResolver {v : View} (hv : v ∈ a.views) {f : ViewField} (hf : f ∈ v.fields)
    {r : Resolver} (h : viewResolver? a v f = some r) : r.Bare := by
  obtain ⟨hname, hsource, hfields⟩ := (bare_view v).mp (ha.views v hv)
  obtain ⟨hfield, -, hformula, -, hresolver⟩ := (bare_viewField f).mp (hfields f hf)
  unfold viewResolver? at h
  split at h
  next source expr owner hvalue _ =>
    cases h
    obtain ⟨hformula, hexpr⟩ := hformula source expr hvalue
    have hdoc : Unmarked (v.name ++ "." ++ f.name ++ " = " ++ source) := by
      simp (disch := with_reducible refine id ?_; refine isSeal_ofList ?_; decide) only [unmarked_sealed]
      exact ⟨⟨hname, hfield⟩, hformula⟩
    exact ⟨hresolver, unmarked_pascal v.source, unmarked_of_colon (colon_type _ _), hdoc,
      Formula.bare_value owner hexpr f.resultType⟩
  · cases h

theorem bare_resolvers : ∀ r ∈ resolvers a, r.Bare := by
  refine List.forall_mem_append.mpr ⟨?_, ?_⟩
  · refine List.forall_mem_flatMap.mpr fun e he r hr => ?_
    obtain ⟨f, hf, hr⟩ := List.mem_filterMap.mp hr
    exact bare_virtualResolver ha he hf hr
  · refine List.forall_mem_flatMap.mpr fun v hv r hr => ?_
    obtain ⟨f, hf, hr⟩ := List.mem_filterMap.mp hr
    exact bare_viewResolver ha hv hf hr

/-- The resolvers have one region each. -/
theorem lays_resolverListing (hids : ∀ r ∈ resolvers a, IsId r.name) :
    Lays (resolverListing a).text ((resolvers a).map Resolver.written) := by
  have himports : ∀ p ∈ (resolverListing a).imports, Unmarked p :=
    List.forall_mem_flatMap.mpr fun r _ =>
      List.forall_mem_append.mpr ⟨unmarked_imports r.type, unmarked_termImports r.value⟩
  by_cases hnone : resolvers a = []
  · rw [hnone]
    refine lays_unmarkedListing himports ?_
    rw [resolverListing, hnone]
    exact List.forall_mem_singleton.mpr (Part.lays_unmarked (by simp) (by decide))
  · have hparts : List.Forall₂ Part.Lays (resolverListing a).parts
        ((resolvers a).map fun r => [r.written]) := by
      have hfilled : (resolverListing a).parts = (resolvers a).map Resolver.part := by
        simp [resolverListing, hnone]
      rw [hfilled, List.forall₂_map_left_iff, List.forall₂_map_right_iff, List.forall₂_same]
      exact fun r hr => (bare_resolvers ha r hr).part (hids r hr)
    have hlisting := lays_listing himports hparts
    rwa [← List.flatMap_def, ← List.map_eq_flatMap] at hlisting

end Resolvers

end Scaffold.Server
