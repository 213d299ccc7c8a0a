import Scaffold.Proofs.Check.Symbols

/-! # What holds of accepted entities

Names and keys of the fields of an entity, the type of each field, and the formulas of computed
fields. -/
namespace Scaffold.Check

open Scaffold.Source Scaffold.Model

/-! ## Types -/

theorem Symbols.entity?_eq_some {s : Symbols} {name : String} {e : EntityDecl}
    (h : s.entity? name = some e) : e ∈ s.entities ∧ e.name = name :=
  ⟨List.mem_of_find?_eq_some h, by simpa using List.find?_some h⟩

theorem Symbols.enum?_eq_some {s : Symbols} {name : String} {e : EnumDecl}
    (h : s.enum? name = some e) : e ∈ s.enums ∧ e.name = name :=
  ⟨List.mem_of_find?_eq_some h, by simpa using List.find?_some h⟩

/-- Among names that are told apart a search by name finds the one that has it. -/
theorem find?_name {α : Type} {name : α → String} {xs : List α} {x : α}
    (h : (xs.map name).Nodup) (hx : x ∈ xs) : xs.find? (name · == name x) = some x := by
  induction xs with
  | nil => cases hx
  | cons y ys ih =>
    rw [List.map_cons, List.nodup_cons] at h
    rcases List.mem_cons.mp hx with rfl | hx
    · simp
    · have hne : name y ≠ name x := fun he => h.1 (he ▸ List.mem_map_of_mem hx)
      rw [List.find?_cons_of_neg (by simpa using hne)]
      exact ih h.2 hx

/-- Among members that are told apart by name, one name is that of one member. -/
theorem filter_name {α : Type} (name : α → String) {xs : List α} {x : α}
    (h : (xs.map name).Nodup) (hx : x ∈ xs) : xs.filter (name · == name x) = [x] := by
  induction xs with
  | nil => cases hx
  | cons y ys ih =>
    rw [List.map_cons, List.nodup_cons] at h
    rcases List.mem_cons.mp hx with rfl | hx
    · have hrest : ys.filter (name · == name x) = [] := by
        refine List.filter_eq_nil_iff.mpr fun y hy => ?_
        simpa using fun he : name y = name x => h.1 (he ▸ List.mem_map_of_mem hy)
      rw [List.filter_cons_of_pos (by simp), hrest]
    · have hne : name y ≠ name x := fun he => h.1 (he ▸ List.mem_map_of_mem hx)
      rw [List.filter_cons_of_neg (by simpa using hne)]
      exact ih h.2 hx

theorem Symbols.Distinct.entity? {s : Symbols} (h : s.Distinct) {e : EntityDecl}
    (he : e ∈ s.entities) : s.entity? e.name = some e := find?_name h.entities he

theorem Symbols.Distinct.enum? {s : Symbols} (h : s.Distinct) {e : EnumDecl}
    (he : e ∈ s.enums) : s.enum? e.name = some e := find?_name h.enums he

/-- What a type reference can stand for. -/
theorem fieldType?_cases {s : Symbols} {r : TypeRef} {t : FieldType}
    (h : s.fieldType? r = some t) :
    (∃ k ∈ TypeKind.scalars, t = ⟨k, "", r.list⟩) ∨
      (∃ e ∈ s.enums, e.name = r.name ∧ t = ⟨.enum, r.name, r.list⟩) ∨
      (∃ e, s.entity? r.name = some e ∧ t = ⟨.relation, r.name, r.list⟩) := by
  unfold Symbols.fieldType? at h
  split at h
  next k hk =>
    cases h
    exact .inl ⟨k, List.mem_of_find?_eq_some hk, rfl⟩
  next =>
    split at h
    next he =>
      cases h
      obtain ⟨e, he⟩ := Option.isSome_iff_exists.mp he
      obtain ⟨hm, hn⟩ := Symbols.enum?_eq_some he
      exact .inr (.inl ⟨e, hm, hn, rfl⟩)
    next =>
      split at h
      next he =>
        cases h
        obtain ⟨e, he⟩ := Option.isSome_iff_exists.mp he
        exact .inr (.inr ⟨e, he, rfl⟩)
      next => cases h

theorem relation_notMem_scalars : TypeKind.relation ∉ TypeKind.scalars := by decide

/-- A relation is written by the name of a declared entity. -/
theorem fieldType?_relation {s : Symbols} {r : TypeRef} {t : FieldType}
    (h : s.fieldType? r = some t) (hk : t.kind = .relation) :
    ∃ e, s.entity? r.name = some e ∧ t = ⟨.relation, r.name, r.list⟩ := by
  rcases fieldType?_cases h with ⟨k, hm, rfl⟩ | ⟨e, -, -, rfl⟩ | he
  · exact absurd (hk ▸ hm) relation_notMem_scalars
  · cases hk
  · exact he

/-- A declared enum is written by its name. -/
theorem fieldType?_enum {s : Symbols} (hs : s.Distinct) {e : EnumDecl} (he : e ∈ s.enums)
    {r : TypeRef} (hr : r.name = e.name) : s.fieldType? r = some ⟨.enum, r.name, r.list⟩ := by
  have hb : isBuiltin r.name = false := hr ▸ hs.enum_builtin e he
  simp only [isBuiltin, Bool.or_eq_false_iff] at hb
  have hsc : TypeKind.scalar? r.name = none := by simpa using hb.1
  have hen : (s.enum? r.name).isSome = true := by simp [hr, hs.enum? he]
  simp [Symbols.fieldType?, hsc, hen]

/-! ## Attributes -/

/-- The check of an attribute that is looked into. -/
def checkAttribute (site : Site) (f : FieldDecl) (t : FieldType) (a : Attribute) :
    List Diagnostic :=
  if a.name = "relation" then checkRelation site f t a
  else if a.name = "virtual" then checkVirtual site f t a
  else [⟨site, a.pos, .unknownAttribute f.name a.name⟩]

/-- The first attribute of a name is looked into. -/
theorem checkAttributes_first {site : Site} {f : FieldDecl} {t : FieldType} {name : String}
    {seen : List String} {as : List Attribute} {a : Attribute}
    (h : checkAttributes site f t seen as = []) (hs : name ∉ seen)
    (ha : as.find? (·.name == name) = some a) : checkAttribute site f t a = [] := by
  induction as generalizing seen with
  | nil => cases ha
  | cons b bs ih =>
    unfold checkAttributes at h
    split at h
    · cases h
    · rw [List.append_eq_nil_iff] at h
      by_cases hb : b.name = name
      · rw [List.find?_cons_of_pos (by simpa using hb)] at ha
        cases ha
        exact h.1
      · rw [List.find?_cons_of_neg (by simpa using hb)] at ha
        refine ih h.2 ?_ ha
        simpa [hs] using Ne.symm hb

theorem checkAttributes_virtual {site : Site} {f : FieldDecl} {t : FieldType}
    {seen : List String} {as : List Attribute} {a : Attribute}
    (h : checkAttributes site f t seen as = []) (hs : "virtual" ∉ seen)
    (ha : as.find? (·.name == "virtual") = some a) : checkVirtual site f t a = [] := by
  have hname : a.name = "virtual" := by simpa using List.find?_some ha
  simpa [checkAttribute, hname] using checkAttributes_first h hs ha

theorem checkAttributes_relation {site : Site} {f : FieldDecl} {t : FieldType}
    {seen : List String} {as : List Attribute} {a : Attribute}
    (h : checkAttributes site f t seen as = []) (hs : "relation" ∉ seen)
    (ha : as.find? (·.name == "relation") = some a) : checkRelation site f t a = [] := by
  have hname : a.name = "relation" := by simpa using List.find?_some ha
  simpa [checkAttribute, hname] using checkAttributes_first h hs ha

/-- A relation that is set to null when its target goes can be null, or is a list. -/
theorem checkRelation_accepted {site : Site} {f : FieldDecl} {t : FieldType} {a : Attribute}
    {p : Property} (h : checkRelation site f t a = []) (hp : a.arg "onDelete" = some p)
    (hnull : OnDelete.ofName? (nameOf p.value) = some .setNull) :
    f.optional = true ∨ t.list = true := by
  unfold checkRelation at h
  split at h
  · cases h
  · have hpolicy := (List.append_eq_nil_iff.mp h).2
    simp only [hp, hnull] at hpolicy
    by_contra hne
    rw [not_or] at hne
    simp [hne.1, hne.2] at hpolicy

theorem checkVirtual_accepted {site : Site} {f : FieldDecl} {t : FieldType} {a : Attribute}
    (h : checkVirtual site f t a = []) :
    t.kind ≠ .relation ∧ f.primaryKey = false ∧ f.default = none := by
  unfold checkVirtual at h
  rw [List.append_eq_nil_iff] at h
  obtain ⟨-, h⟩ := h
  split at h
  · cases h
  · rw [List.append_eq_nil_iff] at h
    have hm := h.2
    split at hm
    · cases hm
    next hn => simpa [and_assoc] using hn

/-! ## Fields -/

/-- What holds of a field of type `t` without diagnostics. -/
structure FieldAccepted (s : Symbols) (f : FieldDecl) (t : FieldType) : Prop where
  type : s.fieldType? f.type = some t
  list : t.list = true → t.kind = .relation
  key : f.primaryKey = true → t.kind ≠ .relation ∧ f.optional = false
  target : t.kind = .relation → ∀ e, s.entity? t.ref = some e → hasPrimaryKey e = true
  computed : isComputed f = true → t.kind ≠ .relation ∧ f.primaryKey = false ∧ f.default = none
  policy : OnDelete.ofName? (onDeleteLabel f) = some .setNull → f.optional = true ∨ t.list = true

theorem checkField_accepted {s : Symbols} {site : Site} {f : FieldDecl}
    (h : checkField s site f = []) : ∃ t, FieldAccepted s f t := by
  unfold checkField at h
  split at h
  · split at h <;> cases h
  next t ht =>
    simp only [List.append_eq_nil_iff] at h
    obtain ⟨⟨⟨⟨hl, hk⟩, htg⟩, ha⟩, -⟩ := h
    refine ⟨t, ht, fun hlist => ?_, fun hkey => ?_, fun hrel e he => ?_, fun hcomp => ?_,
      fun hnull => ?_⟩
    · by_contra hne
      simp [hlist, hne] at hl
    · by_contra hne
      rw [not_and_or, not_not] at hne
      rcases hne with hr | ho
      · simp [hkey, hr] at hk
      · simp [hkey, ho] at hk
    · by_contra hne
      simp [hrel, he, hne] at htg
    · simp only [isComputed, formulaSource?] at hcomp
      split at hcomp
      next q text p hq =>
        obtain ⟨a, hav, -⟩ := Option.bind_eq_some_iff.mp hq
        exact checkVirtual_accepted (checkAttributes_virtual ha (by simp) hav)
      next => cases hcomp
    · simp only [onDeleteLabel] at hnull
      split at hnull
      next p hp =>
        obtain ⟨a, har, hp⟩ := Option.bind_eq_some_iff.mp hp
        exact checkRelation_accepted (checkAttributes_relation ha (by simp) har) hp hnull
      next => simp [OnDelete.ofName?, OnDelete.all, OnDelete.name] at hnull

/-- What holds of the fields of an entity after those in `seen`. -/
theorem checkFields_accepted {s : Symbols} {site : Site} {e : EntityDecl}
    {seen fs : List FieldDecl} (h : checkFields s site e seen fs = []) :
    (∀ f ∈ fs, ∃ t, FieldAccepted s f t) ∧
      ((seen.map (·.name)).Nodup → ((seen ++ fs).map (·.name)).Nodup) ∧
      ((seen.filter (·.primaryKey)).length ≤ 1 →
        ((seen ++ fs).filter (·.primaryKey)).length ≤ 1) := by
  induction fs generalizing seen with
  | nil => simp
  | cons f fs ih =>
    simp only [checkFields, List.append_eq_nil_iff] at h
    obtain ⟨⟨⟨⟨hname, hkey⟩, -⟩, hf⟩, hrest⟩ := h
    obtain ⟨h₁, h₂, h₃⟩ := ih hrest
    rw [List.append_assoc, List.singleton_append] at h₂ h₃
    refine ⟨List.forall_mem_cons.mpr ⟨checkField_accepted hf, h₁⟩, fun hs => h₂ ?_,
      fun hs => h₃ ?_⟩
    · split at hname
      · cases hname
      next hn =>
        have hne := List.find?_eq_none.mp hn
        rw [List.map_append, List.map_singleton]
        exact Symbols.nodup_snoc hs (by simpa using hne)
    · rw [List.filter_append, List.length_append]
      cases hp : f.primaryKey with
      | false => simpa [hp] using hs
      | true =>
        split at hkey
        · cases hkey
        next hnone =>
          have hn : seen.find? (·.primaryKey) = none := by
            cases hfind : seen.find? (·.primaryKey) with
            | none => rfl
            | some g => exact absurd hfind (hnone g hp)
          have hnil : seen.filter (·.primaryKey) = [] :=
            List.filter_eq_nil_iff.mpr (List.find?_eq_none.mp hn)
          simp [hnil, hp]

/-! ## Computed fields -/

/-- What holds of the formula of a computed field without diagnostics. -/
structure FormulaAccepted (s : Symbols) (e : EntityDecl) (formula : Formula) : Prop where
  known : ∀ r ∈ formula.refs, (findField? e r.1).isSome = true
  typed : ∃ k, typeOf (fieldKind? s e) formula = .ok k

theorem FormulaAccepted.intro {s : Symbols} {e : EntityDecl} {formula : Formula} {k : TypeKind}
    (hm : (formula.refs.filter fun r => (findField? e r.1).isNone) = [])
    (hk : typeOf (fieldKind? s e) formula = .ok k) : FormulaAccepted s e formula := by
  refine ⟨fun r hr => ?_, k, hk⟩
  have hsome := List.filter_eq_nil_iff.mp hm r hr
  simpa [Option.isSome_iff_ne_none] using hsome

theorem checkComputed_accepted {s : Symbols} {site : Site} {e : EntityDecl} {c : Computed}
    (h : checkComputed s site e c = []) : FormulaAccepted s e c.formula := by
  unfold checkComputed at h
  split at h
  next hm =>
    split at h
    · cases h
    next k hk => exact .intro hm hk
  next hm =>
    simp only [List.map_eq_nil_iff] at h
    exact absurd h hm

/-- Every formula of an entity is looked into. -/
theorem computedFields_check {s : Symbols} {site : Site} {e : EntityDecl} {fs : List FieldDecl}
    (h : (computedFields s site e fs).2 = []) {f : FieldDecl} (hf : f ∈ fs) {source : String}
    {p : Pos} (hs : formulaSource? f = some (source, p)) :
    ∃ formula, parseFormula (Text.runes source) = .ok formula ∧
      checkComputed s site e ⟨f, p, formula⟩ = [] := by
  induction fs with
  | nil => cases hf
  | cons g gs ih =>
    simp only [computedFields] at h
    split at h
    next hg =>
      rcases List.mem_cons.mp hf with rfl | hf
      · rw [hg] at hs
        cases hs
      · exact ih h hf
    next source' p' hg =>
      split at h
      · cases h
      next formula hp =>
        rw [List.append_eq_nil_iff] at h
        rcases List.mem_cons.mp hf with rfl | hf
        · rw [hg] at hs
          cases hs
          exact ⟨formula, hp, h.1⟩
        · exact ih h.2 hf

theorem computedFields_accepted {s : Symbols} {site : Site} {e : EntityDecl}
    {fs : List FieldDecl} (h : (computedFields s site e fs).2 = []) {f : FieldDecl}
    (hf : f ∈ fs) {source : String} {p : Pos} (hs : formulaSource? f = some (source, p)) :
    ∃ formula, parseFormula (Text.runes source) = .ok formula ∧ FormulaAccepted s e formula := by
  obtain ⟨formula, hp, hcheck⟩ := computedFields_check h hf hs
  exact ⟨formula, hp, checkComputed_accepted hcheck⟩

/-- The type of a computed field can hold the values of its formula. -/
theorem checkComputed_assignable {s : Symbols} {site : Site} {e : EntityDecl} {c : Computed}
    (h : checkComputed s site e c = []) {t : FieldType} (ht : s.fieldType? c.field.type = some t) :
    ∃ k, typeOf (fieldKind? s e) c.formula = .ok k ∧ t.kind.assignable k = true := by
  obtain ⟨-, k, hk⟩ := checkComputed_accepted h
  refine ⟨k, hk, ?_⟩
  unfold checkComputed at h
  split at h
  · simp only [hk, ht] at h
    by_contra hne
    simp [hne] at h
  next hm =>
    simp only [List.map_eq_nil_iff] at h
    exact absurd h hm

/-! ## Entities -/

/-- What holds of an entity without diagnostics. -/
structure EntityAccepted (s : Symbols) (e : EntityDecl) : Prop where
  field : ∀ f ∈ e.fields, ∃ t, FieldAccepted s f t
  names : (e.fields.map (·.name)).Nodup
  key : (e.fields.filter (·.primaryKey)).length ≤ 1
  formula : ∀ f ∈ e.fields, ∀ source p, formulaSource? f = some (source, p) →
    ∃ formula, parseFormula (Text.runes source) = .ok formula ∧ FormulaAccepted s e formula
  groups : checkRelationGroups s ⟨e.file, .entity, e.name⟩ e = []

theorem checkEntity_accepted {s : Symbols} {e : EntityDecl} (h : checkEntity s e = []) :
    EntityAccepted s e := by
  simp only [checkEntity, checkComputedFields, List.append_eq_nil_iff] at h
  obtain ⟨⟨hf, hg⟩, hc, -⟩ := h
  obtain ⟨h₁, h₂, h₃⟩ := checkFields_accepted hf
  exact ⟨h₁, h₂ (by simp), h₃ (by simp),
    fun f hf source p hs => computedFields_accepted hc hf hs, hg⟩

theorem Symbols.Accepted.entity {s : Symbols} {extra : List String} (h : s.Accepted extra)
    {e : EntityDecl} (he : e ∈ s.entities) : EntityAccepted s e :=
  checkEntity_accepted (h.entities e he)

theorem Symbols.Accepted.assignable {s : Symbols} {extra : List String} (h : s.Accepted extra)
    {e : EntityDecl} (he : e ∈ s.entities) {f : FieldDecl} (hf : f ∈ e.fields) {source : String}
    {p : Pos} (hs : formulaSource? f = some (source, p)) {t : FieldType}
    (ht : s.fieldType? f.type = some t) :
    ∃ formula k, parseFormula (Text.runes source) = .ok formula ∧
      typeOf (fieldKind? s e) formula = .ok k ∧ t.kind.assignable k = true := by
  have hchecks := h.entities e he
  simp only [checkEntity, checkComputedFields, List.append_eq_nil_iff] at hchecks
  obtain ⟨formula, hp, hcheck⟩ := computedFields_check hchecks.2.1 hf hs
  obtain ⟨k, hk, hassign⟩ := checkComputed_assignable hcheck ht
  exact ⟨formula, k, hp, hk, hassign⟩

end Scaffold.Check
