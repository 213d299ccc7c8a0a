import Scaffold.Model.Application
import Scaffold.Proofs.Build.Closed

/-! # The two sides of a relation

A relation field and its inverse are the two sides of one relation. This is said of a model by
itself first, without the declarations it was built from.

The group rule of the checks leaves at most one candidate for the other side of a relation field,
whichever side the search starts from. So the search is an involution without fixed points. -/
namespace Scaffold.Model

/-- The name that the source gives a relation, or the empty text. -/
def RelationRef.label (r : RelationRef) : String := if r.named then r.name else ""

/-- The two sides of a record; a side without a field has the empty name. -/
def Relation.ends (r : Relation) : List (String × String) :=
  [(r.one, r.oneField), (r.many, r.manyField)]

namespace Application

/-- Whether `g` on `t` leads back to `e` under the name of the relation `r` of the field `f`. -/
def leadsBack (e : Entity) (f : Field) (r : RelationRef) (t : Entity) (g : Field) : Bool :=
  match g.relation with
  | none => false
  | some q => q.target == e.name && !(t.name == e.name && g.name == f.name) && q.label == r.label

/-- The fields that can be the other side of a relation field `f` of `e`. -/
def candidates (a : Application) (e : Entity) (f : Field) : List (Entity × Field) :=
  match f.relation with
  | none => []
  | some r =>
    match a.entity? r.target with
    | none => []
    | some t => (t.fields.filter (leadsBack e f r t)).map fun g => (t, g)

/-- The other side of a relation field: the first candidate. -/
def inverse? (a : Application) (e : Entity) (f : Field) : Option (Entity × Field) :=
  (a.candidates e f).head?

/-- The relation fields by entity and place, in the order of their declaration. -/
def relationFields (a : Application) : List (String × String) :=
  a.entities.flatMap fun e => (e.fields.filter (·.relation.isSome)).map fun f => (e.name, f.name)

/-- What holds of a relation field `f` of `e` with the relation `r`. -/
structure SidesAgree (a : Application) (e : Entity) (f : Field) (r : RelationRef) : Prop where
  single : (a.candidates e f).length ≤ 1
  recorded : r.inverse = ((a.inverse? e f).map (·.2.name)).getD ""
  involutive : ∀ t g, a.inverse? e f = some (t, g) → a.inverse? t g = some (e, f)
  irreflexive : ∀ t g, a.inverse? e f = some (t, g) → (t.name, g.name) ≠ (e.name, f.name)
  dual : ∀ t g, a.inverse? e f = some (t, g) →
    ∃ q, g.relation = some q ∧ q.cardinality = r.cardinality.dual ∧ q.name = r.name

/-- The field of an entity that is a relation, by the names of both. -/
def relation? (a : Application) (entity field : String) : Option (Field × RelationRef) := do
  let e ← a.entity? entity
  let f ← e.field? field
  let q ← f.relation
  some (f, q)

/-- The sides of every relation agree, and each relation has one record. -/
structure RelationsPaired (a : Application) : Prop where
  sides : ∀ e ∈ a.entities, ∀ f ∈ e.fields, ∀ r, f.relation = some r → a.SidesAgree e f r
  /-- Every relation field is a side of one record, and one side of it. -/
  once : ∀ k ∈ a.relationFields, (a.relations.flatMap Relation.ends).count k = 1
  /-- The first declared sides of the records stand in the order of their declaration. -/
  ordered : ∃ firsts : List (String × String), firsts.Sublist a.relationFields ∧
    a.relations.map (fun r => a.relationFields.find? r.ends.contains) = firsts.map some

end Application

/-- Both entities of a relation are declared, and its fields are relations between them. Only a
list that no field leads back from lacks a field on the many side. -/
structure Relation.Closed (a : Application) (r : Relation) : Prop where
  kind : r.kind ≠ .manyToOne
  one : ∃ e, a.entity? r.one = some e
  many : ∃ e, a.entity? r.many = some e
  keeper : r.manyField ≠ "" → ∃ f q, a.relation? r.many r.manyField = some (f, q) ∧
    q.target = r.one ∧ (f.type.list = true ↔ r.kind = .manyToMany)
  lister : r.oneField ≠ "" → ∃ f q, a.relation? r.one r.oneField = some (f, q) ∧
    q.target = r.many
  hidden : r.manyField = "" → r.kind = .oneToMany ∧ r.oneField ≠ ""
  joined : r.kind = .manyToMany → r.oneField ≠ ""

end Scaffold.Model

namespace Scaffold.Build

open Scaffold.Source Scaffold.Check Scaffold.Model

/-! ## Groups of relations -/

theorem mem_distinct {x : String} {xs : List String} (h : x ∈ xs) : x ∈ distinct xs := by
  have hmem : ∃ y ∈ distinct xs, y = x := by
    refine exists_mem_keepFirst (fun seen y hy hq => ?_) (.inr ⟨x, h, rfl⟩)
    exact ⟨y, by simpa using hy, hq⟩
  simpa using hmem

theorem labelsDistinct_count {limit : Nat} {labels : List String}
    (h : labelsDistinct limit labels = true) (x : String) : labels.count x ≤ limit := by
  by_cases hx : x ∈ labels
  · simp only [labelsDistinct, List.all_eq_true, Bool.and_eq_true, decide_eq_true_eq] at h
    exact (h x hx).2
  · simp [List.count_eq_zero_of_not_mem hx]

/-- The fields of an entity that are relations to `target`. -/
def groupOf (s : Symbols) (e : EntityDecl) (target : String) : List FieldDecl :=
  ((relationFields s e).filter (·.1 == target)).map (·.2)

/-- How many relations to one entity may share a name. -/
def shareLimit (e : EntityDecl) (target : String) : Nat := if target = e.name then 2 else 1

/-- No name is shared by more relations to one entity than the limit says. -/
theorem group_count {s : Symbols} {e : EntityDecl} (he : EntityAccepted s e)
    (target label : String) :
    ((groupOf s e target).map relationLabel).count label ≤ shareLimit e target := by
  have hone : 1 ≤ shareLimit e target := by
    unfold shareLimit
    split <;> omega
  by_cases hmem : target ∈ (relationFields s e).map (·.1)
  · have hg := List.flatMap_eq_nil_iff.mp he.groups target (mem_distinct hmem)
    simp only at hg
    split at hg
    next first second rest hf =>
      apply labelsDistinct_count
      by_contra hd
      rw [groupOf, shareLimit] at hd
      rw [if_neg hd] at hg
      cases hg
    next hf =>
      have hlen : ((groupOf s e target).map relationLabel).length ≤ 1 := by
        match hl : groupOf s e target with
        | [] => simp
        | [x] => simp
        | x :: y :: rest => exact absurd hl (hf x y rest)
      exact Nat.le_trans (Nat.le_trans List.count_le_length hlen) hone
  · have hnil : groupOf s e target = [] := by
      simp only [groupOf, List.map_eq_nil_iff, List.filter_eq_nil_iff]
      intro p hp heq
      exact hmem (List.mem_map.mpr ⟨p, hp, beq_iff_eq.mp heq⟩)
    simp [hnil]

/-! ## Candidates -/

theorem leadsTo_iff {s : Symbols} {target : String} {f : FieldDecl} :
    leadsTo s target f = true ↔ isComputed f = false ∧
      ∃ t, s.fieldType? f.type = some t ∧ t.kind = .relation ∧ t.ref = target := by
  unfold leadsTo
  cases s.fieldType? f.type <;> simp

/-- A field leads to the entity that its type names, and nowhere else. -/
theorem leadsTo_name {s : Symbols} {target : String} {f : FieldDecl}
    (h : leadsTo s target f = true) :
    f.type.name = target ∧ ∃ e, s.entity? target = some e ∧ e ∈ s.entities ∧ e.name = target := by
  obtain ⟨-, t, ht, hk, hr⟩ := leadsTo_iff.mp h
  obtain ⟨e, he, hform⟩ := fieldType?_relation ht hk
  have hname : f.type.name = target := by rw [← hr, hform]
  rw [hname] at he
  exact ⟨hname, e, he, Symbols.entity?_eq_some he⟩

/-- Fields that lead to `target` under one name are as many as the limit allows. -/
theorem leadsTo_countP {s : Symbols} {e : EntityDecl} (he : EntityAccepted s e)
    (target label : String) :
    e.fields.countP (fun g => leadsTo s target g && relationLabel g == label) ≤
      shareLimit e target := by
  refine Nat.le_trans ?_ (group_count he target label)
  rw [List.count, List.countP_map, groupOf, List.countP_map, List.countP_filter, relationFields,
    List.countP_filterMap]
  apply List.countP_mono_left
  intro g _ hg
  simp only [Bool.and_eq_true] at hg
  obtain ⟨-, t, ht, hk, hr⟩ := leadsTo_iff.mp hg.1
  simp [ht, hk, hr, hg.2]

/-- Whether `g` on `t` can be the other side of the field `f` of `owner`. -/
def isCandidate (s : Symbols) (owner : EntityDecl) (f : FieldDecl) (t : EntityDecl)
    (g : FieldDecl) : Bool :=
  leadsTo s owner.name g && !(t.name == owner.name && g.name == f.name) &&
    relationLabel g == relationLabel f

theorem countP_succ_le {α : Type} {p q : α → Bool} {xs : List α} {x : α} (hx : x ∈ xs)
    (hq : q x = true) (hp : p x = false) (h : ∀ y, p y = true → q y = true) :
    xs.countP p + 1 ≤ xs.countP q := by
  obtain ⟨as, bs, rfl⟩ := List.append_of_mem hx
  have has : as.countP p ≤ as.countP q := List.countP_mono_left fun y _ hy => h y hy
  have hbs : bs.countP p ≤ bs.countP q := List.countP_mono_left fun y _ hy => h y hy
  rw [List.countP_append, List.countP_append, List.countP_cons_of_neg (by simp [hp]),
    List.countP_cons_of_pos hq]
  omega

/-- At most one field can be the other side. -/
theorem isCandidate_countP {s : Symbols} {extra : List String} (hs : s.Accepted extra)
    {owner t : EntityDecl} (ho : owner ∈ s.entities) (ht : t ∈ s.entities) {f : FieldDecl}
    (hf : f ∈ owner.fields) (hl : leadsTo s t.name f = true) :
    t.fields.countP (isCandidate s owner f t) ≤ 1 := by
  have hgroup := leadsTo_countP (hs.entity ht) owner.name (relationLabel f)
  have himp : ∀ g, isCandidate s owner f t g = true →
      (leadsTo s owner.name g && relationLabel g == relationLabel f) = true := by
    intro g hg
    simp only [isCandidate, Bool.and_eq_true] at hg ⊢
    exact ⟨hg.1.1, hg.2⟩
  by_cases hself : owner.name = t.name
  · -- a relation to its own entity: the field itself is one of the two that may share the name
    obtain rfl : owner = t := by
      have h₁ := hs.distinct.entity? ho
      rw [hself, hs.distinct.entity? ht] at h₁
      exact (Option.some.inj h₁).symm
    have hlimit : shareLimit owner owner.name = 2 := by simp [shareLimit]
    have hlt := countP_succ_le (p := isCandidate s owner f owner) hf
      (q := fun g => leadsTo s owner.name g && relationLabel g == relationLabel f)
      (by simp [hl]) (by simp [isCandidate]) himp
    omega
  · have hlimit : shareLimit t owner.name = 1 := by simp [shareLimit, hself]
    have hle : t.fields.countP (isCandidate s owner f t) ≤ _ :=
      List.countP_mono_left fun g _ hg => himp g hg
    omega

/-! ## The other side -/

theorem inverse?_eq_find? {s : Symbols} {owner t : EntityDecl} {f : FieldDecl}
    (ht : s.entity? f.type.name = some t) :
    inverse? s owner f = t.fields.find? (isCandidate s owner f t) := by
  simp only [inverse?, ht, bind, Option.bind]
  rfl

theorem find?_of_countP {α : Type} {p : α → Bool} {xs : List α} {x : α} (h : xs.countP p ≤ 1)
    (hx : x ∈ xs) (hp : p x = true) : xs.find? p = some x := by
  induction xs with
  | nil => cases hx
  | cons y ys ih =>
    by_cases hy : p y = true
    · rw [List.countP_cons_of_pos hy] at h
      have hzero : ys.countP p = 0 := by omega
      rcases List.mem_cons.mp hx with rfl | hx
      · rw [List.find?_cons_of_pos hp]
      · exact absurd hp (List.countP_eq_zero.mp hzero x hx)
    · rw [List.countP_cons_of_neg hy] at h
      rw [List.find?_cons_of_neg hy]
      rcases List.mem_cons.mp hx with rfl | hx
      · exact absurd hp hy
      · exact ih h hx

theorem isCandidate_iff {s : Symbols} {owner t : EntityDecl} {f g : FieldDecl} :
    isCandidate s owner f t g = true ↔ leadsTo s owner.name g = true ∧
      (t.name, g.name) ≠ (owner.name, f.name) ∧ relationLabel g = relationLabel f := by
  simp only [isCandidate, Bool.and_eq_true, Bool.not_eq_true', beq_iff_eq, and_assoc, ne_eq,
    Prod.mk.injEq, Bool.and_eq_false_iff, beq_eq_false_iff_ne, not_and_or]

/-- What a field and its other side have in common. -/
structure Sides (s : Symbols) (owner : EntityDecl) (f : FieldDecl) (t : EntityDecl)
    (g : FieldDecl) : Prop where
  owner_mem : owner ∈ s.entities
  field_mem : f ∈ owner.fields
  target_mem : t ∈ s.entities
  other_mem : g ∈ t.fields
  leads : leadsTo s t.name f = true
  back : leadsTo s owner.name g = true
  apart : (t.name, g.name) ≠ (owner.name, f.name)
  label : relationLabel g = relationLabel f

theorem Sides.symm {s : Symbols} {owner t : EntityDecl} {f g : FieldDecl}
    (h : Sides s owner f t g) : Sides s t g owner f :=
  ⟨h.target_mem, h.other_mem, h.owner_mem, h.field_mem, h.back, h.leads, h.apart.symm,
    h.label.symm⟩

/-- The search finds the other side, and nothing but it. -/
theorem inverse?_eq_some_iff {s : Symbols} {extra : List String} (hs : s.Accepted extra)
    {owner t : EntityDecl} {f g : FieldDecl} (ho : owner ∈ s.entities) (hf : f ∈ owner.fields)
    (ht : t ∈ s.entities) (hl : leadsTo s t.name f = true) :
    inverse? s owner f = some g ↔ Sides s owner f t g := by
  have hname := (leadsTo_name hl).1
  have hfound : s.entity? f.type.name = some t := hname ▸ hs.distinct.entity? ht
  rw [inverse?_eq_find? hfound]
  constructor
  · intro h
    obtain ⟨hback, hapart, hlabel⟩ := isCandidate_iff.mp (List.find?_some h)
    exact ⟨ho, hf, ht, List.mem_of_find?_eq_some h, hl, hback, hapart, hlabel⟩
  · intro h
    exact find?_of_countP (isCandidate_countP hs ho ht hf hl) h.other_mem
      (isCandidate_iff.mpr ⟨h.back, h.apart, h.label⟩)

theorem cardinality_dual (f g : FieldDecl) :
    cardinality g (some f) = (cardinality f (some g)).dual := by
  cases hf : f.type.list <;> cases hg : g.type.list <;>
    simp [cardinality, hf, hg, Cardinality.dual]

theorem relationName_comm (a b : String) : relationName a b = relationName b a := by
  unfold relationName
  by_cases hba : b < a
  · rw [if_pos hba, if_neg (String.lt_asymm hba)]
  · by_cases hab : a < b
    · rw [if_neg hba, if_pos hab]
    · have heq : a = b := String.le_antisymm (String.not_lt.mp hba) (String.not_lt.mp hab)
      rw [heq]

theorem Sides.title {s : Symbols} {owner t : EntityDecl} {f g : FieldDecl}
    (h : Sides s owner f t g) : relationTitle t g = relationTitle owner f := by
  rw [relationTitle, relationTitle, h.label, (leadsTo_name h.leads).1, (leadsTo_name h.back).1,
    relationName_comm]

/-! ## Sides in the model -/

theorem leadsTo_own (s : Symbols) (f : FieldDecl) : leadsTo s f.type.name f =
    (!isComputed f && ((s.fieldType? f.type).getD ⟨.none, "", false⟩).kind = .relation) := by
  unfold leadsTo
  cases ht : s.fieldType? f.type with
  | none => simp [show TypeKind.none ≠ .relation by decide]
  | some t =>
    by_cases hk : t.kind = .relation
    · obtain ⟨g, -, hform⟩ := fieldType?_relation ht hk
      simp [hform]
    · simp [hk]

theorem relation_buildField (s : Symbols) (e : EntityDecl) (f : FieldDecl) :
    (buildField s e f).relation =
      if leadsTo s f.type.name f then some (relationRef s e f) else none := by
  rw [leadsTo_own]
  rfl

theorem label_relationRef (s : Symbols) (e : EntityDecl) (f : FieldDecl) :
    (relationRef s e f).label = relationLabel f := by
  by_cases h : relationLabel f = "" <;> simp [RelationRef.label, relationRef, relationTitle, h]

/-- The model and the declarations have the same candidates. -/
theorem leadsBack_build (s : Symbols) (e t : EntityDecl) (f g : FieldDecl) :
    Application.leadsBack (buildEntity s e) (buildField s e f) (relationRef s e f)
      (buildEntity s t) (buildField s t g) = isCandidate s e f t g := by
  unfold Application.leadsBack
  rw [relation_buildField]
  by_cases hl : leadsTo s g.type.name g = true
  · rw [if_pos hl]
    simp only [label_relationRef, isCandidate]
    by_cases he : g.type.name = e.name
    · simp [relationRef, buildEntity, buildField, he, he ▸ hl]
    · have hne : leadsTo s e.name g = false := by
        by_contra h
        exact he (leadsTo_name (by simpa using h)).1
      simp [relationRef, buildEntity, he, hne]
  · rw [if_neg hl]
    have hne : leadsTo s e.name g = false := by
      by_contra h
      have h : leadsTo s e.name g = true := by simpa using h
      exact hl ((leadsTo_name h).1 ▸ h)
    simp [isCandidate, hne]

theorem candidates_build {s : Symbols} (hs : s.Distinct) {e t : EntityDecl} {f : FieldDecl}
    (ht : t ∈ s.entities) (hl : leadsTo s t.name f = true) (name : String) :
    (build s name).candidates (buildEntity s e) (buildField s e f) =
      (t.fields.filter (isCandidate s e f t)).map fun g => (buildEntity s t, buildField s t g) := by
  have hname := (leadsTo_name hl).1
  have htarget : (relationRef s e f).target = t.name := hname
  have hfields : (buildEntity s t).fields = t.fields.map (buildField s t) := rfl
  have hback : Application.leadsBack (buildEntity s e) (buildField s e f) (relationRef s e f)
      (buildEntity s t) ∘ buildField s t = isCandidate s e f t :=
    funext fun g => leadsBack_build s e t f g
  simp only [Application.candidates, relation_buildField, hname, hl, if_true, htarget,
    entity?_build hs ht, hfields, List.filter_map, hback, List.map_map]
  rfl

theorem inverse?_build {s : Symbols} (hs : s.Distinct) {e t : EntityDecl} {f : FieldDecl}
    (ht : t ∈ s.entities) (hl : leadsTo s t.name f = true) (name : String) :
    (build s name).inverse? (buildEntity s e) (buildField s e f) =
      (inverse? s e f).map fun g => (buildEntity s t, buildField s t g) := by
  have hfound : s.entity? f.type.name = some t := (leadsTo_name hl).1 ▸ hs.entity? ht
  rw [Application.inverse?, candidates_build hs ht hl, List.head?_map, List.head?_filter,
    inverse?_eq_find? hfound]

/-- The sides of a relation agree in the model. -/
theorem sidesAgree_build {s : Symbols} {extra : List String} (hs : s.Accepted extra)
    {e t : EntityDecl} {f : FieldDecl} (he : e ∈ s.entities) (hf : f ∈ e.fields)
    (ht : t ∈ s.entities) (hl : leadsTo s t.name f = true) (name : String) :
    (build s name).SidesAgree (buildEntity s e) (buildField s e f) (relationRef s e f) := by
  have hinverse := inverse?_build hs.distinct ht hl (e := e) name
  have hsides : ∀ T G, (build s name).inverse? (buildEntity s e) (buildField s e f) = some (T, G) →
      ∃ g, Sides s e f t g ∧ T = buildEntity s t ∧ G = buildField s t g := by
    intro T G h
    rw [hinverse] at h
    obtain ⟨g, hg, heq⟩ := Option.map_eq_some_iff.mp h
    cases heq
    exact ⟨g, (inverse?_eq_some_iff hs he hf ht hl).mp hg, rfl, rfl⟩
  constructor
  case single =>
    rw [candidates_build hs.distinct ht hl, List.length_map, ← List.countP_eq_length_filter]
    exact isCandidate_countP hs he ht hf hl
  case recorded =>
    rw [hinverse, Option.map_map]
    rfl
  case involutive =>
    intro T G h
    obtain ⟨g, hsides, rfl, rfl⟩ := hsides T G h
    rw [inverse?_build hs.distinct he hsides.back,
      (inverse?_eq_some_iff hs ht hsides.other_mem he hsides.back).mpr hsides.symm]
    rfl
  case irreflexive =>
    intro T G h
    obtain ⟨g, hsides, rfl, rfl⟩ := hsides T G h
    exact hsides.apart
  case dual =>
    intro T G h
    obtain ⟨g, hsides, rfl, rfl⟩ := hsides T G h
    have hback := (leadsTo_name hsides.back).1
    refine ⟨relationRef s t g, ?_, ?_, hsides.title⟩
    · rw [relation_buildField, hback, if_pos hsides.back]
    · simp only [relationRef, (inverse?_eq_some_iff hs he hf ht hl).mpr hsides,
        (inverse?_eq_some_iff hs ht hsides.other_mem he hsides.back).mpr hsides.symm]
      exact cardinality_dual f g

end Scaffold.Build
