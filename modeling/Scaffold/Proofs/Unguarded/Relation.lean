import Scaffold.Proofs.Build.Record
import Scaffold.Proofs.Unguarded.Text

/-! # Relations without a guard

Relations are completed in a pass over the entities: a relation field is known by two indices, and
its target by the index of an entity. -/
namespace Scaffold.Unguarded

open Scaffold.Source Scaffold.Check Scaffold.Model Scaffold.Build

/-! ## The pass -/

/-- The index of an entity and the index of one of its fields. -/
abbrev Place := Nat × Nat

/-- A relation as far as one field tells: no target index, no other side and no kind. -/
def draftRef (f : FieldDecl) : RelationRef :=
  { target := f.type.name
    targetIndex := 0
    name := relationLabel f
    named := relationLabel f ≠ ""
    cardinality := .oneToOne
    inverse := ""
    onDelete := (OnDelete.ofName? (onDeleteLabel f)).getD .restrict }

def draftField (s : Symbols) (e : EntityDecl) (f : FieldDecl) : Field :=
  let built := buildField s e f
  { built with relation := built.relation.map fun _ => draftRef f }

def draftEntity (s : Symbols) (e : EntityDecl) : Entity :=
  { buildEntity s e with fields := e.fields.map (draftField s e) }

/-- The relation fields, by entity and by place in it. -/
def places (ents : List Entity) : List Place :=
  ents.zipIdx.flatMap fun (e, i) =>
    (e.fields.zipIdx.filter (·.1.relation.isSome)).map fun (_, j) => (i, j)

def fieldAt? (ents : List Entity) (p : Place) : Option (Entity × Field) := do
  let e ← ents[p.1]?
  let f ← e.fields[p.2]?
  some (e, f)

/-- The index of an entity; zero if there is none of the name. -/
def indexOf (ents : List Entity) (name : String) : Nat :=
  (ents.findIdx? (·.name == name)).getD 0

/-- Whether a field leads back to `owner` under a name, and is not the field at `p`. -/
def answersAt (owner : Entity) (label : String) (p : Place) (index : Nat) (g : Field × Nat) :
    Bool :=
  match g.1.relation with
  | none => false
  | some q => q.target == owner.name && !(index == p.1 && g.2 == p.2) && q.label == label

/-- The place of the other side of a relation. -/
def otherAt? (ents : List Entity) (p : Place) : Option (Option Place) := do
  let (owner, f) ← fieldAt? ents p
  let r ← f.relation
  let index := indexOf ents r.target
  let target ← ents[index]?
  let found := target.fields.zipIdx.find? (answersAt owner r.label p index)
  some (found.map fun (_, k) => (index, k))

/-- The kind of a relation as seen from a field that is a list or not. -/
def kindOf (list : Bool) (other : Option Field) : Cardinality :=
  match list, other with
  | false, none => .manyToOne
  | false, some g => if g.type.list then .manyToOne else .oneToOne
  | true, some g => if g.type.list then .manyToMany else .oneToMany
  | true, none => .oneToMany

/-- A relation of `owner` with what the whole of the entities tells. -/
def completeRef (ents : List Entity) (owner : Entity) (list : Bool) (other : Option Field)
    (r : RelationRef) : RelationRef :=
  { r with
    targetIndex := indexOf ents r.target
    name := if r.named then r.name else relationName owner.name r.target
    cardinality := kindOf list other
    inverse := (other.map (·.name)).getD "" }

def completeField? (ents : List Entity) (owner : Entity) (p : Place) (f : Field) : Option Field :=
  match f.relation with
  | none => some f
  | some r => do
    let place ← otherAt? ents p
    let other ← match place with
      | none => some none
      | some q => (fieldAt? ents q).map fun (_, g) => some g
    some { f with relation := some (completeRef ents owner f.type.list other r) }

def complete? (ents : List Entity) : Option (List Entity) :=
  ents.zipIdx.mapM fun (e, i) => do
    let fields ← e.fields.zipIdx.mapM fun (f, j) => completeField? ents e (i, j) f
    some { e with fields := fields }

/-- The record of a relation. The target is taken by its index. -/
def recordAt? (ents : List Entity) (p : Place) : Option Relation := do
  let (owner, f) ← fieldAt? ents p
  let r ← f.relation
  let target ← ents[r.targetIndex]?
  let self := owner.name == target.name
  some <| match r.cardinality with
    | .manyToOne => ⟨r.name, .oneToMany, target.name, owner.name, r.inverse, f.name, self⟩
    | .oneToMany => ⟨r.name, .oneToMany, owner.name, target.name, f.name, r.inverse, self⟩
    | .oneToOne => ⟨r.name, .oneToOne, target.name, owner.name, r.inverse, f.name, self⟩
    | .manyToMany => ⟨r.name, .manyToMany, owner.name, target.name, f.name, r.inverse, self⟩

/-- One record for each relation; `done` holds the places already accounted for. -/
def recordsFrom? (ents : List Entity) :
    List Place → List (Place × Option Place) → Option (List Relation)
  | _, [] => some []
  | done, (p, other) :: rest =>
    if done.contains p then recordsFrom? ents done rest
    else do
      let r ← recordAt? ents p
      let rs ← recordsFrom? ents (p :: other.toList ++ done) rest
      some (r :: rs)

/-- The entities with their relations completed, and the records of these. -/
def relations? (drafts : List Entity) : Option (List Entity × List Relation) := do
  let others ← (places drafts).mapM (otherAt? drafts)
  let ents ← complete? drafts
  let records ← recordsFrom? ents [] ((places drafts).zip others)
  some (ents, records)

/-! ## Places of declarations -/

/-- An end of a relation stands at a place. -/
structure StandsAt (s : Symbols) (p : Place) (r : RelationEnd) : Prop where
  owner : s.entities[p.1]? = some r.owner
  field : r.owner.fields[p.2]? = some r.field

theorem index_eq_iff {α : Type} {xs : List α} {name : α → String} (hxs : (xs.map name).Nodup)
    {i j : Nat} {x y : α} (hi : xs[i]? = some x) (hj : xs[j]? = some y) :
    i = j ↔ name x = name y := by
  have hlt : i < (xs.map name).length := by
    rw [List.length_map]
    exact (List.getElem?_eq_some_iff.mp hi).1
  rw [← List.getElem?_inj hlt hxs, List.getElem?_map, List.getElem?_map, hi, hj]
  simp

/-- Places are told apart like the names of entities and fields. -/
theorem StandsAt.eq_iff {s : Symbols} {extra : List String} (hs : s.Accepted extra) {p q : Place}
    {r t : RelationEnd} (hp : StandsAt s p r) (hq : StandsAt s q t) : p = q ↔ r.key = t.key := by
  have howner := index_eq_iff hs.distinct.entities hp.owner hq.owner
  have hmem : r.owner ∈ s.entities := List.mem_of_getElem? hp.owner
  constructor
  · rintro rfl
    have hsame : r.owner = t.owner := Option.some.inj (hp.owner.symm.trans hq.owner)
    have hfield : r.field = t.field :=
      Option.some.inj (hp.field.symm.trans (hsame ▸ hq.field))
    rw [RelationEnd.key, RelationEnd.key, hsame, hfield]
  · intro hkey
    obtain ⟨hname, hfield⟩ := Prod.mk.inj hkey
    have hfirst := howner.mpr hname
    have hsame : r.owner = t.owner :=
      Option.some.inj (hp.owner.symm.trans (hfirst ▸ hq.owner))
    have hsecond := (index_eq_iff (hs.entity hmem).names hp.field (hsame ▸ hq.field)).mpr hfield
    exact Prod.ext hfirst hsecond

/-- The ends of relations with their places. -/
def placedEnds (s : Symbols) : List (Place × RelationEnd) :=
  s.entities.zipIdx.flatMap fun (e, i) =>
    (e.fields.zipIdx.filter fun (f, _) => leadsTo s f.type.name f).map fun (f, j) =>
      ((i, j), ⟨e, f⟩)

theorem standsAt_of_mem {s : Symbols} {p : Place} {r : RelationEnd}
    (h : (p, r) ∈ placedEnds s) : StandsAt s p r ∧ leadsTo s r.field.type.name r.field = true := by
  obtain ⟨⟨e, i⟩, he, h⟩ := List.mem_flatMap.mp h
  obtain ⟨⟨f, j⟩, hf, heq⟩ := List.mem_map.mp h
  obtain ⟨hf, hl⟩ := List.mem_filter.mp hf
  cases heq
  exact ⟨⟨List.mk_mem_zipIdx_iff_getElem?.mp he, List.mk_mem_zipIdx_iff_getElem?.mp hf⟩, hl⟩

theorem map_snd_placedFields (s : Symbols) (e : EntityDecl) (i : Nat) :
    ((e.fields.zipIdx.filter fun (f, _) => leadsTo s f.type.name f).map fun (f, j) =>
      (((i, j), ⟨e, f⟩) : Place × RelationEnd)).map (·.2) =
    (e.fields.filter fun f => leadsTo s f.type.name f).map fun f => ⟨e, f⟩ := by
  have hfst := List.zipIdx_map_fst 0 e.fields
  conv_rhs => rw [← hfst, List.filter_map, List.map_map]
  rw [List.map_map]
  rfl

theorem map_snd_placedEnds (s : Symbols) : (placedEnds s).map (·.2) = relationEnds s := by
  have hfst := List.zipIdx_map_fst 0 s.entities
  rw [placedEnds, List.map_flatMap, relationEnds]
  conv_rhs => rw [← hfst, List.flatMap_map]
  exact List.flatMap_congr fun p _ => map_snd_placedFields s p.1 p.2

/-! ## Drafts -/

theorem relation_draftField (s : Symbols) (e : EntityDecl) (f : FieldDecl) :
    (draftField s e f).relation = if leadsTo s f.type.name f then some (draftRef f) else none := by
  rw [draftField, relation_buildField]
  split <;> rfl

theorem map_fst_placedEnds (s : Symbols) :
    (placedEnds s).map (·.1) = places (s.entities.map (draftEntity s)) := by
  have hfields (e : EntityDecl) : (draftEntity s e).fields = e.fields.map (draftField s e) := rfl
  have hsome (e : EntityDecl) : ((fun g : Field × Nat => g.1.relation.isSome) ∘
      Prod.map (draftField s e) id) = fun g => leadsTo s g.1.type.name g.1 := by
    funext g
    rw [Function.comp_apply, Prod.map_apply, relation_draftField]
    split <;> simp [*]
  rw [places, List.zipIdx_map, List.flatMap_map, placedEnds, List.map_flatMap]
  refine List.flatMap_congr ?_
  rintro ⟨e, i⟩ -
  simp only [Prod.map_apply, hfields, List.zipIdx_map, List.filter_map, hsome, List.map_map]
  rfl

theorem label_draftRef (f : FieldDecl) : (draftRef f).label = relationLabel f := by
  by_cases h : relationLabel f = "" <;> simp [RelationRef.label, draftRef, h]

theorem fieldAt?_draft {s : Symbols} {p : Place} {r : RelationEnd} (h : StandsAt s p r) :
    fieldAt? (s.entities.map (draftEntity s)) p =
      some (draftEntity s r.owner, draftField s r.owner r.field) := by
  simp [fieldAt?, h.owner, draftEntity, h.field]

theorem fieldAt?_build {s : Symbols} {p : Place} {r : RelationEnd} (h : StandsAt s p r) :
    fieldAt? (s.entities.map (buildEntity s)) p =
      some (buildEntity s r.owner, buildField s r.owner r.field) := by
  simp [fieldAt?, h.owner, buildEntity, h.field]

theorem getElem?_entityIndex {s : Symbols} {name : String} {t : EntityDecl}
    (h : s.entity? name = some t) : s.entities[entityIndex s name]? = some t := by
  rw [← h]
  exact List.find?_eq_getElem?_findIdx.symm

theorem indexOf_draft {s : Symbols} {name : String} {t : EntityDecl}
    (h : s.entity? name = some t) :
    indexOf (s.entities.map (draftEntity s)) name = entityIndex s name := by
  have hlt := (List.getElem?_eq_some_iff.mp (getElem?_entityIndex h)).1
  have hfind : (s.entities.map (draftEntity s)).findIdx? (·.name == name) =
      some (entityIndex s name) := by
    rw [List.findIdx?_map]
    exact List.findIdx?_eq_some_iff_findIdx_eq.mpr ⟨hlt, rfl⟩
  rw [indexOf, hfind, Option.getD_some]

/-- Where the other side of a relation stands. -/
def otherPlace (s : Symbols) (r : RelationEnd) : Option Place := do
  let t ← s.entity? r.field.type.name
  let (_, k) ← t.fields.zipIdx.find? fun (g, _) => isCandidate s r.owner r.field t g
  some (entityIndex s r.field.type.name, k)

theorem otherPlace_cases {s : Symbols} (r : RelationEnd)
    (hl : leadsTo s r.field.type.name r.field = true) :
    (otherPlace s r = none ∧ inverse? s r.owner r.field = none) ∨
      ∃ q t g, otherPlace s r = some q ∧ inverse? s r.owner r.field = some g ∧
        StandsAt s q ⟨t, g⟩ ∧ t.name = r.field.type.name ∧ leadsTo s r.owner.name g = true := by
  obtain ⟨-, t, ht, -, hname⟩ := leadsTo_name hl
  have hfind : t.fields.find? (isCandidate s r.owner r.field t) =
      (t.fields.zipIdx.find? fun (g, _) => isCandidate s r.owner r.field t g).map (·.1) := by
    conv_lhs => rw [← List.zipIdx_map_fst 0 t.fields, List.find?_map]
    rfl
  rw [inverse?_eq_find? ht, hfind]
  simp only [otherPlace, ht, Option.bind_eq_bind, Option.bind_some]
  cases hk : t.fields.zipIdx.find? fun (g, _) => isCandidate s r.owner r.field t g with
  | none => exact .inl ⟨rfl, rfl⟩
  | some found =>
    obtain ⟨g, k⟩ := found
    have hmem := List.mk_mem_zipIdx_iff_getElem?.mp (List.mem_of_find?_eq_some hk)
    have hcandidate := List.find?_some hk
    have hback := (isCandidate_iff.mp hcandidate).1
    exact .inr ⟨_, t, g, rfl, rfl, ⟨getElem?_entityIndex ht, hmem⟩, hname, hback⟩

theorem find?_congr_mem {α : Type} {p q : α → Bool} {xs : List α} (h : ∀ x ∈ xs, p x = q x) :
    xs.find? p = xs.find? q := by
  induction xs with
  | nil => rfl
  | cons x xs ih =>
    obtain ⟨hx, hxs⟩ := List.forall_mem_cons.mp h
    rw [List.find?_cons, List.find?_cons, hx, ih hxs]

theorem leadsTo_eq (s : Symbols) (name : String) (g : FieldDecl) :
    leadsTo s name g = (leadsTo s g.type.name g && g.type.name == name) := by
  rw [Bool.eq_iff_iff, Bool.and_eq_true, beq_iff_eq]
  constructor
  · intro h
    obtain ⟨hname, -⟩ := leadsTo_name h
    exact ⟨hname ▸ h, hname⟩
  · rintro ⟨h, rfl⟩
    exact h

/-- An index is the one of the field itself when the names are. -/
theorem answersAt_draft {s : Symbols} {extra : List String} (hs : s.Accepted extra) {p : Place}
    {r : RelationEnd} (h : StandsAt s p r) {t : EntityDecl} {g : FieldDecl} {i k : Nat}
    (hq : StandsAt s (i, k) ⟨t, g⟩) :
    answersAt (draftEntity s r.owner) (draftRef r.field).label p i (draftField s t g, k) =
      isCandidate s r.owner r.field t g := by
  have hplace : (i == p.1 && k == p.2) = (t.name == r.owner.name && g.name == r.field.name) := by
    have hiff := StandsAt.eq_iff hs hq h
    rw [Prod.ext_iff, RelationEnd.key, RelationEnd.key, Prod.mk.injEq] at hiff
    rw [Bool.eq_iff_iff]
    simpa using hiff
  rw [answersAt, relation_draftField, isCandidate, leadsTo_eq s r.owner.name]
  cases leadsTo s g.type.name g with
  | false => rfl
  | true =>
    rw [if_pos rfl]
    dsimp only
    rw [hplace, label_draftRef, label_draftRef, Bool.true_and]
    rfl

theorem otherAt?_draft {s : Symbols} {extra : List String} (hs : s.Accepted extra) {p : Place}
    {r : RelationEnd} (h : StandsAt s p r)
    (hl : leadsTo s r.field.type.name r.field = true) :
    otherAt? (s.entities.map (draftEntity s)) p = some (otherPlace s r) := by
  obtain ⟨-, t, ht, -⟩ := leadsTo_name hl
  have hindex := getElem?_entityIndex ht
  have htarget : (s.entities.map (draftEntity s))[entityIndex s r.field.type.name]? =
      some (draftEntity s t) := by rw [List.getElem?_map, hindex, Option.map_some]
  have hfields : (draftEntity s t).fields = t.fields.map (draftField s t) := rfl
  have hfind : t.fields.zipIdx.find? (answersAt (draftEntity s r.owner) (draftRef r.field).label p
      (entityIndex s r.field.type.name) ∘ Prod.map (draftField s t) id) =
      t.fields.zipIdx.find? fun (g, _) => isCandidate s r.owner r.field t g := by
    refine find?_congr_mem fun (g, k) hx => ?_
    exact answersAt_draft hs h ⟨hindex, List.mk_mem_zipIdx_iff_getElem?.mp hx⟩
  have hdraft : (draftRef r.field).target = r.field.type.name := rfl
  simp only [otherAt?, fieldAt?_draft h, relation_draftField, hl, if_true, hdraft,
    indexOf_draft ht, htarget, hfields, List.zipIdx_map, List.find?_map, hfind, otherPlace, ht,
    Option.bind_eq_bind, Option.bind_some]
  cases t.fields.zipIdx.find? fun (g, _) => isCandidate s r.owner r.field t g <;> rfl

/-! ## Completed relations -/

/-- A draft with its relation completed is the field that is built. -/
theorem completeRef_draft {s : Symbols} {e : EntityDecl} {f : FieldDecl} {other : Option Field}
    (hl : leadsTo s f.type.name f = true)
    (hname : (other.map (·.name)).getD "" = ((inverse? s e f).map (·.name)).getD "")
    (hlist : other.map (·.type.list) = (inverse? s e f).map (·.type.list)) :
    completeRef (s.entities.map (draftEntity s)) (draftEntity s e) (draftField s e f).type.list
      other (draftRef f) = relationRef s e f := by
  obtain ⟨-, t, ht, -⟩ := leadsTo_name hl
  have hkind : kindOf (draftField s e f).type.list other = cardinality f (inverse? s e f) := by
    have hown : (draftField s e f).type.list = f.type.list := list_buildField hl e
    rw [hown]
    cases hinverse : inverse? s e f with
    | none =>
      rw [hinverse, Option.map_none, Option.map_eq_none_iff] at hlist
      rw [hlist]
      cases hf : f.type.list <;> simp [kindOf, cardinality, hf]
    | some g =>
      rw [hinverse, Option.map_some] at hlist
      obtain ⟨o, rfl, ho⟩ := Option.map_eq_some_iff.mp hlist
      cases hf : f.type.list <;> simp [kindOf, cardinality, hf, ho]
  have htitle : (if (draftRef f).named then (draftRef f).name else
      relationName (draftEntity s e).name (draftRef f).target) = relationTitle e f := by
    rw [relationTitle]
    by_cases h : relationLabel f = "" <;> simp [draftRef, h]
    rfl
  simp only [completeRef, hkind, htitle, hname]
  rw [show (draftRef f).target = f.type.name from rfl, indexOf_draft ht]
  rfl

theorem completeField?_draft {s : Symbols} {extra : List String} (hs : s.Accepted extra)
    {p : Place} {e : EntityDecl} {f : FieldDecl} (h : StandsAt s p ⟨e, f⟩) :
    completeField? (s.entities.map (draftEntity s)) (draftEntity s e) p (draftField s e f) =
      some (buildField s e f) := by
  have hrelation := relation_buildField s e f
  rw [completeField?, relation_draftField]
  by_cases hl : leadsTo s f.type.name f = true
  · have hbuilt : { draftField s e f with relation := some (relationRef s e f) } =
        buildField s e f := by
      rw [if_pos hl] at hrelation
      rw [← hrelation]
      rfl
    simp only [if_pos hl, otherAt?_draft hs h hl, Option.bind_eq_bind, Option.bind_some]
    rcases otherPlace_cases ⟨e, f⟩ hl with
      ⟨hplace, hinverse⟩ | ⟨q, t, g, hplace, hinverse, hq, -, hback⟩
    · dsimp only at hinverse
      simp only [hplace]
      rw [completeRef_draft hl (by rw [hinverse]; rfl) (by rw [hinverse]; rfl), hbuilt]
    · dsimp only at hinverse
      simp only [hplace, fieldAt?_draft hq, Option.map_some, Option.bind_some]
      rw [completeRef_draft hl (by rw [hinverse]; rfl)
        (by rw [hinverse]; exact congrArg some (list_buildField hback t)), hbuilt]
  · rw [if_neg hl]
    rw [if_neg hl] at hrelation
    rw [draftField, hrelation]
    simp only [Option.map_none]
    rw [← hrelation]

/-- What is true of every element at its index is true of all of them. -/
theorem mapM_zipIdx {α β : Type} {f : α × Nat → Option β} {g : α → β} {xs : List α}
    (h : ∀ x i, xs[i]? = some x → f (x, i) = some (g x)) :
    xs.zipIdx.mapM f = some (xs.map g) := by
  have hall : xs.zipIdx.mapM f = some (xs.zipIdx.map (g ∘ Prod.fst)) :=
    mapM_eq_some fun (x, i) hx => h x i (List.mk_mem_zipIdx_iff_getElem?.mp hx)
  rw [hall, ← List.map_map, List.zipIdx_map_fst]

theorem complete?_draft {s : Symbols} {extra : List String} (hs : s.Accepted extra) :
    complete? (s.entities.map (draftEntity s)) = some (s.entities.map (buildEntity s)) := by
  have hentity : ∀ e i, s.entities[i]? = some e →
      (draftEntity s e).fields.zipIdx.mapM (fun (f, j) =>
        completeField? (s.entities.map (draftEntity s)) (draftEntity s e) (i, j) f) =
      some (e.fields.map (buildField s e)) := by
    intro e i he
    have hfields : (draftEntity s e).fields = e.fields.map (draftField s e) := rfl
    rw [hfields, List.zipIdx_map, List.mapM_map]
    refine mapM_zipIdx fun f j hf => ?_
    exact completeField?_draft hs ⟨he, hf⟩
  rw [complete?, List.zipIdx_map, List.mapM_map]
  refine mapM_zipIdx fun e i he => ?_
  simp only [Function.comp_apply, Prod.map_apply, id_eq, hentity e i he, Option.bind_eq_bind,
    Option.bind_some]
  rfl

/-! ## Records -/

theorem recordAt?_build {s : Symbols} {p : Place} {r : RelationEnd} (h : StandsAt s p r)
    (hl : leadsTo s r.field.type.name r.field = true) :
    recordAt? (s.entities.map (buildEntity s)) p = some (record s r) := by
  obtain ⟨-, t, ht, -, hname⟩ := leadsTo_name hl
  have htarget : (s.entities.map (buildEntity s))[(relationRef s r.owner r.field).targetIndex]? =
      some (buildEntity s t) := by
    rw [List.getElem?_map]
    exact congrArg (Option.map (buildEntity s)) (getElem?_entityIndex ht)
  have hbuilt : (buildEntity s t).name = (relationRef s r.owner r.field).target := hname
  simp only [recordAt?, fieldAt?_build h, relation_buildField, hl, if_true, htarget, hbuilt,
    Option.bind_eq_bind, Option.bind_some]
  rfl

/-- The places and the names that are accounted for are the same. -/
theorem recordsFrom?_build {s : Symbols} {extra : List String} (hs : s.Accepted extra)
    {ends : List (Place × RelationEnd)} (hends : ends ⊆ placedEnds s) (done : List Place)
    (names : List (String × String))
    (hdone : ∀ p r, (p, r) ∈ placedEnds s → (p ∈ done ↔ r.key ∈ names)) :
    recordsFrom? (s.entities.map (buildEntity s)) done
      (ends.map fun (p, r) => (p, otherPlace s r)) =
        some (recordsFrom s names (ends.map (·.2))) := by
  induction ends generalizing done names with
  | nil => rfl
  | cons x ends ih =>
    obtain ⟨p, r⟩ := x
    obtain ⟨hx, hrest⟩ := List.cons_subset.mp hends
    obtain ⟨hp, hl⟩ := standsAt_of_mem hx
    rw [List.map_cons, List.map_cons, recordsFrom?, recordsFrom_cons]
    simp only [List.contains_iff_mem, hdone p r hx]
    split
    next => exact ih hrest done names hdone
    next =>
      rw [recordAt?_build hp hl, ih hrest _ (r.key :: (partner? s r).toList ++ names)]
      · rfl
      intro q t hq
      obtain ⟨hstands, -⟩ := standsAt_of_mem hq
      have hself := StandsAt.eq_iff hs hstands hp
      have hother : q ∈ (otherPlace s r).toList ↔ t.key ∈ (partner? s r).toList := by
        rcases otherPlace_cases r hl with
          ⟨hplace, hinverse⟩ | ⟨o, u, g, hplace, hinverse, ho, hname, -⟩
        · simp [hplace, partner?, hinverse]
        · simp only [hplace, partner?, hinverse, Option.map_some, Option.mem_toList]
          rw [eq_comm, Option.some_inj, StandsAt.eq_iff hs hstands ho, eq_comm, ← hname,
            Option.some_inj]
          rfl
      simp only [List.cons_append, List.mem_cons, List.mem_append, hself, hother, hdone q t hq]

theorem relations?_eq {s : Symbols} {extra : List String} (hs : s.Accepted extra) :
    relations? (s.entities.map (draftEntity s)) =
      some (s.entities.map (buildEntity s), relations s) := by
  have hothers : (places (s.entities.map (draftEntity s))).mapM
      (otherAt? (s.entities.map (draftEntity s))) =
      some ((placedEnds s).map fun (_, r) => otherPlace s r) := by
    rw [← map_fst_placedEnds, List.mapM_map]
    refine mapM_eq_some fun (p, r) hx => ?_
    obtain ⟨hp, hl⟩ := standsAt_of_mem hx
    exact otherAt?_draft hs hp hl
  have hrecords := recordsFrom?_build hs (List.Subset.refl (placedEnds s)) [] [] (by simp)
  have hzip : (places (s.entities.map (draftEntity s))).zip
      ((placedEnds s).map fun (_, r) => otherPlace s r) =
      (placedEnds s).map fun (p, r) => (p, otherPlace s r) := by
    rw [← map_fst_placedEnds, List.zip_map', List.map_congr_left]
    exact fun _ _ => rfl
  rw [map_snd_placedEnds] at hrecords
  simp only [relations?, hothers, complete?_draft hs, hzip, hrecords, Option.bind_eq_bind,
    Option.bind_some]
  rfl

end Scaffold.Unguarded
