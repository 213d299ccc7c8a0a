import Scaffold.Proofs.Build.Relation

/-! # What the record of a relation names

A record is made from a relation field and its other side, so the entities and fields it names are
declared, and every field that it names leads to the entity of the other side. -/
namespace Scaffold.Build

open Scaffold.Source Scaffold.Check Scaffold.Model

/-! ## Relation fields by name -/

theorem field?_build {s : Symbols} {e : EntityDecl} (he : EntityAccepted s e) {f : FieldDecl}
    (hf : f ∈ e.fields) : (buildEntity s e).field? f.name = some (buildField s e f) := by
  have hnodup : ((buildEntity s e).fields.map (·.name)).Nodup := by
    rw [buildEntity, List.map_map]
    exact he.names
  exact find?_name (x := buildField s e f) hnodup (List.mem_map_of_mem hf)

theorem relation?_build {s : Symbols} {extra : List String} (hs : s.Accepted extra)
    {e : EntityDecl} (he : e ∈ s.entities) {f : FieldDecl} (hf : f ∈ e.fields)
    {target : String} (hl : leadsTo s target f = true) (name : String) :
    (build s name).relation? e.name f.name = some (buildField s e f, relationRef s e f) := by
  have htarget := (leadsTo_name hl).1
  rw [← htarget] at hl
  simp [Application.relation?, entity?_build hs.distinct he, field?_build (hs.entity he) hf,
    relation_buildField, hl]

theorem list_buildField {s : Symbols} {target : String} {f : FieldDecl}
    (hl : leadsTo s target f = true) (e : EntityDecl) :
    (buildField s e f).type.list = f.type.list := by
  obtain ⟨-, t, ht, hk, -⟩ := leadsTo_iff.mp hl
  obtain ⟨-, -, hform⟩ := fieldType?_relation ht hk
  simp [buildField, ht, hform]

/-! ## Records -/

theorem mem_recordsFrom {s : Symbols} {done : List (String × String)} {rest : List RelationEnd}
    {r : Relation} (h : r ∈ recordsFrom s done rest) : ∃ q ∈ rest, r = record s q := by
  induction rest generalizing done with
  | nil => cases h
  | cons q rest ih =>
    rw [recordsFrom_cons] at h
    split at h
    · obtain ⟨p, hp, heq⟩ := ih h
      exact ⟨p, .tail _ hp, heq⟩
    · rcases List.mem_cons.mp h with heq | h
      · exact ⟨q, .head _, heq⟩
      · obtain ⟨p, hp, heq⟩ := ih h
        exact ⟨p, .tail _ hp, heq⟩

/-- The record of an end, by whether its field and the other side are lists. -/
theorem record_cases (s : Symbols) (r : RelationEnd) :
    (r.field.type.list = false ∧ (record s r).kind ≠ .manyToOne ∧
        (record s r).kind ≠ .manyToMany ∧
        (record s r).one = r.field.type.name ∧ (record s r).many = r.owner.name ∧
        (record s r).oneField = ((inverse? s r.owner r.field).map (·.name)).getD "" ∧
        (record s r).manyField = r.field.name) ∨
      (r.field.type.list = true ∧
        ((record s r).kind = .oneToMany ∧ (∀ g, inverse? s r.owner r.field = some g →
            g.type.list = false) ∨
          (record s r).kind = .manyToMany ∧ ∃ g, inverse? s r.owner r.field = some g ∧
            g.type.list = true) ∧
        (record s r).one = r.owner.name ∧ (record s r).many = r.field.type.name ∧
        (record s r).oneField = r.field.name ∧
        (record s r).manyField = ((inverse? s r.owner r.field).map (·.name)).getD "") := by
  cases hl : r.field.type.list with
  | false =>
    left
    cases hi : inverse? s r.owner r.field with
    | none => simp [record, relationRef, cardinality, hl, hi]
    | some g => cases hg : g.type.list <;> simp [record, relationRef, cardinality, hl, hi, hg]
  | true =>
    right
    cases hi : inverse? s r.owner r.field with
    | none => simp [record, relationRef, cardinality, hl, hi]
    | some g => cases hg : g.type.list <;> simp [record, relationRef, cardinality, hl, hi, hg]

/-- The inverse of an end is a relation of the entity on the other side, and leads back. -/
theorem relation?_inverse {s : Symbols} {extra : List String} (hs : s.Accepted extra)
    (hn : EntitiesNamed s) {r : RelationEnd} (hr : r ∈ relationEnds s) (name : String)
    {g : FieldDecl} (hg : inverse? s r.owner r.field = some g) :
    ∃ t, (build s name).relation? r.field.type.name g.name =
        some (buildField s t g, relationRef s t g) ∧
      (relationRef s t g).target = r.owner.name ∧
      (buildField s t g).type.list = g.type.list ∧ g.name ≠ "" := by
  obtain ⟨ho, hf, hl⟩ := mem_relationEnds.mp hr
  obtain ⟨t, -, ht, hname⟩ := (leadsTo_name hl).2
  rw [← hname] at hl
  have hsides := (inverse?_eq_some_iff hs ho hf ht hl).mp hg
  refine ⟨t, hname ▸ relation?_build hs ht hsides.other_mem hsides.back name, ?_, ?_, ?_⟩
  · exact (leadsTo_name hsides.back).1
  · exact list_buildField hsides.back t
  · exact (hn t ht).2 g hsides.other_mem

/-- The record of an end leads to declared entities and fields. -/
theorem record_closed {s : Symbols} {extra : List String} (hs : s.Accepted extra)
    (hn : EntitiesNamed s) {r : RelationEnd} (hr : r ∈ relationEnds s) (name : String) :
    (record s r).Closed (build s name) := by
  obtain ⟨ho, hf, hl⟩ := mem_relationEnds.mp hr
  obtain ⟨t, -, ht, hname⟩ := (leadsTo_name hl).2
  have howner : (build s name).entity? r.owner.name = some (buildEntity s r.owner) :=
    entity?_build hs.distinct ho name
  have htarget : (build s name).entity? r.field.type.name = some (buildEntity s t) :=
    hname ▸ entity?_build hs.distinct ht name
  have hown : (build s name).relation? r.owner.name r.field.name =
      some (buildField s r.owner r.field, relationRef s r.owner r.field) :=
    relation?_build hs ho hf hl name
  have hnamed : r.field.name ≠ "" := (hn r.owner ho).2 r.field hf
  rcases record_cases s r with
    ⟨hlist, hkind, hjoin, hone, hmany, hof, hmf⟩ | ⟨hlist, hkind, hone, hmany, hof, hmf⟩
  · refine ⟨hkind, hone ▸ ⟨_, htarget⟩, hmany ▸ ⟨_, howner⟩, fun _ => ?_, fun hne => ?_, ?_, ?_⟩
    · rw [hmany, hmf, hone]
      exact ⟨_, _, hown, rfl, by simp [list_buildField hl, hlist, hjoin]⟩
    · cases hi : inverse? s r.owner r.field with
      | none => simp [hof, hi] at hne
      | some g =>
        obtain ⟨_, hg, hback, -, -⟩ := relation?_inverse hs hn hr name hi
        rw [hone, hof, hi, hmany]
        exact ⟨_, _, hg, hback⟩
    · exact fun he => absurd (hmf ▸ he) hnamed
    · exact fun he => absurd he hjoin
  · refine ⟨?_, hone ▸ ⟨_, howner⟩, hmany ▸ ⟨_, htarget⟩, fun hne => ?_, fun _ => ?_, ?_, ?_⟩
    · rcases hkind with ⟨hk, -⟩ | ⟨hk, -⟩ <;> simp [hk]
    · cases hi : inverse? s r.owner r.field with
      | none => simp [hmf, hi] at hne
      | some g =>
        obtain ⟨_, hg, hback, hglist, -⟩ := relation?_inverse hs hn hr name hi
        rw [hmany, hmf, hi, hone]
        refine ⟨_, _, hg, hback, ?_⟩
        rw [hglist]
        rcases hkind with ⟨hk, hno⟩ | ⟨hk, g', hg', hyes⟩
        · simp [hk, hno g hi]
        · obtain rfl : g' = g := Option.some.inj (hg'.symm.trans hi)
          simp [hk, hyes]
    · rw [hone, hof, hmany]
      exact ⟨_, _, hown, rfl⟩
    · intro he
      refine ⟨?_, hof ▸ hnamed⟩
      rcases hkind with ⟨hk, -⟩ | ⟨-, g, hg, -⟩
      · exact hk
      · obtain ⟨_, -, -, -, hne⟩ := relation?_inverse hs hn hr name hg
        rw [hmf, hg] at he
        exact absurd he hne
    · exact fun _ => hof ▸ hnamed

/-- Every relation of a built application leads to declared entities and fields. -/
theorem relations_closed {s : Symbols} {extra : List String} (hs : s.Accepted extra)
    (hn : EntitiesNamed s) (name : String) :
    ∀ r ∈ (build s name).relations, r.Closed (build s name) := by
  intro r hr
  obtain ⟨q, hq, rfl⟩ := mem_recordsFrom hr
  exact record_closed hs hn hq name

/-! ## Policies -/

theorem setNull_accepted {s : Symbols} {extra : List String} (hs : s.Accepted extra)
    {e : EntityDecl} (he : e ∈ s.entities) {f : FieldDecl} (hf : f ∈ e.fields)
    (hnull : (relationRef s e f).onDelete = .setNull) :
    (buildField s e f).optional = true ∨ (buildField s e f).type.list = true := by
  obtain ⟨t, ht⟩ := (hs.entity he).field f hf
  have hpolicy : OnDelete.ofName? (onDeleteLabel f) = some .setNull := by
    cases hp : OnDelete.ofName? (onDeleteLabel f) with
    | none => simp [relationRef, hp] at hnull
    | some policy =>
      have heq : policy = .setNull := by simpa [relationRef, hp] using hnull
      rw [heq]
  simpa [buildField, ht.type] using ht.policy hpolicy

end Scaffold.Build
