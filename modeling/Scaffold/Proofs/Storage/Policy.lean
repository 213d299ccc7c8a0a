import Scaffold.Proofs.Storage.References

/-! # Whose policy a reference has

A foreign key takes its policy from one field of its relation: the field that it is kept for, or
the list if no field leads back. What the other side of the relation declares is not read, so a
policy that is declared there has no effect. -/
namespace Scaffold.Model

/-- The side of a relation whose policy counts. -/
def Relation.decider (r : Relation) : String × String :=
  if r.manyField = "" then (r.one, r.oneField) else (r.many, r.manyField)

theorem Relation.decider_mem (r : Relation) : r.decider ∈ r.ends := by
  unfold decider ends
  split <;> simp

end Scaffold.Model

namespace Scaffold.Storage

open Scaffold.Source Scaffold.Check Scaffold.Model Scaffold.Build
open Scaffold.Text (snake)

/-! ## The record of a relation field -/

/-- Of two members of a list only one can hold what stands in their parts once. -/
theorem eq_of_count_flatMap {α β : Type} [BEq β] [LawfulBEq β] {xs : List α} {f : α → List β}
    {k : β} (h : (xs.flatMap f).count k ≤ 1) {x y : α} (hx : x ∈ xs) (hy : y ∈ xs)
    (hkx : k ∈ f x) (hky : k ∈ f y) : x = y := by
  induction xs with
  | nil => cases hx
  | cons z zs ih =>
    rw [List.flatMap_cons, List.count_append] at h
    have hrest {w : α} (hw : w ∈ zs) (hkw : k ∈ f w) : 0 < (zs.flatMap f).count k :=
      List.count_pos_iff.mpr (List.mem_flatMap.mpr ⟨w, hw, hkw⟩)
    have hhead {w : α} (hw : w = z) (hkw : k ∈ f w) : 0 < (f z).count k :=
      List.count_pos_iff.mpr (hw ▸ hkw)
    rcases List.mem_cons.mp hx with hx | hx <;> rcases List.mem_cons.mp hy with hy | hy
    · rw [hx, hy]
    · have := hhead hx hkx
      have := hrest hy hky
      omega
    · have := hhead hy hky
      have := hrest hx hkx
      omega
    · exact ih (by omega) hx hy

theorem exists_record {a : Application} (ha : a.RelationsPaired) {key : String × String}
    (hk : key ∈ a.relationFields) :
    ∃ r ∈ a.relations, ∀ p ∈ a.relations, key ∈ p.ends ↔ p = r := by
  have honce := ha.once key hk
  obtain ⟨r, hr, hkey⟩ := List.mem_flatMap.mp (List.count_pos_iff.mp (honce ▸ Nat.one_pos))
  refine ⟨r, hr, fun p hp => ⟨fun h => ?_, fun h => h ▸ hkey⟩⟩
  exact eq_of_count_flatMap (Nat.le_of_eq honce) hp hr h hkey

/-! ## Policies -/

/-- The policy of a relation field: the one that it declares, or else to restrict. -/
def policyAt (q : RelationEnd) : OnDelete :=
  (OnDelete.ofName? (onDeleteLabel q.field)).getD .restrict

theorem policyOf_build {s : Symbols} {extra : List String} (hs : s.Accepted extra)
    {q : RelationEnd} (hq : q ∈ relationEnds s) (name : String) :
    policyOf (((build s name).entity? q.owner.name).bind (·.field? q.field.name)) =
      policyAt q := by
  obtain ⟨ho, hf, hl⟩ := mem_relationEnds.mp hq
  simp only [entity?_build hs.distinct ho, Option.bind_some, field?_build (hs.entity ho) hf,
    policyOf, relation_buildField, hl, if_true, Option.map_some, Option.getD_some]
  rfl

/-- Only the deciding side is read. -/
theorem onDelete_reference (a : Application) (r : Relation) (key : Field) :
    (reference a r key).2.onDelete =
      policyOf ((a.entity? r.decider.1).bind (·.field? r.decider.2)) := by
  by_cases h : r.manyField = "" <;> simp [reference, Relation.decider, h]

/-- The deciding side of a relation is one of its fields. -/
theorem exists_decider {s : Symbols} {extra : List String} (hs : s.Accepted extra)
    (hn : EntitiesNamed s) {name : String} {r : Relation} (hr : r ∈ (build s name).relations) :
    ∃ d ∈ relationEnds s, d.key = r.decider := by
  have hclosed := relations_closed hs hn name r hr
  have hnamed : r.decider.2 ≠ "" := by
    unfold Relation.decider
    split
    next hhidden => exact (hclosed.hidden hhidden).2
    next hkept => exact hkept
  obtain ⟨q, hq, rfl⟩ := mem_recordsFrom hr
  rcases (mem_ends_record hnamed).mp (Relation.decider_mem _) with hkey | hpartner
  · exact ⟨q, hq, hkey.symm⟩
  · obtain ⟨-, d, hd, hkey, -⟩ := partner?_symm hs hq hpartner
    exact ⟨d, hd, hkey⟩

/-! ## The foreign key of a relation -/

/-- A plan has one table of the many side, and there one foreign key of the relation. -/
def IsKeyOf (tables : List Table) (r : Relation) (k : ForeignKey) : Prop :=
  ∃ t, tables.filter (·.entity == r.many) = [t] ∧
    t.foreignKeys.filter (·.column == referenceName r) = [k]

theorem column_reference (a : Application) (r : Relation) (key : Field) :
    (reference a r key).2.column = referenceName r := rfl

theorem EntityTable.foreignKeys_nodup {e : Entity} {t : Table} (h : EntityTable e t) :
    (t.foreignKeys.map (·.column)).Nodup := by
  have hdistinct := h.distinct
  rw [h.columns] at hdistinct
  exact hdistinct.of_append_right

theorem exists_key {a : Application} {given : List String} (ha : Plannable a given)
    (hnamed : ∀ e ∈ a.entities, e.name ≠ "") {tables : List Table} (hplan : plan a = .ok tables)
    {r : Relation} (hr : r ∈ a.relations) (hk : r.kind = .oneToMany ∨ r.kind = .oneToOne) :
    ∃ key, IsKeyOf tables r (reference a r key).2 := by
  obtain ⟨own, joins, rfl, hown, hjoins⟩ := plan_filled ha hplan
  obtain ⟨e, he, hkept, -⟩ := kept_once ha hr hk
  have hmany : r.many = e.name := (mem_referring.mp hkept).2.2
  obtain ⟨t, ht, hfilled⟩ := exists_of_mem_left hown he
  obtain ⟨refs, hrefs, -, hkeys⟩ := hfilled.references
  obtain ⟨_, hq, key, -, rfl⟩ := exists_of_mem_left hrefs hkept
  have hentity : t.entity = r.many := hfilled.table.entity.trans hmany.symm
  refine ⟨key, t, ?_, ?_⟩
  · have hnames : (own.map (·.entity)).Nodup := by
      have hsame : own.map (·.entity) = a.entities.map (·.name) :=
        map_eq_of_forall₂ (hown.imp fun _ _ h => h.table.entity)
      exact hsame ▸ ha.closed.entity_names
    have hnone : joins.filter (·.entity == r.many) = [] := by
      refine List.filter_eq_nil_iff.mpr fun u hu => ?_
      obtain ⟨p, -, left, right, -, -, rfl⟩ := exists_of_mem_right hjoins hu
      simpa [joinTable, hmany] using (hnamed e he).symm
    rw [List.filter_append, hnone, List.append_nil, ← hentity]
    exact filter_name Table.entity hnames ht
  · rw [← column_reference a r key]
    refine filter_name ForeignKey.column hfilled.table.foreignKeys_nodup ?_
    rw [hkeys]
    exact List.mem_map_of_mem hq

/-- The foreign key `k` of a relation has the policy of the field that decides. So a policy that the
field `q` declares is that of the key exactly when it decides itself, or the one that does has the
same policy. -/
def Follows (s : Symbols) (r : Relation) (k : ForeignKey) (q : RelationEnd) : Prop :=
  ∃ d ∈ relationEnds s, d.key = r.decider ∧ k.onDelete = policyAt d ∧
    ∀ P, OnDelete.ofName? (onDeleteLabel q.field) = some P →
      (k.onDelete = P ↔ q.key = r.decider ∨ policyAt d = P)

/-- Every relation field is a side of one relation. If that is no join, it has one foreign key in
the plan. -/
def PoliciesFollow (s : Symbols) (a : Application) (tables : List Table) : Prop :=
  ∀ q ∈ relationEnds s, ∃ r ∈ a.relations, (∀ p ∈ a.relations, q.key ∈ p.ends ↔ p = r) ∧
    (r.kind = .manyToMany ∨ ∃ k, IsKeyOf tables r k ∧ Follows s r k q)

theorem follows_reference {s : Symbols} {extra : List String} (hs : s.Accepted extra)
    (hn : EntitiesNamed s) {name : String} {r : Relation} (hr : r ∈ (build s name).relations)
    (key : Field) {q : RelationEnd} (hq : q ∈ relationEnds s) :
    Follows s r (reference (build s name) r key).2 q := by
  obtain ⟨d, hd, hdecides⟩ := exists_decider hs hn hr
  have hpolicy : (reference (build s name) r key).2.onDelete = policyAt d := by
    rw [onDelete_reference, ← hdecides]
    exact policyOf_build hs hd name
  refine ⟨d, hd, hdecides, hpolicy, fun P hP => ?_⟩
  rw [hpolicy]
  refine ⟨.inr, fun h => h.elim (fun hown => ?_) id⟩
  obtain rfl : d = q := eq_of_key hs hd hq (hdecides.trans hown.symm)
  simp [policyAt, hP]

/-- In a plan of a compiled application every reference has the policy of the field that decides,
whatever the other side of the relation declares. -/
theorem compile_policies {path : String} {source : List Text.Rune} {opts : CompileOptions}
    {app : Application} (hcompile : compile path source opts = .ok app) {tables : List Table}
    (hplan : plan app = .ok tables) :
    ∃ f, parseSource path source = .ok f ∧ PoliciesFollow ⟨f.decls⟩ app tables := by
  have ha := compile_plannable hcompile
  obtain ⟨f, hf, hnamed, hs, rfl⟩ := compile_ok hcompile
  have hn := entitiesNamed_of_named hnamed
  refine ⟨f, hf, fun q hq => ?_⟩
  have hfield : q.key ∈ (build ⟨f.decls⟩ opts.name).relationFields := by
    rw [relationFields_build]
    exact List.mem_map_of_mem hq
  obtain ⟨r, hr, honly⟩ := exists_record (relationsPaired_build hs hn opts.name) hfield
  refine ⟨r, hr, honly, ?_⟩
  by_cases hjoin : r.kind = .manyToMany
  · exact .inl hjoin
  have hkind := oneTo_of_ne hjoin (ha.relations r hr).kind
  obtain ⟨key, hkey⟩ := exists_key ha (List.forall_mem_map.mpr fun e he => (hn e he).1) hplan hr
    hkind
  exact .inr ⟨_, hkey, follows_reference hs hn hr key hq⟩

/-- A list that no field leads back from, a field that a list leads back to, and a relation of one
to one, each with its policy where it counts. -/
def albums : List Text.Rune := [
  "entity Album \x7b id: Int primaryKey songs: Song[] @relation(onDelete: cascade) ",
  "cover: Cover @relation(onDelete: cascade) \x7d ",
  "entity Song \x7b id: Int primaryKey plays: Play[] \x7d ",
  "entity Play \x7b id: Int primaryKey song: Song optional @relation(onDelete: setNull) \x7d ",
  "entity Cover \x7b id: Int primaryKey album: Album optional \x7d"].flatMap Text.runes

theorem albums_policies : ∃ app tables f, compile "" albums ⟨[], ""⟩ = .ok app ∧
    plan app = .ok tables ∧
    tables.map (·.foreignKeys.map (·.onDelete)) = [[.cascade], [.cascade], [.setNull], []] ∧
    parseSource "" albums = .ok f ∧ PoliciesFollow ⟨f.decls⟩ app tables := by
  obtain ⟨app, tables, hcompile, hplan, hkeys⟩ := planned?_any albums
    (p := fun _ tables =>
      tables.map (·.foreignKeys.map (·.onDelete)) = [[.cascade], [.cascade], [.setNull], []])
    (by simp only [albums, List.flatMap_cons]; repeat rw [Text.runes_ofList]
        decide +kernel)
  obtain ⟨f, hf, hpolicies⟩ := compile_policies hcompile hplan
  exact ⟨app, tables, f, hcompile, hplan, hkeys, hf, hpolicies⟩

/-- A list that a field leads back to, with a policy of its own. -/
def posts : List Text.Rune := [
  "entity User \x7b id: Int primaryKey posts: Post[] @relation(onDelete: cascade) \x7d ",
  "entity Post \x7b id: Int primaryKey author: User \x7d"].flatMap Text.runes

/-- The policy is that of the relation field in the model, and the foreign key has another. -/
theorem posts_unfollowed : ∃ app tables, compile "" posts ⟨[], ""⟩ = .ok app ∧
    plan app = .ok tables ∧
    app.relations.map (fun r => (r.kind, r.ends)) =
      [(.oneToMany, [("User", "posts"), ("Post", "author")])] ∧
    (app.relation? "User" "posts").map (·.2.onDelete) = some .cascade ∧
    tables.map (·.foreignKeys.map (·.onDelete)) = [[], [.restrict]] := by
  obtain ⟨app, tables, hcompile, hplan, hkinds, hpolicy, hkeys⟩ := planned?_any posts
    (p := fun app tables => app.relations.map (fun r => (r.kind, r.ends)) =
        [(.oneToMany, [("User", "posts"), ("Post", "author")])] ∧
      (app.relation? "User" "posts").map (·.2.onDelete) = some .cascade ∧
      tables.map (·.foreignKeys.map (·.onDelete)) = [[], [.restrict]])
    (by simp only [posts, List.flatMap_cons]; repeat rw [Text.runes_ofList]
        decide +kernel)
  exact ⟨app, tables, hcompile, hplan, hkinds, hpolicy, hkeys⟩

end Scaffold.Storage
