import Scaffold.Proofs.Build.Inverse

/-! # One record for each relation

The records are made by taking each relation field that comes before its other side. -/
namespace Scaffold.Build

open Scaffold.Source Scaffold.Check Scaffold.Model

/-! ## Ends -/

theorem mem_relationEnds {s : Symbols} {r : RelationEnd} : r ∈ relationEnds s ↔
    r.owner ∈ s.entities ∧ r.field ∈ r.owner.fields ∧
      leadsTo s r.field.type.name r.field = true := by
  obtain ⟨e, f⟩ := r
  simp [relationEnds]

theorem relationFields_build (s : Symbols) (name : String) :
    (build s name).relationFields = (relationEnds s).map RelationEnd.key := by
  have hfields (e : EntityDecl) : (buildEntity s e).fields = e.fields.map (buildField s e) := rfl
  have hsome (e : EntityDecl) :
      (fun f : Field => f.relation.isSome) ∘ buildField s e = fun f => leadsTo s f.type.name f := by
    funext f
    rw [Function.comp_apply, relation_buildField]
    split <;> simp [*]
  simp only [Application.relationFields, build, relationEnds, List.flatMap_map, List.map_flatMap,
    hfields, List.filter_map, hsome, List.map_map]
  rfl

theorem keys_nodup {s : Symbols} {extra : List String} (hs : s.Accepted extra) :
    ((relationEnds s).map RelationEnd.key).Nodup := by
  rw [relationEnds, List.map_flatMap, List.nodup_flatMap]
  constructor
  · intro e he
    rw [List.map_map]
    have hfields := (hs.entity he).names
    refine List.Nodup.of_map Prod.snd ?_
    rw [List.map_map]
    exact hfields.sublist (List.filter_sublist.map _)
  · have hentities : s.entities.Pairwise fun d e => d.name ≠ e.name :=
      List.pairwise_map.mp hs.distinct.entities
    refine hentities.imp fun {d e} hne => ?_
    intro k hd he
    simp only [List.mem_map] at hd he
    obtain ⟨_, ⟨f, -, rfl⟩, rfl⟩ := hd
    obtain ⟨_, ⟨g, -, rfl⟩, hk⟩ := he
    exact hne (congrArg Prod.fst hk).symm

theorem key_named {s : Symbols} (hn : EntitiesNamed s) {k : String × String}
    (hk : k ∈ (relationEnds s).map RelationEnd.key) : k.2 ≠ "" := by
  obtain ⟨r, hr, rfl⟩ := List.mem_map.mp hk
  obtain ⟨ho, hf, -⟩ := mem_relationEnds.mp hr
  exact (hn r.owner ho).2 r.field hf

theorem eq_of_key {s : Symbols} {extra : List String} (hs : s.Accepted extra) {q r : RelationEnd}
    (hq : q ∈ relationEnds s) (hr : r ∈ relationEnds s) (h : q.key = r.key) : q = r :=
  List.inj_on_of_nodup_map (keys_nodup hs) hq hr h

/-- The key of the other side of an end. -/
def partner? (s : Symbols) (r : RelationEnd) : Option (String × String) :=
  (inverse? s r.owner r.field).map fun g => (r.field.type.name, g.name)

/-- The other side of an end is another end, and its other side is the end itself. -/
theorem partner?_symm {s : Symbols} {extra : List String} (hs : s.Accepted extra)
    {r : RelationEnd} (hr : r ∈ relationEnds s) {k : String × String}
    (hk : partner? s r = some k) :
    k ≠ r.key ∧ ∃ q ∈ relationEnds s, q.key = k ∧ partner? s q = some r.key := by
  obtain ⟨ho, hf, hl⟩ := mem_relationEnds.mp hr
  obtain ⟨t, -, ht, hname⟩ := (leadsTo_name hl).2
  rw [← hname] at hl
  obtain ⟨g, hg, rfl⟩ := Option.map_eq_some_iff.mp hk
  have hsides := (inverse?_eq_some_iff hs ho hf ht hl).mp hg
  have hback := (leadsTo_name hsides.back).1
  rw [← hname]
  refine ⟨hsides.apart, ⟨t, g⟩, mem_relationEnds.mpr ⟨ht, hsides.other_mem, ?_⟩, rfl, ?_⟩
  · rw [hback]
    exact hsides.back
  · rw [partner?, (inverse?_eq_some_iff hs ht hsides.other_mem ho hsides.back).mpr hsides.symm,
      Option.map_some, hback]
    rfl

theorem partner?_comm {s : Symbols} {extra : List String} (hs : s.Accepted extra)
    {q r : RelationEnd} (hq : q ∈ relationEnds s) (hr : r ∈ relationEnds s)
    (h : partner? s r = some q.key) : partner? s q = some r.key := by
  obtain ⟨-, p, hp, hkey, hback⟩ := partner?_symm hs hr h
  rwa [eq_of_key hs hp hq hkey] at hback

/-! ## Records -/

/-- A record has the end that it is made from, and the other side if there is one. -/
theorem ends_record (s : Symbols) (r : RelationEnd) :
    (record s r).ends.Perm [r.key, (partner? s r).getD (r.field.type.name, "")] := by
  have hpartner : (partner? s r).getD (r.field.type.name, "") =
      (r.field.type.name, (relationRef s r.owner r.field).inverse) := by
    simp only [partner?, relationRef]
    cases inverse? s r.owner r.field <;> rfl
  rw [hpartner]
  dsimp only [record]
  split
  case h_1 => exact List.Perm.swap ..
  case h_2 => exact List.Perm.refl _
  case h_3 => exact List.Perm.swap ..
  case h_4 => exact List.Perm.refl _

theorem mem_ends_record {s : Symbols} {r : RelationEnd} {k : String × String} (hk : k.2 ≠ "") :
    k ∈ (record s r).ends ↔ k = r.key ∨ partner? s r = some k := by
  rw [(ends_record s r).mem_iff]
  cases hp : partner? s r with
  | none =>
    have hne : k ≠ (r.field.type.name, "") := fun h => hk (h ▸ rfl)
    simp [hne]
  | some p => simp [eq_comm]

theorem count_ends_record {s : Symbols} {r : RelationEnd} {k : String × String} (hk : k.2 ≠ "")
    (hr : partner? s r ≠ some r.key) :
    (record s r).ends.count k = if k = r.key ∨ partner? s r = some k then 1 else 0 := by
  rw [(ends_record s r).count_eq]
  by_cases hkey : k = r.key
  · have hother : (partner? s r).getD (r.field.type.name, "") ≠ r.key := by
      cases hp : partner? s r with
      | none => exact fun h => hk (hkey ▸ h ▸ rfl)
      | some p => exact fun h => hr (hp.trans (congrArg some h))
    simp [hkey, hother]
  · have hkey' : r.key ≠ k := Ne.symm hkey
    cases hp : partner? s r with
    | none =>
      have hne : (r.field.type.name, "") ≠ k := fun h => hk (h ▸ rfl)
      simp [hkey, hkey', hne]
    | some p => simp [List.count_cons, hkey, hkey']

/-- What holds between the ends that are accounted for and those still to come: an end is accounted
for when it has another side and that side has gone by. -/
structure Pending (s : Symbols) (done : List (String × String)) (rest : List RelationEnd) :
    Prop where
  ends : ∀ r ∈ rest, r ∈ relationEnds s
  nodup : (rest.map RelationEnd.key).Nodup
  alone : ∀ r ∈ rest, partner? s r = none → r.key ∉ done
  paired : ∀ r ∈ rest, ∀ k, partner? s r = some k → (r.key ∈ done ↔ k ∉ rest.map RelationEnd.key)

theorem pending_relationEnds {s : Symbols} {extra : List String} (hs : s.Accepted extra) :
    Pending s [] (relationEnds s) := by
  refine ⟨fun r hr => hr, keys_nodup hs, by simp, fun r hr k hk => ?_⟩
  obtain ⟨-, q, hq, rfl, -⟩ := partner?_symm hs hr hk
  simp only [List.not_mem_nil, false_iff, not_not]
  exact List.mem_map_of_mem hq

/-- The other side of an end that is accounted for has gone by, so no end waits for it. -/
theorem Pending.skip {s : Symbols} {extra : List String} (hs : s.Accepted extra)
    {done : List (String × String)} {r : RelationEnd} {rest : List RelationEnd}
    (h : Pending s done (r :: rest)) (hr : r.key ∈ done) : Pending s done rest := by
  refine ⟨fun q hq => h.ends q (.tail _ hq), (List.nodup_cons.mp h.nodup).2,
    fun q hq => h.alone q (.tail _ hq), fun q hq k hk => ?_⟩
  rw [h.paired q (.tail _ hq) k hk, List.map_cons, List.mem_cons]
  have hne : k ≠ r.key := by
    rintro rfl
    have hback := partner?_comm hs (h.ends r (.head _)) (h.ends q (.tail _ hq)) hk
    refine (h.paired r (.head _) q.key hback).mp hr (List.mem_map_of_mem (.tail _ hq))
  simp [hne]

/-- Taking an end accounts for it and for its other side. -/
theorem Pending.take {s : Symbols} {extra : List String} (hs : s.Accepted extra)
    {done : List (String × String)} {r : RelationEnd} {rest : List RelationEnd}
    (h : Pending s done (r :: rest)) :
    Pending s (r.key :: (partner? s r).toList ++ done) rest := by
  obtain ⟨hnotin, hnodup⟩ := List.nodup_cons.mp h.nodup
  have hr : r ∈ relationEnds s := h.ends r (.head _)
  have hkey : ∀ q ∈ rest, q.key ≠ r.key := by
    intro q hq heq
    exact hnotin (heq ▸ List.mem_map_of_mem hq)
  refine ⟨fun q hq => h.ends q (.tail _ hq), hnodup, fun q hq hnone => ?_, fun q hq k hk => ?_⟩
  · have hne : partner? s r ≠ some q.key := by
      intro hp
      rw [partner?_comm hs (h.ends q (.tail _ hq)) hr hp] at hnone
      cases hnone
    have hdone := h.alone q (.tail _ hq) hnone
    simp [hkey q hq, hne, hdone]
  · have hq' := h.ends q (.tail _ hq)
    by_cases hp : partner? s r = some q.key
    · have hback := partner?_comm hs hq' hr hp
      obtain rfl : k = r.key := Option.some.inj (hk.symm.trans hback)
      simp [hp, hnotin]
    · have hne : k ≠ r.key := by
        rintro rfl
        exact hp (partner?_comm hs hr hq' hk)
      have hdone := h.paired q (.tail _ hq) k hk
      rw [List.map_cons, List.mem_cons, not_or] at hdone
      simp only [List.cons_append, List.mem_cons, List.mem_append, Option.mem_toList,
        hkey q hq, hp, false_or, hdone, hne, not_false_eq_true, true_and]

theorem recordsFrom_cons (s : Symbols) (done : List (String × String)) (r : RelationEnd)
    (rest : List RelationEnd) : recordsFrom s done (r :: rest) =
      if r.key ∈ done then recordsFrom s done rest
      else record s r :: recordsFrom s (r.key :: (partner? s r).toList ++ done) rest := by
  rw [recordsFrom]
  simp only [List.contains_iff_mem]
  rfl

/-- The other side of an end that is taken is still to come and not accounted for. -/
theorem Pending.partner {s : Symbols} {extra : List String} (hs : s.Accepted extra)
    {done : List (String × String)} {r : RelationEnd} {rest : List RelationEnd}
    (h : Pending s done (r :: rest)) (hr : r.key ∉ done) {k : String × String}
    (hk : partner? s r = some k) : k ∈ rest.map RelationEnd.key ∧ k ∉ done := by
  have hmem : k ∈ (r :: rest).map RelationEnd.key := by
    by_contra hnot
    exact hr ((h.paired r (.head _) k hk).mpr hnot)
  obtain ⟨q, hq, rfl⟩ := List.mem_map.mp hmem
  have hback := partner?_comm hs (h.ends q hq) (h.ends r (.head _)) hk
  have hne := (partner?_symm hs (h.ends r (.head _)) hk).1
  constructor
  · rw [List.map_cons, List.mem_cons] at hmem
    exact hmem.resolve_left hne
  · intro hdone
    exact (h.paired q hq r.key hback).mp hdone (List.mem_map_of_mem (.head _))

/-- Every end to come that is not accounted for gets one side of one record. -/
theorem count_recordsFrom {s : Symbols} {extra : List String} (hs : s.Accepted extra)
    {k : String × String} (hk : k.2 ≠ "") {done : List (String × String)}
    {rest : List RelationEnd} (h : Pending s done rest) :
    ((recordsFrom s done rest).flatMap Relation.ends).count k =
      if k ∈ rest.map RelationEnd.key ∧ k ∉ done then 1 else 0 := by
  induction rest generalizing done with
  | nil => simp [recordsFrom]
  | cons r rest ih =>
    rw [recordsFrom_cons]
    by_cases hr : r.key ∈ done
    · have hiff : k ∈ (r :: rest).map RelationEnd.key ∧ k ∉ done ↔
          k ∈ rest.map RelationEnd.key ∧ k ∉ done := by
        rw [List.map_cons, List.mem_cons]
        constructor
        · rintro ⟨rfl | hmem, hdone⟩
          · exact absurd hr hdone
          · exact ⟨hmem, hdone⟩
        · exact fun ⟨hmem, hdone⟩ => ⟨.inr hmem, hdone⟩
      rw [if_pos hr, ih (h.skip hs hr)]
      simp only [hiff]
    · have hself : partner? s r ≠ some r.key := fun hp =>
        (partner?_symm hs (h.ends r (.head _)) hp).1 rfl
      rw [if_neg hr, List.flatMap_cons, List.count_append, ih (h.take hs),
        count_ends_record hk hself]
      by_cases hside : k = r.key ∨ partner? s r = some k
      · have hopen : k ∈ (r :: rest).map RelationEnd.key ∧ k ∉ done := by
          rcases hside with rfl | hp
          · exact ⟨List.mem_map_of_mem (.head _), hr⟩
          · obtain ⟨hmem, hdone⟩ := h.partner hs hr hp
            exact ⟨.tail _ hmem, hdone⟩
        have hclosed : k ∈ r.key :: (partner? s r).toList ++ done := by
          rcases hside with rfl | hp
          · exact .head _
          · simp [hp]
        rw [if_pos hside, if_neg (fun hand => hand.2 hclosed), if_pos hopen]
      · rw [not_or] at hside
        simp [hside.1, hside.2]

/-- The first declared side of each record is the end that it was made from. -/
theorem firsts_recordsFrom {s : Symbols} {extra : List String} (hs : s.Accepted extra)
    (hn : EntitiesNamed s) {done pre : List (String × String)} {rest : List RelationEnd}
    (h : Pending s done rest)
    (hpre : (relationEnds s).map RelationEnd.key = pre ++ rest.map RelationEnd.key) :
    ∃ firsts : List (String × String), firsts.Sublist (rest.map RelationEnd.key) ∧
      (recordsFrom s done rest).map
        (fun q => ((relationEnds s).map RelationEnd.key).find? q.ends.contains) =
        firsts.map some := by
  induction rest generalizing done pre with
  | nil => exact ⟨[], by simp, by simp [recordsFrom]⟩
  | cons r rest ih =>
    have hpre' : (relationEnds s).map RelationEnd.key =
        (pre ++ [r.key]) ++ rest.map RelationEnd.key := by simp [hpre]
    rw [recordsFrom_cons]
    by_cases hr : r.key ∈ done
    · obtain ⟨firsts, hsub, hmap⟩ := ih (h.skip hs hr) hpre'
      rw [if_pos hr]
      exact ⟨firsts, hsub.cons _, hmap⟩
    · obtain ⟨firsts, hsub, hmap⟩ := ih (h.take hs) hpre'
      refine ⟨r.key :: firsts, hsub.cons_cons _, ?_⟩
      have hnodup := keys_nodup hs
      rw [hpre, List.nodup_append'] at hnodup
      have hbefore : pre.find? (record s r).ends.contains = none := by
        rw [List.find?_eq_none]
        intro k hk hside
        have hnamed := key_named hn (hpre ▸ List.mem_append_left _ hk)
        rw [List.contains_iff_mem, mem_ends_record hnamed] at hside
        refine hnodup.2.2 hk ?_
        rcases hside with rfl | hp
        · exact List.mem_map_of_mem (.head _)
        · exact .tail _ (h.partner hs hr hp).1
      have hself : (record s r).ends.contains r.key = true := by
        rw [List.contains_iff_mem, (ends_record s r).mem_iff]
        exact .head _
      have hfirst : ((relationEnds s).map RelationEnd.key).find? (record s r).ends.contains =
          some r.key := by
        rw [hpre, List.find?_append, hbefore, List.map_cons, List.find?_cons_of_pos hself]
        rfl
      rw [if_neg hr, List.map_cons, hmap, hfirst, List.map_cons]

/-- The relations of a built application are paired. -/
theorem relationsPaired_build {s : Symbols} {extra : List String} (hs : s.Accepted extra)
    (hn : EntitiesNamed s) (name : String) : (build s name).RelationsPaired := by
  constructor
  case sides =>
    refine List.forall_mem_map.mpr fun e he => List.forall_mem_map.mpr fun f hf r hr => ?_
    rw [relation_buildField] at hr
    split at hr
    next hl =>
      cases hr
      obtain ⟨hname, t, -, ht, htname⟩ := leadsTo_name hl
      exact sidesAgree_build hs he hf ht (htname ▸ hl) name
    next => cases hr
  case once =>
    intro k hk
    rw [relationFields_build] at hk
    have hcount := count_recordsFrom hs (key_named hn hk) (pending_relationEnds hs)
    rw [if_pos ⟨hk, by simp⟩] at hcount
    exact hcount
  case ordered =>
    rw [relationFields_build]
    exact firsts_recordsFrom hs hn (pending_relationEnds hs) (List.nil_append _).symm

end Scaffold.Build

namespace Scaffold

open Scaffold.Source Scaffold.Check Scaffold.Model Scaffold.Build

/-- In the application built from an accepted file the relation fields pair up, and every pair has
one record. -/
theorem validate_relationsPaired {f : File} {extra : List String} {c : Checked}
    (h : validate f extra = .ok c) (hn : f.Named) (name : String) :
    (build c.symbols name).RelationsPaired := by
  obtain ⟨hsymbols, -, haccepted⟩ := validate_accepted h
  rw [hsymbols] at haccepted ⊢
  exact relationsPaired_build haccepted (entitiesNamed_of_named hn) name

/-- Posts in threads, each of a user. -/
def answers : List Text.Rune := Text.runes
  "entity User \x7b id: Int primaryKey posts: Post[] \x7d entity Post \x7b id: Int primaryKey
  by: User up: Post @relation(name: \"T\") down: Post[] @relation(name: \"T\") \x7d"

theorem answers_relations : ((parseSource "answers" answers).toOption.bind fun f =>
    (validate f []).toOption.map fun c => (relations c.symbols).map (·.ends)) =
      some [[("User", "posts"), ("Post", "by")], [("Post", "down"), ("Post", "up")]] := by
  rw [answers, Text.runes_ofList]
  decide +kernel

theorem validate_answers : ∃ f c, parseSource "answers" answers = .ok f ∧ validate f [] = .ok c ∧
    f.Named ∧ (build c.symbols "").RelationsPaired := by
  have hok := answers_relations
  cases hf : parseSource "answers" answers with
  | error e => simp [hf, Except.toOption] at hok
  | ok f =>
    cases hc : validate f [] with
    | error ds => simp [hf, hc, Except.toOption] at hok
    | ok c =>
      have hn := parseSource_named hf
      exact ⟨f, c, rfl, hc, hn, validate_relationsPaired hc hn ""⟩

end Scaffold
