import Mathlib.Data.List.Nodup
import Mathlib.Tactic.Common
import Scaffold.Check.Validate

/-! # The blocks that count

A source without diagnostics keeps all its blocks, and no two blocks of one kind share a name. The
same holds of the properties of a block. -/
namespace Scaffold.Check

open Scaffold.Source Scaffold.Model

/-! ## Why a block counts -/

namespace Symbols

theorem objection_entity {s : Symbols} {d : EntityDecl} (h : s.objection (.entity d) = none) :
    isBuiltin d.name = false ∧ s.entity? d.name = none ∧ s.enum? d.name = none := by
  simp only [objection] at h
  split at h
  · cases h
  next hb =>
    split at h
    · cases h
    next hn =>
      split at h
      · cases h
      next hg => exact ⟨by simpa using hb, hn, by simpa using hg⟩

theorem objection_enum {s : Symbols} {d : EnumDecl} (h : s.objection (.enum d) = none) :
    isBuiltin d.name = false ∧ s.enum? d.name = none ∧ s.entity? d.name = none := by
  simp only [objection] at h
  split at h
  · cases h
  next hb =>
    split at h
    · cases h
    next hn =>
      split at h
      · cases h
      next hg => exact ⟨by simpa using hb, hn, by simpa using hg⟩

theorem objection_page {s : Symbols} {d : BlockDecl} (h : s.objection (.page d) = none) :
    s.page? d.name = none := by
  simpa [objection] using h

theorem objection_view {s : Symbols} {d : BlockDecl} (h : s.objection (.view d) = none) :
    s.view? d.name = none := by
  simpa [objection] using h

theorem objection_workflow {s : Symbols} {d : WorkflowDecl}
    (h : s.objection (.workflow d) = none) : s.workflow? d.name = none := by
  simpa [objection] using h

/-! ## Blocks of one kind -/

/-- Blocks are told apart by their names. -/
structure Distinct (s : Symbols) : Prop where
  entities : (s.entities.map (·.name)).Nodup
  enums : (s.enums.map (·.name)).Nodup
  pages : (s.pages.map (·.name)).Nodup
  views : (s.views.map (·.name)).Nodup
  workflows : (s.workflows.map (·.name)).Nodup
  entity_builtin : ∀ e ∈ s.entities, isBuiltin e.name = false
  enum_builtin : ∀ e ∈ s.enums, isBuiltin e.name = false
  apart : ∀ e ∈ s.entities, ∀ g ∈ s.enums, e.name ≠ g.name

theorem distinct_nil : Distinct ⟨[]⟩ := by
  constructor <;> simp [Symbols.entities, Symbols.enums, Symbols.pages, Symbols.views,
    Symbols.workflows]

theorem nodup_snoc {xs : List String} {x : String} (h : xs.Nodup) (hx : x ∉ xs) :
    (xs ++ [x]).Nodup := by
  rw [← List.concat_eq_append]
  exact h.concat hx

/-- One more block keeps the names of a kind apart if its own name, in case it is of that kind,
is not found. -/
theorem nodup_concat {α : Type} {pick : Decl → Option α} {name : α → String} {ds : List Decl}
    {d : Decl} (h : ((ds.filterMap pick).map name).Nodup)
    (hd : ∀ x, pick d = some x → (ds.filterMap pick).find? (name · == name x) = none) :
    (((ds ++ [d]).filterMap pick).map name).Nodup := by
  rw [List.filterMap_append, List.filterMap_cons, List.filterMap_nil]
  cases hp : pick d with
  | none => simpa using h
  | some x =>
    have hne := List.find?_eq_none.mp (hd x hp)
    rw [List.map_append, List.map_singleton]
    exact nodup_snoc h (by simpa using hne)

theorem mem_concat {α : Type} {pick : Decl → Option α} {ds : List Decl} {d : Decl} {x : α}
    (h : x ∈ (ds ++ [d]).filterMap pick) : x ∈ ds.filterMap pick ∨ pick d = some x := by
  simp only [List.filterMap_append, List.mem_append] at h
  exact h.imp id (by simp)

theorem entity?_eq_none {s : Symbols} {name : String} (h : s.entity? name = none) :
    ∀ e ∈ s.entities, e.name ≠ name := by
  simpa [entity?] using h

theorem enum?_eq_none {s : Symbols} {name : String} (h : s.enum? name = none) :
    ∀ e ∈ s.enums, e.name ≠ name := by
  simpa [enum?] using h

/-- A block without objection keeps the names apart. -/
theorem Distinct.concat {s : Symbols} {d : Decl} (h : s.Distinct) (ho : s.objection d = none) :
    Distinct ⟨s.decls ++ [d]⟩ where
  entities := nodup_concat h.entities fun x hx => by
    cases d <;> cases hx
    exact (objection_entity ho).2.1
  enums := nodup_concat h.enums fun x hx => by
    cases d <;> cases hx
    exact (objection_enum ho).2.1
  pages := nodup_concat h.pages fun x hx => by
    cases d <;> cases hx
    exact objection_page ho
  views := nodup_concat h.views fun x hx => by
    cases d <;> cases hx
    exact objection_view ho
  workflows := nodup_concat h.workflows fun x hx => by
    cases d <;> cases hx
    exact objection_workflow ho
  entity_builtin := fun e he => by
    rcases mem_concat he with he | he
    · exact h.entity_builtin e he
    · cases d <;> cases he
      exact (objection_entity ho).1
  enum_builtin := fun e he => by
    rcases mem_concat he with he | he
    · exact h.enum_builtin e he
    · cases d <;> cases he
      exact (objection_enum ho).1
  apart := fun e he g hg => by
    rcases mem_concat he with he' | he' <;> rcases mem_concat hg with hg' | hg'
    · exact h.apart e he' g hg'
    · cases d <;> cases hg'
      exact entity?_eq_none (objection_enum ho).2.2 e he'
    · cases d <;> cases he'
      exact (enum?_eq_none (objection_entity ho).2.2 g hg').symm
    · cases d <;> cases he'
      cases hg'

end Symbols

/-- Without diagnostics every block is kept, and the names stay apart. -/
theorem accept_distinct {s : Symbols} {ds : List Decl} (hs : s.Distinct)
    (h : (accept s ds).2 = []) :
    (accept s ds).1.decls = s.decls ++ ds ∧ (accept s ds).1.Distinct := by
  induction ds generalizing s with
  | nil => simpa [accept] using hs
  | cons d ds ih =>
    unfold accept at h ⊢
    split at h
    next ho =>
      obtain ⟨hd, hs'⟩ := ih (hs.concat ho) h
      exact ⟨by simpa using hd, hs'⟩
    · cases h

theorem collect_distinct {f : File} (h : (collect f).2 = []) :
    (collect f).1 = ⟨f.decls⟩ ∧ (collect f).1.Distinct ∧
      ∀ v ∈ (collect f).1.views, (collect f).1.entity? v.name = none := by
  simp only [collect, List.append_eq_nil_iff] at h
  obtain ⟨hd, hs⟩ := accept_distinct Symbols.distinct_nil h.1
  refine ⟨congrArg Symbols.mk hd, hs, fun v hv => ?_⟩
  have hc := h.2
  simp only [viewClashes, List.map_eq_nil_iff, List.filter_eq_nil_iff] at hc
  exact Option.not_isSome_iff_eq_none.mp (hc v hv)

/-- What holds of the blocks of a source without violations: one clause for each check. -/
structure Symbols.Accepted (s : Symbols) (extra : List String) : Prop where
  distinct : s.Distinct
  view_apart : ∀ v ∈ s.views, s.entity? v.name = none
  entities : ∀ e ∈ s.entities, checkEntity s e = []
  enums : ∀ e ∈ s.enums, checkEnum e = []
  config : checkConfig s = []
  pages : checkPages s (roles s extra) [] s.pages = []
  views : ∀ v ∈ s.views, checkView s v = []
  workflows : ∀ w ∈ s.workflows, checkWorkflow w = []
  names : checkGeneratedNames s = []

/-- A validated source keeps every block, and each check finds nothing. -/
theorem validate_accepted {f : File} {extra : List String} {c : Checked}
    (h : validate f extra = .ok c) :
    c.symbols = ⟨f.decls⟩ ∧ c.roles = roles c.symbols extra ∧ c.symbols.Accepted extra := by
  unfold validate at h
  split at h
  next hv =>
    cases h
    simp only [violations, List.append_eq_nil_iff, List.flatMap_eq_nil_iff] at hv
    obtain ⟨⟨⟨⟨⟨⟨⟨hc, he⟩, hn⟩, hcf⟩, hp⟩, hvw⟩, hw⟩, hg⟩ := hv
    obtain ⟨hs, hd, ha⟩ := collect_distinct hc
    exact ⟨hs, rfl, hd, ha, he, hn, hcf, hp, hvw, hw, hg⟩
  next => cases h

/-! ## Properties -/

/-- Without diagnostics every property is kept, each key once, and only allowed keys occur. -/
theorem acceptProps_accepted {site : Site} {allowed : Option (List String)}
    {seen ps : List Property} (h : (acceptProps site allowed seen ps).2 = []) :
    (acceptProps site allowed seen ps).1 = seen ++ ps ∧
      (∀ keys, allowed = some keys → ∀ p ∈ ps, p.key ∈ keys) ∧
      ((seen.map (·.key)).Nodup → ((seen ++ ps).map (·.key)).Nodup) := by
  induction ps generalizing seen with
  | nil => simp [acceptProps]
  | cons p ps ih =>
    have step (hp : ¬seen.any (·.key == p.key) = true)
        (h : (acceptProps site allowed (seen ++ [p]) ps).2 = []) :
        (acceptProps site allowed (seen ++ [p]) ps).1 = seen ++ p :: ps ∧
          (∀ keys, allowed = some keys → ∀ q ∈ ps, q.key ∈ keys) ∧
          ((seen.map (·.key)).Nodup → ((seen ++ p :: ps).map (·.key)).Nodup) := by
      obtain ⟨h₁, h₂, h₃⟩ := ih h
      rw [List.append_assoc, List.singleton_append] at h₁ h₃
      refine ⟨h₁, h₂, fun hs => h₃ ?_⟩
      rw [List.map_append, List.map_singleton]
      exact Symbols.nodup_snoc hs (by simpa using hp)
    unfold acceptProps at h ⊢
    split at h
    · cases h
    next hp =>
      split at h
      next keys =>
        split at h
        next hk =>
          obtain ⟨h₁, h₂, h₃⟩ := step hp h
          simp only [hp, hk, if_true]
          refine ⟨h₁, fun keys' hkeys => ?_, h₃⟩
          cases hkeys
          exact List.forall_mem_cons.mpr ⟨by simpa using hk, h₂ keys rfl⟩
        · cases h
      next =>
        obtain ⟨h₁, -, h₃⟩ := step hp h
        simp only [hp]
        exact ⟨h₁, nofun, h₃⟩

theorem checkProps_accepted {site : Site} {props : List Property} {allowed : List String}
    (h : (checkProps site props allowed).2 = []) :
    (checkProps site props allowed).1 = props ∧ (∀ p ∈ props, p.key ∈ allowed) ∧
      (props.map (·.key)).Nodup := by
  obtain ⟨h₁, h₂, h₃⟩ := acceptProps_accepted h
  exact ⟨h₁, h₂ allowed rfl, h₃ (by simp)⟩

theorem checkKeys_accepted {site : Site} {props : List Property}
    (h : (checkKeys site props).2 = []) :
    (checkKeys site props).1 = props ∧ (props.map (·.key)).Nodup := by
  obtain ⟨h₁, -, h₃⟩ := acceptProps_accepted h
  exact ⟨h₁, h₃ (by simp)⟩

end Scaffold.Check
