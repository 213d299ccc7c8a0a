import Mathlib.Algebra.BigOperators.Group.List.Basic
import Mathlib.Algebra.GroupWithZero.Nat
import Mathlib.Algebra.Order.BigOperators.Group.List
import Mathlib.Data.List.Perm.Subperm
import Mathlib.Data.String.Basic
import Scaffold.Proofs.Build.Kept
import Scaffold.Proofs.Model.Printed

/-! # What a literal loses

A literal default and a literal input become a value of the model. It has the scalars of the literal
and no null, and every member of an object is one of its members, exactly when no call stands in
the literal and no object in it has a key twice: a call becomes null, and of two members of one key
the first is dropped. The checks rule out calls in the inputs of a step and either fault in a
default that is no JSON, and nothing more. -/
namespace Scaffold

namespace Json

/-! ## Members in the order of their keys -/

/-- The members of an object by key, each key once. -/
def KeysSorted (ms : List (String × Json)) : Prop := ms.Pairwise (·.1 < ·.1)

theorem KeysSorted.insertMember {ms : List (String × Json)} (h : KeysSorted ms) (key : String)
    (value : Json) : KeysSorted (insertMember key value ms) := by
  induction ms with
  | nil => exact List.pairwise_singleton _ _
  | cons n ms ih =>
    obtain ⟨k, v⟩ := n
    obtain ⟨hk, hms⟩ := List.pairwise_cons.mp h
    rw [Json.insertMember]
    split
    next hlt =>
      refine List.pairwise_cons.mpr ⟨List.forall_mem_cons.mpr ⟨hlt, fun m hm => ?_⟩, h⟩
      exact lt_trans hlt (hk m hm)
    split
    next heq => exact List.pairwise_cons.mpr ⟨heq ▸ hk, hms⟩
    next hlt hne =>
      have hgt : k < key := lt_of_le_of_ne (not_lt.mp hlt) (Ne.symm hne)
      refine List.pairwise_cons.mpr ⟨fun m hm => ?_, ih hms⟩
      rcases mem_insertMember hm with rfl | hm
      · exact hgt
      · exact hk m hm

theorem insertMember_subperm (key : String) (value : Json) (ms : List (String × Json)) :
    (insertMember key value ms).Subperm ((key, value) :: ms) := by
  induction ms with
  | nil => exact List.Subperm.refl _
  | cons n ms ih =>
    obtain ⟨k, v⟩ := n
    rw [insertMember]
    split
    · exact List.Subperm.refl _
    split
    · exact (List.subperm_cons _).mpr (List.sublist_cons_self _ _).subperm
    · exact ((List.subperm_cons _).mpr ih).trans (List.Perm.swap _ _ _).subperm

theorem insertMember_perm {key : String} {ms : List (String × Json)} (h : key ∉ ms.map (·.1))
    (value : Json) : (insertMember key value ms).Perm ((key, value) :: ms) := by
  induction ms with
  | nil => exact List.Perm.refl _
  | cons n ms ih =>
    obtain ⟨k, v⟩ := n
    obtain ⟨hne, hms⟩ : key ≠ k ∧ key ∉ ms.map (·.1) := by simpa using h
    rw [insertMember, if_neg hne]
    split
    · exact List.Perm.refl _
    · exact ((ih hms).cons _).trans (List.Perm.swap _ _ _)

/-- What putting members in one by one leads to: the induction is on the members that are left. -/
theorem foldl_insertMember {acc : List (String × Json)} (h : KeysSorted acc)
    (ms : List (String × Json)) :
    KeysSorted (ms.foldl (fun acc m => insertMember m.1 m.2 acc) acc) ∧
    (ms.foldl (fun acc m => insertMember m.1 m.2 acc) acc).Subperm (acc ++ ms) ∧
    (((acc ++ ms).map (·.1)).Nodup →
      (ms.foldl (fun acc m => insertMember m.1 m.2 acc) acc).Perm (acc ++ ms)) := by
  induction ms generalizing acc with
  | nil =>
    rw [List.append_nil]
    exact ⟨h, List.Subperm.refl _, fun _ => List.Perm.refl _⟩
  | cons m ms ih =>
    obtain ⟨hsorted, hsub, hperm⟩ := ih (h.insertMember m.1 m.2)
    have hmove : (m :: acc ++ ms).Perm (acc ++ m :: ms) := List.perm_middle.symm
    refine ⟨hsorted, hsub.trans ?_, fun hn => ?_⟩
    · have hinsert := (List.subperm_append_right ms).mpr (insertMember_subperm m.1 m.2 acc)
      exact hinsert.trans hmove.subperm
    · have hnew : m.1 ∉ acc.map (·.1) := by
        rw [← (hmove.map _).nodup_iff, List.cons_append, List.map_cons, List.nodup_cons] at hn
        exact fun hm => hn.1 (by simp [List.map_append, hm])
      have hput := (insertMember_perm hnew m.2).append_right ms
      refine (hperm ?_).trans (hput.trans hmove)
      rwa [((hput.trans hmove).map _).nodup_iff]

/-- The members of a table are members that were given, and all of them if no key comes twice. -/
theorem sortedMembers_subperm (ms : List (String × Json)) : (sortedMembers ms).Subperm ms :=
  (foldl_insertMember List.Pairwise.nil ms).2.1

theorem sortedMembers_perm {ms : List (String × Json)} (h : (ms.map (·.1)).Nodup) :
    (sortedMembers ms).Perm ms :=
  (foldl_insertMember List.Pairwise.nil ms).2.2 h

theorem nodup_sortedMembers (ms : List (String × Json)) :
    ((sortedMembers ms).map (·.1)).Nodup := by
  rw [List.Nodup, List.pairwise_map]
  exact (foldl_insertMember List.Pairwise.nil ms).1.imp fun hlt => ne_of_lt hlt

/-- A table with as many members as were given has them all, and no key came twice. -/
theorem nodup_of_length_sortedMembers {ms : List (String × Json)}
    (h : ms.length ≤ (sortedMembers ms).length) : (ms.map (·.1)).Nodup := by
  have hperm := (sortedMembers_subperm ms).perm_of_length_le h
  exact (hperm.map _).nodup_iff.mp (nodup_sortedMembers ms)

end Json

/-! ## What a literal holds -/

namespace Source

/-- Induction on a value: what an array, an object or a call is built of comes before it. -/
@[elab_as_elim]
theorem Value.induct {motive : Value → Prop} (string : ∀ text p, motive (.string text p))
    (number : ∀ raw p, motive (.number raw p)) (boolean : ∀ value p, motive (.boolean value p))
    (ident : ∀ path p, motive (.ident path p)) (env : ∀ var p, motive (.env var p))
    (array : ∀ elems p, (∀ v ∈ elems, motive v) → motive (.array elems p))
    (object : ∀ props p, (∀ m ∈ props, motive m.value) → motive (.object props p))
    (call : ∀ name args p, motive (.call name args p)) : ∀ v, motive v :=
  @Value.rec motive (fun vs => ∀ v ∈ vs, motive v) (fun ps => ∀ m ∈ ps, motive m.value)
    (fun m => motive m.value) string number boolean ident array object env
    (fun name args p _ => call name args p)
    (List.forall_mem_nil _) (fun _ _ hv hvs => List.forall_mem_cons.mpr ⟨hv, hvs⟩)
    (List.forall_mem_nil _) (fun _ _ hm hms => List.forall_mem_cons.mpr ⟨hm, hms⟩)
    (fun _ _ _ hv => hv)

mutual

/-- A value with the elements and members in it, at any depth. A call is one value. -/
def Value.held : Value → List Value
  | .array elems p => .array elems p :: valuesHeld elems
  | .object props p => .object props p :: membersHeld props
  | v => [v]

def valuesHeld : List Value → List Value
  | [] => []
  | v :: vs => v.held ++ valuesHeld vs

def membersHeld : List Property → List Value
  | [] => []
  | ⟨_, _, v⟩ :: ps => v.held ++ membersHeld ps

end

theorem valuesHeld_eq (vs : List Value) : valuesHeld vs = vs.flatMap Value.held := by
  induction vs with
  | nil => rfl
  | cons v vs ih => exact congrArg (v.held ++ ·) ih

theorem membersHeld_eq (ps : List Property) : membersHeld ps = ps.flatMap (·.value.held) := by
  induction ps with
  | nil => rfl
  | cons p ps ih => exact congrArg (p.value.held ++ ·) ih

theorem Value.held_array (elems : List Value) (p : Pos) :
    (Value.array elems p).held = .array elems p :: elems.flatMap Value.held :=
  congrArg (_ :: ·) (valuesHeld_eq elems)

theorem Value.held_object (props : List Property) (p : Pos) :
    (Value.object props p).held = .object props p :: props.flatMap (·.value.held) :=
  congrArg (_ :: ·) (membersHeld_eq props)

def Value.isCall : Value → Bool
  | .call .. => true
  | _ => false

def Value.isScalar : Value → Bool
  | .array .. | .object .. | .call .. => false
  | _ => true

/-- The keys of an object. -/
def Value.keys : Value → List String
  | .object props _ => props.map (·.key)
  | _ => []

/-- Whether no call stands in a literal. -/
def Value.callFree (v : Value) : Bool := v.held.all (!·.isCall)

/-- Whether no object in a literal has a key twice. -/
def Value.keysApart (v : Value) : Bool := v.held.all fun w => decide w.keys.Nodup

/-- What the values in a literal come to, each counted by itself. -/
def Value.total (count : Value → Nat) (v : Value) : Nat := (v.held.map count).sum

def Value.calls (v : Value) : Nat := v.total (·.isCall.toNat)

/-- How many scalars a literal holds. -/
def Value.leaves (v : Value) : Nat := v.total (·.isScalar.toNat)

/-- How many members the objects in a literal have. -/
def Value.entries (v : Value) : Nat := v.total (·.keys.length)

theorem Value.total_array (count : Value → Nat) (elems : List Value) (p : Pos) :
    (Value.array elems p).total count =
      count (.array elems p) + (elems.map (·.total count)).sum := by
  simp [Value.total, Value.held_array, List.flatMap_def, List.sum_flatten, Function.comp_def]

theorem Value.total_object (count : Value → Nat) (props : List Property) (p : Pos) :
    (Value.object props p).total count =
      count (.object props p) + (props.map (·.value.total count)).sum := by
  simp [Value.total, Value.held_object, List.flatMap_def, List.sum_flatten, Function.comp_def]

theorem Value.keysApart_array {elems : List Value} {p : Pos} :
    (Value.array elems p).keysApart = true ↔ ∀ v ∈ elems, v.keysApart = true := by
  simp [Value.keysApart, Value.held_array, Value.keys]

theorem Value.keysApart_object {props : List Property} {p : Pos} :
    (Value.object props p).keysApart = true ↔
      (props.map (·.key)).Nodup ∧ ∀ m ∈ props, m.value.keysApart = true := by
  simp [Value.keysApart, Value.held_object, Value.keys]
  grind

theorem Value.callFree_array {elems : List Value} {p : Pos} :
    (Value.array elems p).callFree = true ↔ ∀ v ∈ elems, v.callFree = true := by
  simp [Value.callFree, Value.held_array, Value.isCall]

theorem Value.callFree_object {props : List Property} {p : Pos} :
    (Value.object props p).callFree = true ↔ ∀ m ∈ props, m.value.callFree = true := by
  simp [Value.callFree, Value.held_object, Value.isCall]

/-- No call is as many as none. -/
theorem Value.callFree_iff {v : Value} : v.callFree = true ↔ v.calls = 0 := by
  simp [Value.callFree, Value.calls, Value.total, List.sum_eq_zero_iff]

end Source

namespace Json

mutual

/-- A value with the elements and members in it, at any depth. -/
def held : Json → List Json
  | array elems => array elems :: elemsHeld elems
  | object members => object members :: membersHeld members
  | j => [j]

def elemsHeld : List Json → List Json
  | [] => []
  | x :: xs => held x ++ elemsHeld xs

def membersHeld : List (String × Json) → List Json
  | [] => []
  | (_, x) :: xs => held x ++ membersHeld xs

end

theorem elemsHeld_eq (xs : List Json) : elemsHeld xs = xs.flatMap held := by
  induction xs with
  | nil => rfl
  | cons x xs ih => exact congrArg (held x ++ ·) ih

theorem membersHeld_eq (ms : List (String × Json)) : membersHeld ms = ms.flatMap (held ·.2) := by
  induction ms with
  | nil => rfl
  | cons m ms ih => exact congrArg (held m.2 ++ ·) ih

theorem held_array (elems : List Json) :
    (array elems).held = array elems :: elems.flatMap held :=
  congrArg (_ :: ·) (elemsHeld_eq elems)

theorem held_object (ms : List (String × Json)) :
    (object ms).held = object ms :: ms.flatMap (held ·.2) :=
  congrArg (_ :: ·) (membersHeld_eq ms)

def isNull : Json → Bool
  | null => true
  | _ => false

def isScalar : Json → Bool
  | bool _ | number _ | string _ => true
  | _ => false

def keys : Json → List String
  | object members => members.map (·.1)
  | _ => []

def total (count : Json → Nat) (j : Json) : Nat := (j.held.map count).sum

def nulls (j : Json) : Nat := j.total (·.isNull.toNat)

def leaves (j : Json) : Nat := j.total (·.isScalar.toNat)

def entries (j : Json) : Nat := j.total (·.keys.length)

theorem total_array (count : Json → Nat) (elems : List Json) :
    (array elems).total count = count (array elems) + (elems.map (·.total count)).sum := by
  simp [total, held_array, List.flatMap_def, List.sum_flatten, Function.comp_def]

theorem total_object (count : Json → Nat) (ms : List (String × Json)) :
    (object ms).total count = count (object ms) + (ms.map (·.2.total count)).sum := by
  simp [total, held_object, List.flatMap_def, List.sum_flatten, Function.comp_def]

end Json

/-! ## What is kept of it -/

namespace Build

open Scaffold.Source
open Scaffold.Json (sortedMembers sortedMembers_perm sortedMembers_subperm
  nodup_of_length_sortedMembers)

theorem literalValues_eq (vs : List Value) : literalValues vs = vs.map literalValue := by
  induction vs with
  | nil => rfl
  | cons v vs ih => exact congrArg (literalValue v :: ·) ih

theorem literalMembers_eq (ps : List Property) :
    literalMembers ps = ps.map fun p => (p.key, literalValue p.value) := by
  induction ps with
  | nil => rfl
  | cons p ps ih => exact congrArg ((p.key, literalValue p.value) :: ·) ih

theorem literalValue_array (elems : List Value) (p : Pos) :
    literalValue (.array elems p) = .array (literalValues elems) := rfl

theorem literalValue_object (props : List Property) (p : Pos) :
    literalValue (.object props p) = .object (sortedMembers (literalMembers props)) := rfl

theorem keys_literalMembers (ps : List Property) :
    (literalMembers ps).map (·.1) = ps.map (·.key) := by
  rw [literalMembers_eq, List.map_map]
  rfl

/-- An object whose keys are apart keeps its members, in another order perhaps. -/
theorem sortedMembers_literal {ps : List Property} (h : (ps.map (·.key)).Nodup) :
    (sortedMembers (literalMembers ps)).Perm (ps.map fun p => (p.key, literalValue p.value)) := by
  rw [← literalMembers_eq]
  exact sortedMembers_perm (keys_literalMembers ps ▸ h)

/-- Where keys are apart nothing is dropped, so whatever is counted of the values in a literal
comes to the same of what it became. -/
theorem total_literalValue {count : Value → Nat} {count' : Json → Nat}
    (hcount : ∀ w, w.keys.Nodup → count' (literalValue w) = count w) {v : Value}
    (h : v.keysApart = true) : (literalValue v).total count' = v.total count := by
  induction v using Value.induct with
  | array elems p ih =>
    rw [Value.keysApart_array] at h
    have helems : (literalValues elems).map (·.total count') = elems.map (·.total count) := by
      rw [literalValues_eq, List.map_map]
      exact List.map_congr_left fun v hv => ih v hv (h v hv)
    rw [Value.total_array, literalValue_array, Json.total_array, helems]
    exact congrArg (· + _) (hcount (.array elems p) List.nodup_nil)
  | object props p ih =>
    obtain ⟨hkeys, h⟩ := Value.keysApart_object.mp h
    have hmembers : (props.map fun p => (p.key, literalValue p.value)).map (·.2.total count') =
        props.map (·.value.total count) := by
      rw [List.map_map]
      exact List.map_congr_left fun m hm => ih m hm (h m hm)
    rw [Value.total_object, literalValue_object, Json.total_object,
      ((sortedMembers_literal hkeys).map _).sum_eq, hmembers]
    exact congrArg (· + _) (hcount (.object props p) hkeys)
  | _ => exact congrArg (· + 0) (hcount _ List.nodup_nil)

theorem sum_sortedMembers_le (f : String × Json → Nat) (ms : List (String × Json)) :
    ((sortedMembers ms).map f).sum ≤ (ms.map f).sum := by
  obtain ⟨ns, hperm, hsub⟩ := sortedMembers_subperm ms
  rw [← (hperm.map f).sum_eq]
  exact (hsub.map f).sum_le_sum fun _ _ => Nat.zero_le _

/-- Members may be dropped, but nothing comes from nowhere. -/
theorem total_literalValue_le {count : Value → Nat} {count' : Json → Nat}
    (hcount : ∀ w, count' (literalValue w) ≤ count w) (v : Value) :
    (literalValue v).total count' ≤ v.total count := by
  induction v using Value.induct with
  | array elems p ih =>
    have helems : ((literalValues elems).map (·.total count')).sum ≤
        (elems.map (·.total count)).sum := by
      rw [literalValues_eq, List.map_map]
      exact List.sum_le_sum ih
    rw [Value.total_array, literalValue_array, Json.total_array]
    exact add_le_add (hcount (.array elems p)) helems
  | object props p ih =>
    have hmembers : ((literalMembers props).map (·.2.total count')).sum ≤
        (props.map (·.value.total count)).sum := by
      rw [literalMembers_eq, List.map_map]
      exact List.sum_le_sum ih
    rw [Value.total_object, literalValue_object, Json.total_object]
    exact add_le_add (hcount (.object props p)) ((sum_sortedMembers_le _ _).trans hmembers)
  | _ => exact Nat.add_le_add_right (hcount _) 0

theorem length_keys_le (w : Value) : (literalValue w).keys.length ≤ w.keys.length := by
  cases w with
  | object props p =>
    have hfewer := (sortedMembers_subperm (literalMembers props)).length_le
    rw [literalMembers_eq, List.length_map] at hfewer
    simpa [literalValue_object, Json.keys, Value.keys, literalMembers_eq] using hfewer
  | _ => exact le_of_eq rfl

/-- A list of counts that stay below others is nowhere below if the sum is not. -/
theorem eq_of_sum_le {α : Type} {xs : List α} {f g : α → Nat} (hle : ∀ x ∈ xs, f x ≤ g x)
    (hsum : (xs.map g).sum ≤ (xs.map f).sum) : ∀ x ∈ xs, f x = g x := by
  intro x hx
  by_contra hne
  exact absurd hsum (not_le.mpr
    (List.sum_lt_sum f g hle ⟨x, hx, lt_of_le_of_ne (hle x hx) hne⟩))

/-- If no member is lost, no key came twice. -/
theorem keysApart_of_entries {v : Value} (h : v.entries ≤ (literalValue v).entries) :
    v.keysApart = true := by
  have hle (w : Value) : (literalValue w).entries ≤ w.entries :=
    total_literalValue_le length_keys_le w
  induction v using Value.induct with
  | array elems p ih =>
    simp only [Value.entries, Json.entries, Value.total_array, literalValue_array,
      Json.total_array, literalValues_eq, List.map_map] at h
    have hall := eq_of_sum_le (fun w _ => hle w) (Nat.le_of_add_le_add_left h)
    exact Value.keysApart_array.mpr fun w hw => ih w hw (hall w hw).ge
  | object props p ih =>
    have hmade : ((literalMembers props).map (·.2.entries)).sum =
        (props.map fun m => (literalValue m.value).entries).sum := by
      rw [literalMembers_eq, List.map_map]
      rfl
    have hbelow : (props.map fun m => (literalValue m.value).entries).sum ≤
        (props.map (·.value.entries)).sum := List.sum_le_sum fun m _ => hle m.value
    have hsorted := sum_sortedMembers_le (·.2.entries) (literalMembers props)
    have hkeys := length_keys_le (.object props p)
    have hsum : (Value.object props p).keys.length + (props.map (·.value.entries)).sum ≤
        (literalValue (.object props p)).keys.length +
          ((sortedMembers (literalMembers props)).map (·.2.entries)).sum := by
      rwa [Value.entries, Value.total_object, Json.entries, literalValue_object,
        Json.total_object] at h
    refine Value.keysApart_object.mpr ⟨?_, fun m hm => ?_⟩
    · have hlength : (literalMembers props).length ≤
          (sortedMembers (literalMembers props)).length := by
        have hmany : (Value.object props p).keys.length ≤
            (literalValue (.object props p)).keys.length := by omega
        simpa [literalValue_object, Json.keys, Value.keys, literalMembers_eq] using hmany
      rw [← keys_literalMembers]
      exact nodup_of_length_sortedMembers hlength
    · have hsums : (props.map (·.value.entries)).sum ≤
          (props.map fun m => (literalValue m.value).entries).sum := by omega
      have hall := eq_of_sum_le (fun m _ => hle m.value) hsums
      exact ih m hm (hall m hm).ge
  | _ => rfl

/-- Whether a value has no null, and the scalars and the members of a literal: nothing of the
literal is lost. -/
structure Conserves (v : Value) (j : Json) : Prop where
  nulls : j.nulls = 0
  leaves : j.leaves = v.leaves
  entries : j.entries = v.entries

/-- Only a call becomes null. -/
theorem nulls_literalValue {v : Value} (h : v.callFree = true) : (literalValue v).nulls = 0 := by
  have hle : (literalValue v).nulls ≤ v.calls :=
    total_literalValue_le (fun w => by cases w <;> exact le_of_eq rfl) v
  exact Nat.eq_zero_of_le_zero (hle.trans (Value.callFree_iff.mp h).le)

theorem conserves_iff {v : Value} :
    Conserves v (literalValue v) ↔ v.callFree = true ∧ v.keysApart = true := by
  have hnulls (h : v.keysApart = true) : (literalValue v).nulls = v.calls :=
    total_literalValue (fun w _ => by cases w <;> rfl) h
  constructor
  · intro h
    have hkeys := keysApart_of_entries h.entries.ge
    exact ⟨Value.callFree_iff.mpr ((hnulls hkeys).symm.trans h.nulls), hkeys⟩
  · rintro ⟨hcalls, hkeys⟩
    constructor
    case nulls => exact (hnulls hkeys).trans (Value.callFree_iff.mp hcalls)
    case leaves => exact total_literalValue (fun w _ => by cases w <;> rfl) hkeys
    case entries =>
      refine total_literalValue (fun w hw => ?_) hkeys
      cases w with
      | object props p =>
        rw [literalValue_object, Json.keys, List.length_map,
          (sortedMembers_literal hw).length_eq, List.length_map, Value.keys, List.length_map]
      | _ => rfl

end Build

/-! ## What the checks rule out -/

namespace Check

open Scaffold.Source Scaffold.Model

theorem checkElems_eq (site : Site) (action key : String) (vs : List Value) :
    checkElems site action key vs = vs.flatMap (checkInput site action key) := by
  induction vs with
  | nil => rfl
  | cons v vs ih => rw [checkElems, ih, List.flatMap_cons]

theorem checkMembers_eq (site : Site) (action key : String) (ps : List Property) :
    checkMembers site action key ps =
      ps.flatMap fun p => checkInput site action (key ++ "." ++ p.key) p.value := by
  induction ps with
  | nil => rfl
  | cons p ps ih => rw [checkMembers, ih, List.flatMap_cons]

/-- An input of a step holds no call, at any depth. -/
theorem checkInput_accepted {site : Site} {action key : String} {v : Value}
    (h : checkInput site action key v = []) : v.callFree = true := by
  induction v using Value.induct generalizing key with
  | array elems p ih =>
    rw [checkInput, checkElems_eq, List.flatMap_eq_nil_iff] at h
    exact Value.callFree_array.mpr fun v hv => ih v hv (h v hv)
  | object props p ih =>
    rw [checkInput, checkMembers_eq, List.flatMap_eq_nil_iff] at h
    exact Value.callFree_object.mpr fun m hm => ih m hm (h m hm)
  | call name args p => simp [checkInput] at h
  | _ => rfl

theorem checkWorkflow_inputs {w : WorkflowDecl} (h : checkWorkflow w = []) {st : StepDecl}
    (hst : st ∈ w.steps) {p : Property} (hp : p ∈ st.inputs) : p.value.callFree = true := by
  simp only [checkWorkflow, List.append_eq_nil_iff, List.flatMap_eq_nil_iff] at h
  have hstep := h.2 st hst
  simp only [checkStep, List.append_eq_nil_iff, List.flatMap_eq_nil_iff] at hstep
  exact checkInput_accepted (hstep.2 p hp)

theorem checkFields_each {s : Symbols} {site : Site} {e : EntityDecl} {seen fs : List FieldDecl}
    (h : checkFields s site e seen fs = []) : ∀ f ∈ fs, checkField s site f = [] := by
  induction fs generalizing seen with
  | nil => exact List.forall_mem_nil _
  | cons f fs ih =>
    simp only [checkFields, List.append_eq_nil_iff] at h
    exact List.forall_mem_cons.mpr ⟨h.1.2, ih h.2⟩

/-- A field with a default is not computed, so its default is checked. -/
theorem checkField_default {s : Symbols} {site : Site} {f : FieldDecl}
    (h : checkField s site f = []) {t : FieldType} (ht : s.fieldType? f.type = some t) {v : Value}
    (hv : f.default = some v) : checkDefault s site f t v = [] := by
  simp only [checkField, ht, hv, List.append_eq_nil_iff] at h
  obtain ⟨⟨-, hattributes⟩, hdefault⟩ := h
  cases ha : attribute? f "virtual" with
  | none => simpa [ha] using hdefault
  | some a =>
    have hvirtual := checkAttributes_virtual hattributes (by simp) ha
    simp only [checkVirtual, List.append_eq_nil_iff] at hvirtual
    obtain ⟨-, hfrom⟩ := hvirtual
    split at hfrom <;> simp [hv] at hfrom

/-- A default is the call of a function, or a scalar, or stands at a field of JSON. -/
theorem checkDefault_accepted {s : Symbols} {site : Site} {f : FieldDecl} {t : FieldType}
    {v : Value} (h : checkDefault s site f t v = []) :
    v.isCall = true ∨ v.isScalar = true ∨ t.kind = .json := by
  have hfits (hcall : v.isCall = false) : literalFits s t v = true := by
    by_contra hne
    cases v with
    | call name args p => cases hcall
    | _ => simp [checkDefault, hne] at h
  cases v with
  | call name args p => exact .inl rfl
  | array elems p | object props p =>
    have hfits := hfits rfl
    refine .inr (.inr ?_)
    cases hk : t.kind <;> simp [literalFits, hk, nameOf?] at hfits
    rfl
  | _ => exact .inr (.inl rfl)

end Check

/-! ## The literals of an application -/

namespace Build

open Scaffold.Source Scaffold.Check Scaffold.Model

/-- What a literal became, all of it exactly when it holds no call and no object with a key
twice. -/
structure LiteralKept (v : Value) (j : Json) : Prop where
  value : j = literalValue v
  whole : Conserves v j ↔ v.callFree = true ∧ v.keysApart = true

/-- A default of a field: the call of a function, or a literal; only one of JSON can lose
something. -/
inductive DefaultKept (kind : TypeKind) : Value → Option Default → Prop
  | function (name : String) (args : List Value) (p : Pos) :
    DefaultKept kind (.call name args p) (some (.function name))
  | literal (v : Value) (j : Json) (plain : v.isCall = false) (kept : LiteralKept v j)
      (whole : kind ≠ .json → Conserves v j) : DefaultKept kind v (some (.literal j))

/-- An input of a step: what it refers to, or a literal, in which there is no null. -/
inductive InputKept : Value → InputValue → Prop
  | trigger (path : List String) (p : Pos) :
    InputKept (.ident ("trigger" :: path) p) (.trigger path)
  | env (var : String) (p : Pos) : InputKept (.env var p) (.env var)
  | literal (v : Value) (j : Json) (kept : LiteralKept v j) (callFree : v.callFree = true)
      (nulls : j.nulls = 0) : InputKept v (.literal j)

/-- The defaults and inputs of an application, each beside the value it was built of. -/
structure LiteralsKept (s : Symbols) (a : Application) : Prop where
  defaults : List.Forall₂ (fun e x => List.Forall₂ (fun f y => ∀ v, f.default = some v →
    DefaultKept y.type.kind v y.default) e.fields x.fields) s.entities a.entities
  inputs : List.Forall₂ (fun w x => List.Forall₂ (fun st y => List.Forall₂ (fun p q =>
    InputKept p.value q.value) st.inputs y.inputs) w.steps x.steps) s.workflows a.workflows

theorem literalKept (v : Value) : LiteralKept v (literalValue v) := ⟨rfl, conserves_iff⟩

theorem conserves_scalar {v : Value} (h : v.isScalar = true) : Conserves v (literalValue v) := by
  cases v <;> cases h <;> exact conserves_iff.mpr ⟨rfl, rfl⟩

theorem defaultKept_build {s : Symbols} {e : EntityDecl} (h : checkEntity s e = [])
    {f : FieldDecl} (hf : f ∈ e.fields) {v : Value} (hv : f.default = some v) :
    DefaultKept (buildField s e f).type.kind v (buildField s e f).default := by
  have he := checkEntity_accepted h
  obtain ⟨t, ht⟩ := he.field f hf
  have htype : (buildField s e f).type = t := by simp [buildField, ht.type]
  rw [(fieldKept_build he hf).default, hv, htype, Option.map_some]
  simp only [checkEntity, List.append_eq_nil_iff] at h
  have hdefault := checkField_default (checkFields_each h.1.1 f hf) ht.type hv
  cases hcall : v.isCall with
  | true =>
    cases v <;> cases hcall
    exact .function ..
  | false =>
    have hbuilt : buildDefault v = .literal (literalValue v) := by
      cases v <;> first | rfl | cases hcall
    rw [hbuilt]
    refine .literal v _ hcall (literalKept v) fun hjson => conserves_scalar ?_
    have hscalar := checkDefault_accepted hdefault
    simpa [hcall, hjson] using hscalar

theorem inputKept_build {p : Property} (h : p.value.callFree = true) :
    InputKept p.value (buildInput p).value := by
  unfold buildInput
  split
  next path at_ hv => exact hv ▸ .trigger path at_
  next var at_ hv => exact hv ▸ .env var at_
  next => exact .literal _ _ (literalKept _) h (nulls_literalValue h)

theorem literalsKept_build {s : Symbols} {extra : List String} (h : s.Accepted extra)
    (name : String) : LiteralsKept s (build s name) where
  defaults := forall₂_map fun e he => forall₂_map fun _ hf _ hv =>
    defaultKept_build (h.entities e he) hf hv
  inputs := forall₂_map fun w hw => forall₂_map fun _ hst => forall₂_map fun _ hp =>
    inputKept_build (checkWorkflow_inputs (h.workflows w hw) hst hp)

end Build

open Scaffold.Source Scaffold.Check Scaffold.Model Scaffold.Build

/-- Each literal of an accepted source becomes a value with no null, with its scalars and with the
members of its objects, exactly when it holds no call and no object with a key twice. A default of
a field that is no JSON is always whole, and an input never gets a null. -/
theorem compile_literals {path : String} {source : List Text.Rune} {opts : CompileOptions}
    {app : Application} (h : compile path source opts = .ok app) :
    ∃ f, parseSource path source = .ok f ∧ LiteralsKept ⟨f.decls⟩ app := by
  obtain ⟨f, hf, -, haccepted, rfl⟩ := compile_ok h
  exact ⟨f, hf, literalsKept_build haccepted opts.name⟩

/-- Settings with a default that holds all sorts of values, and a step with an input of its own. -/
def settings : List Text.Rune := Text.runes
  "entity Setting \x7b id: Int primaryKey label: String default(\"new\")
  flags: JSON default(\x7b beta: true tags: [\"a\", 2] \x7d) created: DateTime default(now()) \x7d
  workflow Greet \x7b trigger: \"setting.new\"
  step mail \x7b to: trigger.email data: \x7b rows: [[1], []] \x7d \x7d \x7d"

theorem settings_literals : ∃ app f, compile "" settings ⟨[], ""⟩ = .ok app ∧
    app.literals.map (·.leaves) = [1, 3, 1] ∧ parseSource "" settings = .ok f ∧
    LiteralsKept ⟨f.decls⟩ app := by
  have hok : (compile "" settings ⟨[], ""⟩).toOption.any (fun app =>
      app.literals.map (·.leaves) = [1, 3, 1]) = true := by
    rw [settings, Text.runes_ofList]
    decide +kernel
  obtain ⟨app, happ, hleaves⟩ := exists_ok_of_any hok
  obtain ⟨f, hf, hkept⟩ := compile_literals happ
  exact ⟨app, f, happ, of_decide_eq_true hleaves, hf, hkept⟩

/-- A default with a call among its elements, and an input with a key that comes twice. -/
def lossy : List Text.Rune := Text.runes
  "entity Setting \x7b id: Int primaryKey flags: JSON default([now(), 1]) \x7d
  workflow Greet \x7b trigger: \"setting.new\" step mail \x7b data: \x7b to: 1 to: 2 \x7d \x7d \x7d"

/-- Both are accepted: the call is a null of the model, and of two numbers one is left. -/
theorem lossy_literals : ∃ app f, compile "" lossy ⟨[], ""⟩ = .ok app ∧
    parseSource "" lossy = .ok f ∧
    (f.decls.flatMap (·.values)).map (·.leaves) = [1, 1, 2] ∧
    app.literals.map (·.leaves) = [1, 1] ∧ app.literals.map (·.nulls) = [1, 0] := by
  have hok : (compile "" lossy ⟨[], ""⟩).toOption.any (fun app =>
      app.literals.map (·.leaves) = [1, 1] ∧ app.literals.map (·.nulls) = [1, 0]) = true := by
    rw [lossy, Text.runes_ofList]
    decide +kernel
  have hread : (parseSource "" lossy).toOption.any (fun f =>
      (f.decls.flatMap (·.values)).map (·.leaves) = [1, 1, 2]) = true := by
    rw [lossy, Text.runes_ofList]
    decide +kernel
  obtain ⟨app, happ, hlost⟩ := exists_ok_of_any hok
  obtain ⟨f, hf, hsource⟩ := exists_ok_of_any hread
  exact ⟨app, f, happ, hf, of_decide_eq_true hsource, of_decide_eq_true hlost⟩

end Scaffold
