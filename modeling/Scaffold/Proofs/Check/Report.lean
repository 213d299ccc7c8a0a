import Mathlib.Data.List.Pairwise
import Mathlib.Data.List.Sort
import Scaffold.Check.Validate
import Scaffold.Proofs.Lists
import Scaffold.Proofs.Source.Extent
import Scaffold.Source.Load

/-! # Reports in any order of checking

A report is sorted by file and offset, and what stands at one place stays in the order in which it
was found. The properties of a page are read from tokens of their own, so what is found in one never
stands where something is found in another. Hence the order in which the lists of fields of a page
are checked leaves no trace in the report. -/
namespace Scaffold.Check

open Scaffold.Source Scaffold.Model

/-! ## Stable sorting -/

section Sorting

variable {α : Type} {le : α → α → Bool}

/-- Two entries that are told apart can be put into a list in either order. -/
theorem orderedInsert_comm (trans : ∀ a b c, le a b = true → le b c = true → le a c = true)
    {x y : α} (hxy : le x y = true) (hyx : le y x = false) (l : List α) :
    (l.orderedInsert (le · ·) x).orderedInsert (le · ·) y =
      (l.orderedInsert (le · ·) y).orderedInsert (le · ·) x := by
  induction l with
  | nil => simp [hxy, hyx]
  | cons z l ih =>
    by_cases hyz : le y z = true
    · have hxz := trans x y z hxy hyz
      simp [hxy, hyx, hyz, hxz]
    · by_cases hxz : le x z = true
      · simp [hyx, hyz, hxz]
      · simp [hyz, hxz, ih]

variable (trans : ∀ a b c, le a b = true → le b c = true → le a c = true)
  (total : ∀ a b, (le a b || le b a) = true)

include trans total

/-- A stable sort puts each entry before those behind it that it does not come after. -/
theorem mergeSort_cons_eq (a : α) (l : List α) :
    (a :: l).mergeSort le = (l.mergeSort le).orderedInsert (le · ·) a := by
  obtain ⟨front, back, hcons, hl, hfront⟩ := List.mergeSort_cons trans total a l
  have hsorted := List.pairwise_mergeSort trans total (a :: l)
  rw [hcons, List.pairwise_append, List.pairwise_cons] at hsorted
  obtain ⟨-, ⟨hback, -⟩, -⟩ := hsorted
  rw [hcons, hl]
  clear hcons hl
  induction front with
  | nil =>
    cases back with
    | nil => rfl
    | cons b back => simp [hback b (.head _)]
  | cons b front ih =>
    obtain ⟨hb, hfront⟩ := List.forall_mem_cons.mp hfront
    have hb : le a b = false := by simpa using hb
    simp [hb, ih hfront]

theorem mergeSort_append_left {l l' : List α} (h : l.mergeSort le = l'.mergeSort le)
    (front : List α) : (front ++ l).mergeSort le = (front ++ l').mergeSort le := by
  induction front with
  | nil => exact h
  | cons a front ih =>
    rw [List.cons_append, List.cons_append, mergeSort_cons_eq trans total,
      mergeSort_cons_eq trans total, ih]

theorem mergeSort_cons_append {x : α} {ys : List α}
    (h : ∀ y ∈ ys, ¬ (le x y = true ∧ le y x = true)) (rest : List α) :
    (x :: (ys ++ rest)).mergeSort le = (ys ++ x :: rest).mergeSort le := by
  induction ys with
  | nil => rfl
  | cons y ys ih =>
    obtain ⟨hy, hys⟩ := List.forall_mem_cons.mp h
    have hsplit := total x y
    rw [List.cons_append, List.cons_append, mergeSort_cons_eq trans total y (ys ++ x :: rest),
      ← ih hys, mergeSort_cons_eq trans total x, mergeSort_cons_eq trans total y,
      mergeSort_cons_eq trans total x]
    rcases hxy : le x y with _ | _
    · have hyx : le y x = true := by simpa [hxy] using hsplit
      exact orderedInsert_comm trans hyx hxy _
    · have hyx : le y x = false := by simpa [hxy] using hy
      exact (orderedInsert_comm trans hxy hyx _).symm

/-- Two runs of entries none of which ties with one of the other run can change places before a
stable sort. -/
theorem mergeSort_append_comm {xs ys : List α}
    (h : ∀ x ∈ xs, ∀ y ∈ ys, ¬ (le x y = true ∧ le y x = true)) (rest : List α) :
    (xs ++ (ys ++ rest)).mergeSort le = (ys ++ (xs ++ rest)).mergeSort le := by
  induction xs with
  | nil => rfl
  | cons x xs ih =>
    obtain ⟨hx, hxs⟩ := List.forall_mem_cons.mp h
    rw [List.cons_append, List.cons_append, mergeSort_cons_eq trans total, ih hxs,
      ← mergeSort_cons_eq trans total, mergeSort_cons_append trans total hx]

end Sorting

/-! ## The order of a report -/

namespace Diagnostic

theorem before_iff {a b : Diagnostic} : before a b = true ↔ a.site.file < b.site.file ∨
    a.site.file = b.site.file ∧ a.pos.offset ≤ b.pos.offset := by
  unfold before
  split
  next h => simp [h]
  next h => simp [h]

theorem before_trans (a b c : Diagnostic) (hab : before a b = true) (hbc : before b c = true) :
    before a c = true := by
  rw [before_iff] at hab hbc ⊢
  rcases hab with hab | ⟨hab, hab'⟩ <;> rcases hbc with hbc | ⟨hbc, hbc'⟩
  · exact .inl (String.lt_trans hab hbc)
  · exact .inl (hbc ▸ hab)
  · exact .inl (hab ▸ hbc)
  · exact .inr ⟨hab.trans hbc, hab'.trans hbc'⟩

theorem before_total (a b : Diagnostic) : (before a b || before b a) = true := by
  rw [Bool.or_eq_true, before_iff, before_iff]
  by_cases h : a.site.file = b.site.file
  · rcases Nat.le_total a.pos.offset b.pos.offset with hle | hle
    · exact .inl (.inr ⟨h, hle⟩)
    · exact .inr (.inr ⟨h.symm, hle⟩)
  · rcases String.le_total a.site.file b.site.file with hle | hle
    · exact .inl (.inl (String.not_le.mp fun hge => h (String.le_antisymm hle hge)))
    · exact .inr (.inl (String.not_le.mp fun hge => h (String.le_antisymm hge hle)))

/-- Diagnostics that tie stand at one offset. -/
theorem offset_eq_of_ties {a b : Diagnostic} (h : before a b = true ∧ before b a = true) :
    a.pos.offset = b.pos.offset := by
  obtain ⟨hab, hba⟩ := h
  rw [before_iff] at hab hba
  rcases hab with hab | ⟨hab, hab'⟩ <;> rcases hba with hba | ⟨hba, hba'⟩
  · exact absurd hba (String.lt_asymm hab)
  · exact absurd (hba ▸ hab) (String.lt_irrefl _)
  · exact absurd (hab ▸ hba) (String.lt_irrefl _)
  · exact Nat.le_antisymm hab' hba'

end Diagnostic

/-! ## Checking in any order -/

/-- A list of fields that a page may have: its key, the kind of page that it is for, and whether its
fields are edited. -/
structure FieldList where
  key : String
  only : PageKind
  editable : Bool
  deriving DecidableEq

/-- The lists of fields that a page may have. -/
def fieldLists : List FieldList := [⟨"columns", .table, false⟩, ⟨"fields", .form, true⟩]

/-- `checkPage` with the lists of fields checked in an order that is given. -/
def checkPageIn (order : List FieldList) (s : Symbols) (known : List String)
    (routes : List (String × String)) (p : BlockDecl) :
    List (String × String) × List Diagnostic :=
  let site : Site := ⟨p.file, .page, p.name⟩
  let (props, ds) := checkProps site p.props pageKeys
  let (kind, typeDs) := checkPageType site p props
  let (entity, entityDs) := checkPageEntity s site p props kind
  let componentDs := if kind = some .custom then checkComponent site p props else []
  let (route, routeDs) := checkRoute site p props
  let (routes, takenDs) : List (String × String) × List Diagnostic :=
    match routes.lookup route with
    | some other => (routes, [⟨site, p.pos, .pageRouteTaken p.name route other⟩])
    | none => (routes ++ [(route, p.name)], [])
  (routes,
    ds ++ typeDs ++ entityDs ++ componentDs ++ routeDs ++ takenDs ++
      checkTitle site p props ++
      ((lookup props "permissions").map (checkPermissions known site)).getD [] ++
      order.flatMap fun l => checkListed site p props kind entity l.key l.only l.editable)

/-- `checkPages` with an order for each page, by its number. -/
def checkPagesIn (orders : Nat → List FieldList) (s : Symbols) (known : List String) :
    List (String × String) → List BlockDecl → List Diagnostic
  | _, [] => []
  | routes, p :: ps =>
    let (routes, ds) := checkPageIn (orders 0) s known routes p
    ds ++ checkPagesIn (fun n => orders (n + 1)) s known routes ps

/-- `violations` with an order for each page. -/
def violationsIn (orders : Nat → List FieldList) (f : File) (extraRoles : List String) :
    List Diagnostic :=
  let (s, ds) := collect f
  ds ++ s.entities.flatMap (checkEntity s) ++ s.enums.flatMap checkEnum ++ checkConfig s ++
    checkPagesIn orders s (roles s extraRoles) [] s.pages ++ s.views.flatMap (checkView s) ++
    s.workflows.flatMap checkWorkflow ++ checkGeneratedNames s

/-- `validate` with an order for each page. -/
def validateIn (orders : Nat → List FieldList) (f : File) (extraRoles : List String) :
    Except (List Diagnostic) Checked :=
  match violationsIn orders f extraRoles with
  | [] => let s := (collect f).1; .ok ⟨s, roles s extraRoles⟩
  | ds => .error (Diagnostic.sorted ds)

/-- What is found in one list of fields of a page. -/
def foundIn (s : Symbols) (p : BlockDecl) (l : FieldList) : List Diagnostic :=
  let site : Site := ⟨p.file, .page, p.name⟩
  let props := (checkProps site p.props pageKeys).1
  let kind := (checkPageType site p props).1
  checkListed site p props kind (checkPageEntity s site p props kind).1 l.key l.only l.editable

/-- The lists of fields are checked last. -/
theorem checkPageIn_eq (order : List FieldList) (s : Symbols) (known : List String)
    (routes : List (String × String)) (p : BlockDecl) :
    checkPageIn order s known routes p =
      ((checkPageIn [] s known routes p).1,
        (checkPageIn [] s known routes p).2 ++ order.flatMap (foundIn s p)) :=
  Prod.ext rfl (congrArg (· ++ order.flatMap (foundIn s p)) (List.append_nil _).symm)

theorem checkPageIn_fieldLists (s : Symbols) (known : List String)
    (routes : List (String × String)) (p : BlockDecl) :
    checkPageIn fieldLists s known routes p = checkPage s known routes p := by
  have hflat : ∀ front columns fields : List Diagnostic,
      front ++ (columns ++ (fields ++ [])) = front ++ columns ++ fields := by simp
  exact Prod.ext rfl (hflat _ _ _)

theorem checkPagesIn_fieldLists (s : Symbols) (known : List String)
    (routes : List (String × String)) (ps : List BlockDecl) :
    checkPagesIn (fun _ => fieldLists) s known routes ps = checkPages s known routes ps := by
  induction ps generalizing routes with
  | nil => rfl
  | cons p ps ih => simp only [checkPagesIn, checkPages, checkPageIn_fieldLists, ih]

theorem validateIn_fieldLists (f : File) (extra : List String) :
    validateIn (fun _ => fieldLists) f extra = validate f extra := by
  have hfound : violationsIn (fun _ => fieldLists) f extra = violations f extra := by
    simp only [violationsIn, violations, checkPagesIn_fieldLists]
  rw [validateIn, hfound]
  rfl

/-! ## Where diagnostics stand -/

/-- The places of a property that a check of field names can report. -/
def placesOf (q : Property) : List Pos :=
  q.pos :: q.value.pos :: match q.value with
    | .array elems _ => elems.map Value.pos
    | _ => []

/-- Properties of different keys stand at different offsets. -/
def Spread (props : List Property) : Prop :=
  ∀ q ∈ props, ∀ q' ∈ props, q.key ≠ q'.key → ∀ a ∈ placesOf q, ∀ b ∈ placesOf q',
    a.offset ≠ b.offset

theorem checkFieldList_places {site : Site} {e : EntityDecl} {q : Property} {editable : Bool} :
    ∀ d ∈ checkFieldList site e q editable, d.pos ∈ placesOf q := by
  intro d hd
  unfold checkFieldList at hd
  split at hd
  next elems at_ hvalue =>
    obtain ⟨el, hel, hd⟩ := List.mem_flatMap.mp hd
    have hpos : el.pos ∈ placesOf q := by
      simp only [placesOf, hvalue]
      exact .tail _ (.tail _ (List.mem_map_of_mem hel))
    split at hd
    · cases List.mem_singleton.mp hd
      exact hpos
    · split at hd
      · cases List.mem_singleton.mp hd
        exact hpos
      · split at hd
        · cases List.mem_singleton.mp hd
          exact hpos
        · cases hd
  next =>
    cases List.mem_singleton.mp hd
    exact .tail _ (.head _)

theorem checkListed_places {site : Site} {p : BlockDecl} {props : List Property}
    {kind : Option PageKind} {entity : Option EntityDecl} {key : String} {only : PageKind}
    {editable : Bool} {d : Diagnostic}
    (h : d ∈ checkListed site p props kind entity key only editable) :
    ∃ q ∈ props, q.key = key ∧ d.pos ∈ placesOf q := by
  unfold checkListed at h
  split at h
  · cases h
  next q hq =>
    refine ⟨q, List.mem_of_find?_eq_some hq, by simpa using List.find?_some hq, ?_⟩
    split at h
    · cases List.mem_singleton.mp h
      exact .head _
    · split at h
      · exact checkFieldList_places d h
      · cases h

theorem acceptProps_subset {site : Site} {allowed : Option (List String)}
    {seen ps : List Property} :
    ∀ q ∈ (acceptProps site allowed seen ps).1, q ∈ seen ∨ q ∈ ps := by
  induction ps generalizing seen with
  | nil => exact fun q hq => .inl hq
  | cons p ps ih =>
    have hlater : ∀ q ∈ (acceptProps site allowed seen ps).1, q ∈ seen ∨ q ∈ p :: ps :=
      fun q hq => (ih q hq).imp_right (List.mem_cons_of_mem p)
    have hkept : ∀ q ∈ (acceptProps site allowed (seen ++ [p]) ps).1, q ∈ seen ∨ q ∈ p :: ps := by
      intro q hq
      rcases ih q hq with hseen | hps
      · rcases List.mem_append.mp hseen with hseen | hp
        · exact .inl hseen
        · exact .inr (List.mem_singleton.mp hp ▸ .head _)
      · exact .inr (.tail _ hps)
    unfold acceptProps
    split
    · exact hlater
    · split
      · split
        · exact hkept
        · exact hlater
      · exact hkept

/-- What is found in one list of fields stands where nothing is found in another. -/
theorem foundIn_apart {p : BlockDecl} (h : Spread p.props) (s : Symbols) (l l' : FieldList)
    (hkey : l.key ≠ l'.key) : ∀ d ∈ foundIn s p l, ∀ d' ∈ foundIn s p l',
      d.pos.offset ≠ d'.pos.offset := by
  intro d hd d' hd'
  obtain ⟨q, hq, hqkey, hpos⟩ := checkListed_places hd
  obtain ⟨q', hq', hqkey', hpos'⟩ := checkListed_places hd'
  rw [← hqkey, ← hqkey'] at hkey
  have hmem : ∀ x ∈ (checkProps ⟨p.file, .page, p.name⟩ p.props pageKeys).1, x ∈ p.props :=
    fun x hx => (acceptProps_subset x hx).resolve_left List.not_mem_nil
  exact h q (hmem q hq) q' (hmem q' hq') hkey _ hpos _ hpos'

/-! ## Places in a source -/

open Grammar in
/-- A value begins with a token of its own. -/
theorem exists_token_value (v : ValueTree) : ∃ t ∈ v.tokens, t.pos = v.value.pos := by
  cases v with
  | string t | number t | boolean t => exact ⟨t.1, by simp [ValueTree.tokens], by
      simp [ValueTree.value, Value.pos]⟩
  | negative sign t => exact ⟨sign.1, by simp [ValueTree.tokens], by
      simp [ValueTree.value, Value.pos]⟩
  | path head more => exact ⟨head.1, by simp [ValueTree.tokens], by
      simp [ValueTree.value, Value.pos]⟩
  | array opening items closing => exact ⟨opening.1, by simp [ValueTree.tokens], by
      simp [ValueTree.value, Value.pos]⟩
  | object block => exact ⟨block.opening.1, by simp [ValueTree.tokens], by
      simp [ValueTree.value, Value.pos]⟩
  | env word opening var closing => exact ⟨word.1.1, by simp [ValueTree.tokens], by
      simp [ValueTree.value, Value.pos]⟩
  | call name opening args closing => exact ⟨name.1.1, by simp [ValueTree.tokens], by
      simp [ValueTree.value, Value.pos]⟩

open Grammar in
theorem exists_token_values : (i : ItemsTree) → ∀ v ∈ i.values, ∃ t ∈ i.tokens, t.pos = v.pos
  | .nil => by simp [ItemsTree.values]
  | .last v => by
    intro w hw
    rw [ItemsTree.values, List.mem_singleton] at hw
    rw [hw, ItemsTree.tokens]
    exact exists_token_value v
  | .more v comma rest => by
    intro w hw
    rw [ItemsTree.values] at hw
    rw [ItemsTree.tokens]
    rcases List.mem_cons.mp hw with rfl | hw
    · obtain ⟨t, ht, hpos⟩ := exists_token_value v
      exact ⟨t, List.mem_append_left _ ht, hpos⟩
    · obtain ⟨t, ht, hpos⟩ := exists_token_values rest w hw
      exact ⟨t, List.mem_append_right _ (.tail _ ht), hpos⟩

open Grammar in
theorem exists_token_place (p : PropTree) : ∀ a ∈ placesOf p.prop, ∃ t ∈ p.tokens, t.pos = a := by
  obtain ⟨key, colon, v⟩ := p
  intro a ha
  rw [PropTree.tokens]
  have hvalue : ∀ t ∈ v.tokens, t ∈ key.1 :: colon.1 :: v.tokens := fun t ht =>
    .tail _ (.tail _ ht)
  rcases List.mem_cons.mp ha with rfl | ha
  · exact ⟨key.1, .head _, by rw [PropTree.prop]⟩
  rcases List.mem_cons.mp ha with rfl | ha
  · obtain ⟨t, ht, hpos⟩ := exists_token_value v
    exact ⟨t, hvalue t ht, by rw [hpos, PropTree.prop]⟩
  · rw [PropTree.prop] at ha
    cases v with
    | array opening items closing =>
      simp only [ValueTree.value] at ha
      obtain ⟨el, hel, rfl⟩ := List.mem_map.mp ha
      obtain ⟨t, ht, hpos⟩ := exists_token_values items el hel
      exact ⟨t, hvalue t (by simp [ValueTree.tokens, ht]), hpos⟩
    | _ => simp [ValueTree.value] at ha

open Grammar in
/-- What stands between the tokens of a body stands between those of its items. -/
theorem pairwise_items {α : Type} {f : α → List Token} {R : Token → Token → Prop} {b : Body α}
    (h : (b.tokens f).Pairwise R) :
    b.items.Pairwise fun x y => ∀ t ∈ f x, ∀ u ∈ f y, R t u := by
  induction b with
  | nil => exact .nil
  | comma t rest ih => exact ih (List.pairwise_cons.mp h).2
  | item x rest ih =>
    obtain ⟨-, hrest, hcross⟩ := List.pairwise_append.mp h
    refine List.pairwise_cons.mpr ⟨fun y hy t ht u hu => ?_, ih hrest⟩
    exact hcross t ht u (Grammar.tokens_subset_of_mem hy hu)

open Grammar in
theorem spread_block {block : Braced PropTree}
    (h : (block.tokens PropTree.tokens).Pairwise fun t u => t.pos.offset < u.pos.offset) :
    Spread (block.items.map PropTree.prop) := by
  obtain ⟨-, hbody⟩ := List.pairwise_cons.mp h
  have happ := (List.pairwise_append.mp hbody).1
  have hitems := (pairwise_items happ).imp fun hxy t ht u hu => Nat.ne_of_lt (hxy t ht u hu)
  have hsymm : Std.Symm fun x y : PropTree =>
      ∀ t ∈ x.tokens, ∀ u ∈ y.tokens, t.pos.offset ≠ u.pos.offset :=
    ⟨fun x y hxy t ht u hu => (hxy u hu t ht).symm⟩
  intro q hq q' hq' hkey a ha b hb
  obtain ⟨x, hx, rfl⟩ := List.mem_map.mp hq
  obtain ⟨y, hy, rfl⟩ := List.mem_map.mp hq'
  obtain ⟨t, ht, rfl⟩ := exists_token_place x a ha
  obtain ⟨u, hu, rfl⟩ := exists_token_place y b hb
  exact hitems.forall hx hy (fun heq => hkey (congrArg (fun p => p.prop.key) heq)) t ht u hu

/-- The properties of each page of a parsed source stand apart. -/
theorem parseSource_spread {path : String} {bytes : List Nat} {f : File}
    (h : parseSource path (Text.decode bytes) = .ok f) :
    ∀ p, Decl.page p ∈ f.decls → Spread p.props := by
  unfold parseSource at h
  split at h
  · cases h
  next tokens hl =>
    split at h
    · cases h
    next g hg =>
      cases h
      obtain ⟨tree, rfl, rfl⟩ := Grammar.derivation_of_parseTokens (lexFrom_spelled hl).1 hg
      intro p hp
      obtain ⟨d, hd, hpage⟩ := List.mem_map.mp hp
      have hsub : d.tokens.Sublist tree.tokens :=
        (List.sublist_flatten_of_mem (List.mem_map_of_mem hd)).trans (List.sublist_append_left _ _)
      have hlaid := (lex_laid hl).ascending.sublist hsub
      cases d with
      | page keyword name block =>
        cases hpage
        exact spread_block (List.pairwise_cons.mp (List.pairwise_cons.mp hlaid).2).2
      | _ => cases hpage

/-- What is read from a source, or joined from several that are. -/
inductive FromSource : File → Prop
  | parsed {path : String} {bytes : List Nat} {f : File} :
      parseSource path (Text.decode bytes) = .ok f → FromSource f
  | merged {fs : List File} : (∀ f ∈ fs, FromSource f) → FromSource (File.merge fs)

theorem FromSource.spread {f : File} (h : FromSource f) :
    ∀ p, Decl.page p ∈ f.decls → Spread p.props := by
  induction h with
  | parsed h => exact parseSource_spread h
  | merged _ ih =>
    intro p hp
    obtain ⟨f, hf, hp⟩ := List.mem_flatMap.mp hp
    exact ih f hf p hp

theorem loadFile_fromSource {disk : Disk} {path : String} {f : File}
    (h : loadFile disk path = .ok f) : FromSource f := by
  obtain ⟨text, -, h⟩ := bind_eq_ok.mp h
  rw [← Text.decode_bytesOf] at h
  cases hparse : parseSource path (Text.decode (Text.bytesOf text)) with
  | error e => rw [hparse] at h; cases h
  | ok g =>
    rw [hparse] at h
    cases h
    exact .parsed hparse

theorem loadDirectory_fromSource {disk : Disk} {root : String} {f : File}
    (h : loadDirectory disk root = .ok f) : FromSource f := by
  unfold loadDirectory at h
  split at h
  · cases h
  · cases h
  · obtain ⟨files, hfiles, h⟩ := bind_eq_ok.mp h
    cases h
    refine .merged fun g hg => ?_
    obtain ⟨path, -, hpath⟩ := exists_of_mem_right (mapM_ok hfiles) hg
    exact loadFile_fromSource hpath

/-- Whatever is loaded is read from sources. -/
theorem load_fromSource {disk : Disk} {path : String} {f : File} (h : load disk path = .ok f) :
    FromSource f := by
  obtain ⟨node, -, h⟩ := bind_eq_ok.mp h
  cases node with
  | directory => exact loadDirectory_fromSource h
  | file => exact loadFile_fromSource h

theorem accept_subset {s : Symbols} {ds : List Decl} :
    ∀ d ∈ (accept s ds).1.decls, d ∈ s.decls ∨ d ∈ ds := by
  induction ds generalizing s with
  | nil => exact fun d hd => .inl hd
  | cons x ds ih =>
    intro d hd
    unfold accept at hd
    split at hd
    · rcases ih d hd with hs | hds
      · rcases List.mem_append.mp hs with hs | hx
        · exact .inl hs
        · exact .inr (List.mem_singleton.mp hx ▸ .head _)
      · exact .inr (.tail _ hds)
    · exact (ih d hd).imp_right (List.mem_cons_of_mem x)

/-- The pages that count are pages of the file. -/
theorem collect_pages {f : File} {p : BlockDecl} (h : p ∈ (collect f).1.pages) :
    Decl.page p ∈ f.decls := by
  obtain ⟨d, hd, hpick⟩ := List.mem_filterMap.mp h
  cases d <;> cases hpick
  exact (accept_subset _ hd).resolve_left List.not_mem_nil

/-! ## The same report in any order -/

/-- An order of the two lists of fields is one of two. -/
theorem order_eq {order : List FieldList} (h : order.Perm fieldLists) :
    order = fieldLists ∨ order = fieldLists.reverse := by
  obtain ⟨l, l', rfl⟩ := List.length_eq_two.mp h.length_eq
  have hl := h.subset (.head _)
  have hl' := h.subset (.tail _ (.head _))
  have hnodup := h.nodup_iff.mpr (by decide)
  simp only [fieldLists, List.mem_cons, List.not_mem_nil, or_false] at hl hl'
  rcases hl with rfl | rfl <;> rcases hl' with rfl | rfl
  · simp at hnodup
  · exact .inl rfl
  · exact .inr rfl
  · simp at hnodup

theorem sorted_foundIn {p : BlockDecl} (h : Spread p.props) (s : Symbols)
    {order : List FieldList} (horder : order.Perm fieldLists) (rest : List Diagnostic) :
    Diagnostic.sorted (order.flatMap (foundIn s p) ++ rest) =
      Diagnostic.sorted (fieldLists.flatMap (foundIn s p) ++ rest) := by
  rcases order_eq horder with rfl | rfl
  · rfl
  · have hapart := foundIn_apart h s ⟨"fields", .form, true⟩ ⟨"columns", .table, false⟩ (by decide)
    have hswap := mergeSort_append_comm Diagnostic.before_trans Diagnostic.before_total
      (fun d hd d' hd' hties => hapart d hd d' hd' (Diagnostic.offset_eq_of_ties hties)) rest
    simpa [fieldLists, Diagnostic.sorted] using hswap

theorem sorted_checkPagesIn {ps : List BlockDecl} (h : ∀ p ∈ ps, Spread p.props) (s : Symbols)
    (known : List String) {orders : Nat → List FieldList}
    (horders : ∀ n, (orders n).Perm fieldLists) (routes : List (String × String))
    (rest : List Diagnostic) :
    Diagnostic.sorted (checkPagesIn orders s known routes ps ++ rest) =
      Diagnostic.sorted (checkPages s known routes ps ++ rest) := by
  induction ps generalizing orders routes with
  | nil => rfl
  | cons p ps ih =>
    obtain ⟨hp, hps⟩ := List.forall_mem_cons.mp h
    have hleft : ∀ {l l' : List Diagnostic}, Diagnostic.sorted l = Diagnostic.sorted l' →
        ∀ front, Diagnostic.sorted (front ++ l) = Diagnostic.sorted (front ++ l') :=
      fun hsame front =>
        mergeSort_append_left Diagnostic.before_trans Diagnostic.before_total hsame front
    rw [← checkPagesIn_fieldLists, checkPagesIn, checkPagesIn, checkPageIn_eq,
      checkPageIn_eq fieldLists]
    simp only [List.append_assoc, checkPagesIn_fieldLists]
    refine hleft ?_ _
    rw [hleft (ih hps (fun n => horders (n + 1)) _) _, sorted_foundIn hp s (horders 0)]

theorem sorted_eq_nil {ds : List Diagnostic} : Diagnostic.sorted ds = [] ↔ ds = [] := by
  rw [← List.length_eq_zero_iff, Diagnostic.sorted, List.length_mergeSort, List.length_eq_zero_iff]

/-- The report on a source is the same in whatever order the lists of fields of each page are
checked, also where several sources of one path are joined. -/
theorem validateIn_eq {f : File} (h : FromSource f) (extra : List String)
    {orders : Nat → List FieldList} (horders : ∀ n, (orders n).Perm fieldLists) :
    validateIn orders f extra = validate f extra := by
  have hspread : ∀ p ∈ (collect f).1.pages, Spread p.props := fun p hp =>
    h.spread p (collect_pages hp)
  have hsorted : Diagnostic.sorted (violationsIn orders f extra) =
      Diagnostic.sorted (violations f extra) := by
    simp only [violationsIn, violations, List.append_assoc]
    repeat refine mergeSort_append_left Diagnostic.before_trans Diagnostic.before_total ?_ _
    exact sorted_checkPagesIn hspread _ _ horders _ _
  unfold validateIn validate
  cases hfound : violations f extra with
  | nil =>
    rw [hfound, sorted_eq_nil.mpr rfl, sorted_eq_nil] at hsorted
    rw [hsorted]
  | cons d ds =>
    cases hfoundIn : violationsIn orders f extra with
    | nil =>
      rw [hfoundIn, hfound, sorted_eq_nil.mpr rfl] at hsorted
      exact absurd (sorted_eq_nil.mp hsorted.symm) (List.cons_ne_nil d ds)
    | cons d' ds' =>
      rw [hfoundIn, hfound] at hsorted
      exact congrArg Except.error hsorted

/-- A page with a list of fields out of place and, behind it, one that names no field. -/
def misplaced : List Nat := Text.bytesOf
  "page A \x7b type: table entity: E fields: [a] columns: [b, 1] \x7d entity E \x7b id: Int \x7d"

/-- What is found stands in no order, and the report is the same the other way round. -/
theorem misplaced_report : ∃ f, parseSource "" (Text.decode misplaced) = .ok f ∧
    (violations f []).map (·.pos.offset) = [53, 56, 31] ∧
    validateIn (fun _ => fieldLists.reverse) f [] = validate f [] := by
  have hany : (parseSource "" (Text.decode misplaced)).toOption.any (fun f =>
      decide ((violations f []).map (·.pos.offset) = [53, 56, 31])) = true := by
    rw [misplaced, Text.decode_bytesOf, Text.runes_ofList]
    decide +kernel
  obtain ⟨f, hf, hfound⟩ := exists_ok_of_any hany
  exact ⟨f, hf, of_decide_eq_true hfound,
    validateIn_eq (.parsed hf) [] fun _ => List.reverse_perm fieldLists⟩

end Scaffold.Check
