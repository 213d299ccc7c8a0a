import Scaffold.Json.Reader

/-! # Printed values are read back

A value without numbers that does not nest too deeply is read back from its indented form. Each
piece of the form ends by itself, so what follows it does not matter. -/
namespace Scaffold.Json

open Scaffold.Text (hexDigit hexDigits hexValue?)

/-! ## Texts -/

theorem hexValue_hexDigit : ∀ d, d < 16 → hexValue? (hexDigit d) = some d := by decide

theorem unit?_hexDigits {n : Nat} (h : n < 65536) :
    ∃ a b c d, hexDigits 4 n = [a, b, c, d] ∧ unit? a b c d = some n := by
  refine ⟨_, _, _, _, rfl, ?_⟩
  simp only [unit?, hexValue_hexDigit _ (Nat.mod_lt _ (by decide : 0 < 16)), Option.bind_eq_bind,
    Option.bind_some]
  congr 1
  omega

/-- A character is read back from its escaped form, as one unit. -/
theorem readUnits_escapeChar (html : Bool) (c : Char) (rest : List Char) :
    readUnits (escapeChar html c ++ rest) =
      (readUnits rest).map fun p => (c.toNat :: p.1, p.2) := by
  have hletter (l : Char) (x : Nat) (hu : l ≠ 'u') (hl : escapedLetter? l = some x) :
      readUnits ('\\' :: l :: rest) = (readUnits rest).map fun p => (x :: p.1, p.2) := by
    simp [readUnits, hu, hl, Option.map_eq_bind, Function.comp_def]
  unfold escapeChar
  split
  all_goals try exact hletter _ _ (by decide) rfl
  next hquote hslash hn hr ht hb hf =>
    split
    next hcontrol =>
      have hlt : c.toNat < 65536 := by
        simp only [Bool.or_eq_true, Bool.and_eq_true, decide_eq_true_eq] at hcontrol
        rcases hcontrol with ((h | h) | h) | ⟨-, (rfl | rfl) | rfl⟩
        · omega
        · omega
        · omega
        all_goals decide
      obtain ⟨x, y, z, w, hdigits, hunit⟩ := unit?_hexDigits hlt
      rw [hdigits]
      simp [readUnits, hunit, Option.map_eq_bind, Function.comp_def]
    next hplain =>
      have hge : ¬ c.toNat < 0x20 := fun h => hplain (by simp [h])
      have hslash : c ≠ '\\' := hslash
      simp [readUnits, hslash, hge, Option.map_eq_bind, Function.comp_def]

theorem readUnits_escaped (html : Bool) (cs rest : List Char) :
    readUnits (cs.flatMap (escapeChar html) ++ '"' :: rest) = some (cs.map Char.toNat, rest) := by
  induction cs with
  | nil => simp [readUnits]
  | cons c cs ih =>
    rw [List.flatMap_cons, List.append_assoc, readUnits_escapeChar, ih]
    rfl

/-- No character is half of a pair. -/
theorem joinUnits_chars (cs : List Char) : joinUnits none (cs.map Char.toNat) = cs := by
  induction cs with
  | nil => rfl
  | cons c cs ih =>
    have hvalid : c.toNat < 0xD800 ∨ 0xDFFF < c.toNat := by
      rcases c.valid with h | h
      · exact .inl h
      · exact .inr h.1
    have hhigh : isHighHalf c.toNat = false := by
      simp only [isHighHalf, Bool.and_eq_false_iff, decide_eq_false_iff_not]
      omega
    have hlow : isLowHalf c.toNat = false := by
      simp only [isLowHalf, Bool.and_eq_false_iff, decide_eq_false_iff_not]
      omega
    simp [joinUnits, hhigh, hlow, ih]

theorem readText_quoted (html : Bool) (s : String) (rest : List Char) :
    readText (s.toList.flatMap (escapeChar html) ++ '"' :: rest) = some (s, rest) := by
  simp [readText, readUnits_escaped, joinUnits_chars]

theorem toList_quoteText (html : Bool) (s : String) :
    (quoteText html s).toList = '"' :: s.toList.flatMap (escapeChar html) ++ ['"'] := by
  simp [quoteText]

/-! ## Layout -/

mutual

/-- Whether a value has no numbers and nests at most `room` deep. -/
def nests : (room : Nat) → Json → Bool
  | _, number _ => false
  | room, array elems => room ≠ 0 && allNest (room - 1) elems
  | room, object members => room ≠ 0 && membersNest (room - 1) members
  | _, _ => true

def allNest : (room : Nat) → List Json → Bool
  | _, [] => true
  | room, x :: xs => nests room x && allNest room xs

def membersNest : (room : Nat) → List (String × Json) → Bool
  | _, [] => true
  | room, (_, x) :: xs => nests room x && membersNest room xs

end

theorem allNest_eq (room : Nat) (xs : List Json) : allNest room xs = xs.all (nests room) := by
  induction xs with
  | nil => rfl
  | cons x xs ih => rw [allNest, List.all_cons, ih]

theorem membersNest_eq (room : Nat) (ms : List (String × Json)) :
    membersNest room ms = ms.all (nests room ·.2) := by
  induction ms with
  | nil => rfl
  | cons m ms ih => rw [membersNest, List.all_cons, ih]

theorem skipBlanks_newLine (level : Nat) (cs : List Char) :
    skipBlanks ((newLine level).toList ++ cs) = skipBlanks cs := by
  have hspaces (n : Nat) : skipBlanks (List.replicate n ' ' ++ cs) = skipBlanks cs := by
    induction n with
    | zero => rfl
    | succ n ih => exact ih
  simp only [newLine, String.toList_append, String.toList_ofList, List.append_assoc]
  exact hspaces (2 * level)

/-- What stands between the first item and the end of its brackets. -/
def itemsTail (level : Nat) (closing : Char) : List String → List Char
  | [] => (newLine level).toList ++ [closing]
  | x :: xs => ',' :: (newLine (level + 1)).toList ++ x.toList ++ itemsTail level closing xs

theorem toList_bracketed (opening : String) (closing : Char) (level : Nat) (x : String)
    (xs : List String) :
    (bracketed opening (String.singleton closing) level (x :: xs)).toList =
      opening.toList ++ (newLine (level + 1)).toList ++ x.toList ++ itemsTail level closing xs := by
  have hjoin (x : String) : (("," ++ newLine (level + 1)).intercalate (x :: xs) ++
      newLine level ++ String.singleton closing).toList =
        x.toList ++ itemsTail level closing xs := by
    induction xs generalizing x with
    | nil => simp [itemsTail]
    | cons y ys ih =>
      have hrest := ih y
      simp only [String.toList_append] at hrest
      simp [String.intercalate_cons_cons, itemsTail, ← hrest]
  have hx := hjoin x
  simp only [String.toList_append] at hx
  simp [bracketed, ← hx]

/-- A printed value starts with a character that is no blank and closes nothing. -/
theorem indented_starts (html : Bool) (level : Nat) {room : Nat} {j : Json}
    (h : nests room j = true) :
    ∃ c cs, (indented html level j).toList = c :: cs ∧ c ≠ ']' ∧
      ∀ rest, skipBlanks (c :: rest) = c :: rest := by
  have hbracketed (opening closing : Char) (items : List String) : ∃ cs,
      (bracketed (String.singleton opening) (String.singleton closing) level items).toList =
        opening :: cs := by
    cases items with
    | nil => exact ⟨_, by simp [bracketed]; rfl⟩
    | cons x xs => exact ⟨_, by rw [toList_bracketed, String.toList_singleton]; rfl⟩
  cases j with
  | null => exact ⟨'n', ['u', 'l', 'l'], by simp [indented], by decide, fun _ => rfl⟩
  | bool value => cases value with
    | true => exact ⟨'t', ['r', 'u', 'e'], by simp [indented], by decide, fun _ => rfl⟩
    | false => exact ⟨'f', ['a', 'l', 's', 'e'], by simp [indented], by decide, fun _ => rfl⟩
  | number raw => simp [nests] at h
  | string text => exact ⟨'"', _, toList_quoteText html text, by decide, fun _ => rfl⟩
  | array elems =>
    obtain ⟨cs, hcs⟩ := hbracketed '[' ']' (indentedElems html (level + 1) elems)
    exact ⟨'[', cs, hcs, by decide, fun _ => rfl⟩
  | object members =>
    obtain ⟨cs, hcs⟩ := hbracketed '\x7b' '\x7d' (indentedMembers html (level + 1) members)
    exact ⟨'\x7b', cs, hcs, by decide, fun _ => rfl⟩

/-! ## Values -/

theorem readValue_blanks {cs ds : List Char} (h : skipBlanks cs = skipBlanks ds)
    (fuel room : Nat) : readValue fuel room cs = readValue fuel room ds := by
  cases fuel with
  | zero => simp only [readValue]
  | succ n => simp only [readValue, h]

theorem readElems_newLine (fuel room level : Nat) (cs : List Char) :
    readElems fuel room ((newLine level).toList ++ cs) = readElems fuel room cs := by
  cases fuel with
  | zero => simp only [readElems]
  | succ n => simp only [readElems, readValue_blanks (skipBlanks_newLine level cs)]

theorem readMembers_newLine (fuel room level : Nat) (cs : List Char) :
    readMembers fuel room ((newLine level).toList ++ cs) = readMembers fuel room cs := by
  cases fuel with
  | zero => simp only [readMembers]
  | succ n => simp only [readMembers, skipBlanks_newLine]

/-- Induction on a value: elements and members come before the value that holds them. -/
@[elab_as_elim]
theorem induct {motive : Json → Prop} (null : motive null) (bool : ∀ value, motive (bool value))
    (number : ∀ raw, motive (number raw)) (string : ∀ text, motive (string text))
    (array : ∀ elems, (∀ x ∈ elems, motive x) → motive (array elems))
    (object : ∀ members, (∀ m ∈ members, motive m.2) → motive (object members)) :
    ∀ j, motive j :=
  @Json.rec motive (fun xs => ∀ x ∈ xs, motive x) (fun ms => ∀ m ∈ ms, motive m.2)
    (fun m => motive m.2) null bool number string array object
    (List.forall_mem_nil _) (fun _ _ hx hxs => List.forall_mem_cons.mpr ⟨hx, hxs⟩)
    (List.forall_mem_nil _) (fun _ _ hm hms => List.forall_mem_cons.mpr ⟨hm, hms⟩)
    (fun _ _ hx => hx)

/-- A value is read back from its indented form, whatever follows. -/
def ReadsBack (html : Bool) (j : Json) : Prop :=
  ∀ (level room fuel : Nat) (rest : List Char), nests room j = true →
    2 * (indented html level j).toList.length ≤ fuel →
      readValue fuel room ((indented html level j).toList ++ rest) = some (j, rest)

theorem readElems_items {html : Bool} (level : Nat) {room : Nat} {x : Json} {xs : List Json}
    (hread : ∀ y ∈ x :: xs, ReadsBack html y) (h : allNest room (x :: xs) = true) (fuel : Nat)
    (rest : List Char)
    (hfuel : 2 * ((indented html (level + 1) x).toList.length +
      (itemsTail level ']' (indentedElems html (level + 1) xs)).length) < fuel) :
    readElems fuel room ((indented html (level + 1) x).toList ++
      (itemsTail level ']' (indentedElems html (level + 1) xs) ++ rest)) =
        some (x :: xs, rest) := by
  induction xs generalizing x fuel with
  | nil =>
    obtain ⟨n, rfl⟩ : ∃ n, fuel = n + 1 := ⟨fuel - 1, by omega⟩
    have hx := hread x (.head _) (level + 1) room n
      (itemsTail level ']' (indentedElems html (level + 1) []) ++ rest)
      (Bool.and_eq_true_iff.mp h).1 (by omega)
    rw [readElems, hx, indentedElems, itemsTail, List.append_assoc]
    simp only [Option.bind_eq_bind, Option.bind_some, skipBlanks_newLine]
    rfl
  | cons y ys ih =>
    obtain ⟨n, rfl⟩ : ∃ n, fuel = n + 1 := ⟨fuel - 1, by omega⟩
    obtain ⟨hx, hys⟩ := Bool.and_eq_true_iff.mp h
    have hhead := hread x (.head _) (level + 1) room n
      (itemsTail level ']' (indentedElems html (level + 1) (y :: ys)) ++ rest) hx (by omega)
    simp only [indentedElems, itemsTail, List.length_cons, List.length_append] at hfuel
    have htail := ih (fun z hz => hread z (.tail _ hz)) hys n (by omega)
    rw [readElems, hhead]
    simp only [Option.bind_eq_bind, Option.bind_some, indentedElems, itemsTail, List.cons_append,
      List.append_assoc]
    change (readElems n room _).bind _ = _
    rw [readElems_newLine, htail]
    rfl

/-- A member is its key, a colon and its value. -/
theorem readMembers_member (html : Bool) (level room : Nat) (k : String) (x : Json)
    (rest : List Char) (n : Nat) :
    readMembers (n + 1) room
        ((quoteText html k ++ ": " ++ indented html (level + 1) x).toList ++ rest) =
      (readValue n room ((indented html (level + 1) x).toList ++ rest)).bind fun p =>
        match skipBlanks p.2 with
        | ',' :: rest => (readMembers n room rest).bind fun q => some ((k, p.1) :: q.1, q.2)
        | '\x7d' :: rest => some ([(k, p.1)], rest)
        | _ => none := by
  have htext : (quoteText html k ++ ": " ++ indented html (level + 1) x).toList ++ rest =
      '"' :: (k.toList.flatMap (escapeChar html) ++
        '"' :: ':' :: ' ' :: ((indented html (level + 1) x).toList ++ rest)) := by
    simp [toList_quoteText]
  have hskip (c : Char) (cs : List Char) (hc : c = '"' ∨ c = ':') :
      skipBlanks (c :: cs) = c :: cs := by
    rcases hc with rfl | rfl <;> rfl
  rw [htext, readMembers, hskip _ _ (.inl rfl)]
  simp only [readText_quoted, Option.bind_eq_bind, Option.bind_some, hskip _ _ (.inr rfl)]
  have hblank (cs : List Char) : skipBlanks (' ' :: cs) = skipBlanks cs := rfl
  rewrite [readValue_blanks (hblank ((indented html (level + 1) x).toList ++ rest))]
  rfl

theorem readMembers_items {html : Bool} (level : Nat) {room : Nat} {k : String} {x : Json}
    {ms : List (String × Json)} (hread : ∀ m ∈ (k, x) :: ms, ReadsBack html m.2)
    (h : membersNest room ((k, x) :: ms) = true) (fuel : Nat) (rest : List Char)
    (hfuel : 2 * ((quoteText html k ++ ": " ++ indented html (level + 1) x).toList.length +
      (itemsTail level '\x7d' (indentedMembers html (level + 1) ms)).length) < fuel) :
    readMembers fuel room ((quoteText html k ++ ": " ++ indented html (level + 1) x).toList ++
      (itemsTail level '\x7d' (indentedMembers html (level + 1) ms) ++ rest)) =
        some ((k, x) :: ms, rest) := by
  induction ms generalizing k x fuel with
  | nil =>
    obtain ⟨n, rfl⟩ : ∃ n, fuel = n + 1 := ⟨fuel - 1, by omega⟩
    simp only [String.toList_append, List.length_append] at hfuel
    have hx := hread (k, x) (.head _) (level + 1) room n
      (itemsTail level '\x7d' (indentedMembers html (level + 1) []) ++ rest)
      (Bool.and_eq_true_iff.mp h).1 (by dsimp only; omega)
    rw [readMembers_member, hx, indentedMembers, itemsTail, List.append_assoc]
    simp only [Option.bind_some, skipBlanks_newLine]
    rfl
  | cons m ms ih =>
    obtain ⟨n, rfl⟩ : ∃ n, fuel = n + 1 := ⟨fuel - 1, by omega⟩
    obtain ⟨hx, hms⟩ := Bool.and_eq_true_iff.mp h
    simp only [String.toList_append, List.length_append] at hfuel
    have hhead := hread (k, x) (.head _) (level + 1) room n
      (itemsTail level '\x7d' (indentedMembers html (level + 1) (m :: ms)) ++ rest) hx
      (by dsimp only; omega)
    simp only [indentedMembers, itemsTail, List.length_cons, List.length_append] at hfuel
    have htail := ih (k := m.1) (x := m.2) (fun q hq => hread q (.tail _ hq)) hms n (by omega)
    rw [readMembers_member, hhead]
    simp only [Option.bind_some, indentedMembers, itemsTail, List.cons_append, List.append_assoc]
    change (readMembers n room _).bind _ = _
    rw [readMembers_newLine, htail]
    rfl

theorem readValue_bracket (fuel room : Nat) (cs : List Char) :
    readValue (fuel + 1) room ('[' :: cs) =
      if room = 0 then none else match skipBlanks cs with
        | ']' :: rest => some (array [], rest)
        | cs => (readElems fuel (room - 1) cs).map fun (xs, rest) => (array xs, rest) := by
  rw [readValue]
  rfl

theorem readValue_brace (fuel room : Nat) (cs : List Char) :
    readValue (fuel + 1) room ('\x7b' :: cs) =
      if room = 0 then none else match skipBlanks cs with
        | '\x7d' :: rest => some (object [], rest)
        | cs => (readMembers fuel (room - 1) cs).map fun (ms, rest) => (object ms, rest) := by
  rw [readValue]
  rfl

theorem readsBack_array {html : Bool} {xs : List Json} (hread : ∀ x ∈ xs, ReadsBack html x) :
    ReadsBack html (array xs) := by
  intro level room fuel rest h hfuel
  obtain ⟨hroom, hxs⟩ := Bool.and_eq_true_iff.mp h
  have hroom : room ≠ 0 := of_decide_eq_true hroom
  cases xs with
  | nil =>
    obtain ⟨n, rfl⟩ : ∃ n, fuel = n + 1 :=
      ⟨fuel - 1, by simp [indented, indentedElems, bracketed] at hfuel; omega⟩
    simp [indented, indentedElems, bracketed, readValue, skipBlanks, hroom]
  | cons x xs =>
    have htext : (indented html level (array (x :: xs))).toList = '[' ::
        ((newLine (level + 1)).toList ++ ((indented html (level + 1) x).toList ++
          itemsTail level ']' (indentedElems html (level + 1) xs))) := by
      rw [indented, indentedElems]
      exact (toList_bracketed "[" ']' level _ _).trans (by simp)
    rw [htext] at hfuel ⊢
    simp only [List.length_cons, List.length_append] at hfuel
    obtain ⟨n, rfl⟩ : ∃ n, fuel = n + 1 := ⟨fuel - 1, by omega⟩
    obtain ⟨c, cs, hstart, hclose, hskip⟩ :=
      indented_starts html (level + 1) (Bool.and_eq_true_iff.mp hxs).1
    have hitems := readElems_items level hread hxs n rest (by omega)
    rw [hstart] at hitems ⊢
    simp only [List.cons_append, List.append_assoc] at hitems ⊢
    rw [readValue_bracket, if_neg hroom, skipBlanks_newLine, hskip]
    simp [hclose, hitems]

theorem readsBack_object {html : Bool} {ms : List (String × Json)}
    (hread : ∀ m ∈ ms, ReadsBack html m.2) : ReadsBack html (object ms) := by
  intro level room fuel rest h hfuel
  obtain ⟨hroom, hms⟩ := Bool.and_eq_true_iff.mp h
  have hroom : room ≠ 0 := of_decide_eq_true hroom
  cases ms with
  | nil =>
    obtain ⟨n, rfl⟩ : ∃ n, fuel = n + 1 :=
      ⟨fuel - 1, by simp [indented, indentedMembers, bracketed] at hfuel; omega⟩
    simp [indented, indentedMembers, bracketed, readValue, skipBlanks, hroom]
  | cons m ms =>
    have htext : (indented html level (object (m :: ms))).toList = '\x7b' ::
        ((newLine (level + 1)).toList ++
          ((quoteText html m.1 ++ ": " ++ indented html (level + 1) m.2).toList ++
            itemsTail level '\x7d' (indentedMembers html (level + 1) ms))) := by
      rw [indented, indentedMembers]
      exact (toList_bracketed "\x7b" '\x7d' level _ _).trans (by simp)
    rw [htext] at hfuel ⊢
    simp only [List.length_cons, List.length_append] at hfuel
    obtain ⟨n, rfl⟩ : ∃ n, fuel = n + 1 := ⟨fuel - 1, by omega⟩
    have hitems := readMembers_items level hread hms n rest (by omega)
    have hstart : (quoteText html m.1 ++ ": " ++ indented html (level + 1) m.2).toList = '"' ::
        (m.1.toList.flatMap (escapeChar html) ++
          '"' :: ':' :: ' ' :: (indented html (level + 1) m.2).toList) := by
      simp [toList_quoteText]
    rw [hstart] at hitems ⊢
    simp only [List.cons_append, List.append_assoc] at hitems ⊢
    rw [readValue_brace, if_neg hroom, skipBlanks_newLine]
    change (readMembers n (room - 1) _).map _ = _
    rw [hitems]
    rfl

theorem readsBack (html : Bool) (j : Json) : ReadsBack html j := by
  have hpositive {j : Json} {level room fuel : Nat} (h : nests room j = true)
      (hfuel : 2 * (indented html level j).toList.length ≤ fuel) : ∃ n, fuel = n + 1 := by
    obtain ⟨c, cs, htext, -⟩ := indented_starts html level h
    rw [htext, List.length_cons] at hfuel
    exact ⟨fuel - 1, by omega⟩
  induction j using Json.induct with
  | null =>
    intro level room fuel rest h hfuel
    obtain ⟨n, rfl⟩ := hpositive h hfuel
    simp [indented, readValue, skipBlanks]
  | bool value =>
    intro level room fuel rest h hfuel
    obtain ⟨n, rfl⟩ := hpositive h hfuel
    cases value <;> simp [indented, readValue, skipBlanks]
  | number raw =>
    intro level room fuel rest h hfuel
    simp [nests] at h
  | string text =>
    intro level room fuel rest h hfuel
    obtain ⟨n, rfl⟩ := hpositive h hfuel
    simp [indented, toList_quoteText, readValue, skipBlanks, readText_quoted]
  | array xs ih => exact readsBack_array ih
  | object ms ih => exact readsBack_object ih

/-! ## Texts of values -/

theorem allPrintable_eq (xs : List Json) : allPrintable xs = xs.all printable := by
  induction xs with
  | nil => rfl
  | cons x xs ih => rw [allPrintable, List.all_cons, ih]

theorem membersPrintable_eq (ms : List (String × Json)) :
    membersPrintable ms = ms.all (printable ·.2) := by
  induction ms with
  | nil => rfl
  | cons m ms ih => rw [membersPrintable, List.all_cons, ih]

theorem nests_printable {room : Nat} {j : Json} (h : nests room j = true) :
    printable j = true := by
  induction j using Json.induct generalizing room with
  | null | bool | string => rfl
  | number raw => simp [nests] at h
  | array xs ih =>
    have hxs := (Bool.and_eq_true_iff.mp h).2
    rw [allNest_eq, List.all_eq_true] at hxs
    rw [printable, allPrintable_eq, List.all_eq_true]
    exact fun x hx => ih x hx (hxs x hx)
  | object ms ih =>
    have hms := (Bool.and_eq_true_iff.mp h).2
    rw [membersNest_eq, List.all_eq_true] at hms
    rw [printable, membersPrintable_eq, List.all_eq_true]
    exact fun m hm => ih m hm (hms m hm)

/-- What a value without numbers is printed as, on lines, is read as that value. -/
theorem read?_lines {j : Json} (h : nests maxDepth j = true) :
    ∃ text, lines? j = some text ∧ read? (text ++ "\n") = some j := by
  have hlines : lines? j = some (indented true 0 j) := by
    rw [lines?, if_pos (nests_printable h)]
  refine ⟨_, hlines, ?_⟩
  have hread := readsBack true j 0 maxDepth (2 * (indented true 0 j ++ "\n").toList.length + 1)
    ['\n'] h (by simp; omega)
  have hchars : (indented true 0 j).toList ++ ['\n'] = (indented true 0 j ++ "\n").toList := by
    simp
  rw [hchars] at hread
  rw [read?, hread]
  rfl

end Scaffold.Json
