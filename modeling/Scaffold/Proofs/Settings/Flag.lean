import Mathlib.Tactic.Common
import Scaffold.Proofs.Outcome
import Scaffold.Proofs.Text.Search
import Scaffold.Settings.Load

/-! # The settings file among the flags

The settings file is looked for before the flags are read, by a scan that knows no other flag. The
scan stops at the first argument that names the file and the flags keep the last value, so both agree
when the flag always has the same value and no other argument names the file before it. An argument
that is the value of another flag, or one behind the flags, may name it too: the scan takes it for
the flag. -/
namespace Scaffold.Settings

open Scaffold.Text

/-! ## Reading flags -/

/-- A flag among the arguments. -/
structure Given where
  flag : Flag
  value : String
  /-- Whether the value is an argument of its own. -/
  apart : Bool
  deriving DecidableEq, Repr

/-- The value that a flag has without a further argument. A switch is on where nothing is said. -/
def Flag.ownValue (f : Flag) (value : Option String) : Option String :=
  if f.isSwitch then some (value.getD "true") else value

/-- The arguments are these flags and then the others. Flags end at the first argument that is none
and behind two dashes. A flag without a value of its own takes the next argument. -/
inductive Reads (known : List Flag) : List String → List Given → List String → Prop
  | done : Reads known [] [] []
  | other {a : String} {rest : List String} (ha : argumentOf a = .other) :
      Reads known (a :: rest) [] (a :: rest)
  | stop {a : String} {rest : List String} (ha : argumentOf a = .stop) :
      Reads known (a :: rest) [] rest
  | joined {a name x : String} {value : Option String} {f : Flag} {args rest : List String}
      {given : List Given} (ha : argumentOf a = .flag name value)
      (hf : findFlag known name = .ok f) (hx : f.ownValue value = some x)
      (hr : Reads known args given rest) : Reads known (a :: args) (⟨f, x, false⟩ :: given) rest
  | apart {a name x : String} {value : Option String} {f : Flag} {args rest : List String}
      {given : List Given} (ha : argumentOf a = .flag name value)
      (hf : findFlag known name = .ok f) (hx : f.ownValue value = none)
      (hr : Reads known args given rest) : Reads known (a :: x :: args) (⟨f, x, true⟩ :: given) rest

/-- Arguments are read in one way only. -/
theorem Reads.unique {known : List Flag} {args rest rest' : List String} {given given' : List Given}
    (h : Reads known args given rest) (h' : Reads known args given' rest') :
    given = given' ∧ rest = rest' := by
  induction h generalizing given' rest' with
  | done =>
    cases h'
    exact ⟨rfl, rfl⟩
  | other ha =>
    cases h' with
    | other => exact ⟨rfl, rfl⟩
    | stop ha' | joined ha' | apart ha' => simp [ha] at ha'
  | stop ha =>
    cases h' with
    | stop => exact ⟨rfl, rfl⟩
    | other ha' | joined ha' | apart ha' => simp [ha] at ha'
  | joined ha hf hx _ ih =>
    cases h' with
    | other ha' | stop ha' => simp [ha] at ha'
    | joined ha' hf' hx' hr' =>
      cases ha.symm.trans ha'
      cases hf.symm.trans hf'
      cases hx.symm.trans hx'
      obtain ⟨rfl, rfl⟩ := ih hr'
      exact ⟨rfl, rfl⟩
    | apart ha' hf' hx' =>
      cases ha.symm.trans ha'
      cases hf.symm.trans hf'
      cases hx.symm.trans hx'
  | apart ha hf hx _ ih =>
    cases h' with
    | other ha' | stop ha' => simp [ha] at ha'
    | joined ha' hf' hx' =>
      cases ha.symm.trans ha'
      cases hf.symm.trans hf'
      cases hx.symm.trans hx'
    | apart ha' hf' hx' hr' =>
      obtain ⟨rfl, rfl⟩ := ih hr'
      cases ha.symm.trans ha'
      cases hf.symm.trans hf'
      exact ⟨rfl, rfl⟩

/-- Set the flags one after the other. -/
def FlagValues.assign (v : FlagValues) (given : List Given) : Except FlagTrouble FlagValues :=
  given.foldlM (fun v g => v.set g.flag g.value) v

theorem FlagValues.assign_cons_eq_ok {v w : FlagValues} {g : Given} {given : List Given} :
    v.assign (g :: given) = .ok w ↔ ∃ u, v.set g.flag g.value = .ok u ∧ u.assign given = .ok w := by
  rw [assign, List.foldlM_cons, bind_eq_ok]
  rfl

theorem reads_of_parseFlags {known : List Flag} {v w : FlagValues} {args rest : List String}
    (h : parseFlags known v args = .ok (w, rest)) :
    ∃ given, Reads known args given rest ∧ v.assign given = .ok w := by
  -- the cases follow the reading of the first argument; all but six of them are errors
  fun_induction parseFlags known v args with
  | case1 =>
    cases h
    exact ⟨[], .done, rfl⟩
  | case2 v a args ha =>
    cases h
    exact ⟨[], .other ha, rfl⟩
  | case3 v a args ha =>
    cases h
    exact ⟨[], .stop ha, rfl⟩
  | case7 v a args name value ha f hf hs u hu ih =>
    obtain ⟨given, hr, hgiven⟩ := ih h
    exact ⟨_, .joined ha hf (if_pos hs) hr,
      FlagValues.assign_cons_eq_ok.mpr ⟨u, mapError_eq_ok.mp hu, hgiven⟩⟩
  | case9 v a args name f hf hs x u hu ha ih =>
    obtain ⟨given, hr, hgiven⟩ := ih h
    exact ⟨_, .joined ha hf (if_neg hs) hr,
      FlagValues.assign_cons_eq_ok.mpr ⟨u, mapError_eq_ok.mp hu, hgiven⟩⟩
  | case12 v a name f hf hs x args u hu ha ih =>
    obtain ⟨given, hr, hgiven⟩ := ih h
    exact ⟨_, .apart ha hf (if_neg hs) hr,
      FlagValues.assign_cons_eq_ok.mpr ⟨u, mapError_eq_ok.mp hu, hgiven⟩⟩
  | case4 | case5 | case6 | case8 | case10 | case11 => cases h

theorem parseFlags_of_reads {known : List Flag} {v w : FlagValues} {args rest : List String}
    {given : List Given} (hr : Reads known args given rest) (hgiven : v.assign given = .ok w) :
    parseFlags known v args = .ok (w, rest) := by
  induction hr generalizing v with
  | done =>
    cases hgiven
    rfl
  | other ha | stop ha =>
    cases hgiven
    rw [parseFlags]
    simp only [ha]
  | @joined a name x value f _ _ _ ha hf hx _ ih =>
    obtain ⟨u, hu, hgiven⟩ := FlagValues.assign_cons_eq_ok.mp hgiven
    have hset : v.set f x = .ok u := hu
    have hrest := ih hgiven
    cases hs : f.isSwitch with
    | false =>
      have hvalue : value = some x := by simpa [Flag.ownValue, hs] using hx
      simp [parseFlags, ha, hf, hs, hvalue, setValue, hset, Except.mapError, hrest]
    | true =>
      have hvalue : value.getD "true" = x := by simpa [Flag.ownValue, hs] using hx
      simp [parseFlags, ha, hf, hs, hvalue, setSwitch, hset, Except.mapError, hrest]
  | @apart a name x value f _ _ _ ha hf hx _ ih =>
    obtain ⟨u, hu, hgiven⟩ := FlagValues.assign_cons_eq_ok.mp hgiven
    have hset : v.set f x = .ok u := hu
    have hrest := ih hgiven
    cases hs : f.isSwitch with
    | false =>
      have hvalue : value = none := by simpa [Flag.ownValue, hs] using hx
      simp [parseFlags, ha, hf, hs, hvalue, setValue, hset, Except.mapError, hrest]
    | true => simp [Flag.ownValue, hs] at hx

/-- Reading succeeds exactly when the arguments are flags that can be set, and others. -/
theorem parseFlags_eq_ok {known : List Flag} {v w : FlagValues} {args rest : List String} :
    parseFlags known v args = .ok (w, rest) ↔
      ∃ given, Reads known args given rest ∧ v.assign given = .ok w :=
  ⟨reads_of_parseFlags, fun ⟨_, hr, hgiven⟩ => parseFlags_of_reads hr hgiven⟩

/-! ## The value of the flag -/

/-- The values that the flag for the settings file has, in order. -/
def configs (given : List Given) : List String :=
  (given.filter (·.flag = .config)).map (·.value)

theorem configs_cons (g : Given) (given : List Given) : configs (g :: given) =
    if g.flag = .config then g.value :: configs given else configs given := by
  by_cases hf : g.flag = .config <;> simp [configs, hf]

theorem FlagValues.set_config {v w : FlagValues} {f : Flag} {x : String} (h : v.set f x = .ok w) :
    w.config = if f = .config then x else v.config := by
  cases f with
  | dump | migrate | migrateTimeout | option =>
    simp only [FlagValues.set] at h
    split at h
    · cases h
      rfl
    · cases h
  | addr | config | dbUrl | generators | logFormat | logLevel | migrateCommand | out | rolesDir
    | source =>
    cases h
    rfl

/-- The last value counts. -/
theorem FlagValues.assign_config {v w : FlagValues} {given : List Given}
    (h : v.assign given = .ok w) : w.config = (configs given).getLastD v.config := by
  induction given generalizing v with
  | nil =>
    cases h
    rfl
  | cons g given ih =>
    obtain ⟨u, hu, hgiven⟩ := FlagValues.assign_cons_eq_ok.mp h
    rw [ih hgiven, FlagValues.set_config hu, configs_cons]
    by_cases hf : g.flag = .config
    · rw [if_pos hf, if_pos hf, List.getLastD_cons]
    · rw [if_neg hf, if_neg hf]

/-! ## The scan -/

/-- What an argument says of the settings file, as the scan sees it: nothing, or that it is named,
with the value behind the first `=`. Any number of dashes will do. -/
def pointer? (a : String) : Option (Option String) :=
  match a.toList with
  | '-' :: _ =>
    let cs := a.toList.dropWhile (· = '-')
    match cut? ['='] cs with
    | some (name, value) =>
      if name = "config".toList then some (some (String.ofList value)) else none
    | none => if cs = "config".toList then some none else none
  | _ => none

theorem pointer?_other {a : String} (h : ∀ tail, a.toList ≠ '-' :: tail) : pointer? a = none := by
  rw [pointer?]
  split
  next tail htext => exact absurd htext (h tail)
  next => rfl

theorem configPath_cons (a : String) (rest : List String) :
    configPath (a :: rest) = match pointer? a with
      | some value => value.getD (rest.headD "")
      | none => configPath rest := by
  rw [configPath]
  split
  next tail htext =>
    simp only [pointer?, htext]
    generalize List.dropWhile (fun c => decide (c = '-')) ('-' :: tail) = cs
    generalize "config".toList = name
    cases cut? ['='] cs with
    | some p => by_cases hname : p.1 = name <;> simp [hname]
    | none =>
      cases rest with
      | nil => by_cases hname : cs = name <;> simp [hname, configPath]
      | cons x rest => by_cases hname : cs = name <;> simp [hname]
  next hother => rw [pointer?_other hother]

/-- A flag is a name behind one dash or two. -/
theorem argumentOf_flag {a name : String} {value : Option String}
    (h : argumentOf a = .flag name value) : ∃ dashes c cs, (dashes = ['-'] ∨ dashes = ['-', '-']) ∧
      a.toList = dashes ++ c :: cs ∧ c ≠ '-' ∧ c ≠ '=' ∧ nameAndValue (c :: cs) = (name, value) := by
  rw [argumentOf] at h
  split at h
  next => cases h
  next cs _ htext =>
    cases cs with
    | nil => cases h
    | cons c cs =>
      simp only [Bool.or_eq_true, decide_eq_true_eq] at h
      split at h
      next => cases h
      next hc =>
        cases h
        exact ⟨['-', '-'], c, cs, .inr rfl, htext, fun e => hc (.inl e), fun e => hc (.inr e), rfl⟩
  next c cs _ hdash htext =>
    simp only [Bool.or_eq_true, decide_eq_true_eq] at h
    split at h
    next => cases h
    next hc =>
      cases h
      exact ⟨['-'], c, cs, .inl rfl, htext, fun e => hc (.inl e), fun e => hc (.inr e), rfl⟩
  next => cases h

/-- An argument that is a flag names the settings file if that is the name of the flag. -/
theorem pointer?_flag {a name : String} {value : Option String}
    (h : argumentOf a = .flag name value) :
    pointer? a = if name = "config" then some value else none := by
  obtain ⟨dashes, c, cs, hdashes, htext, hdash, hequals, hname⟩ := argumentOf_flag h
  have hdrop : a.toList.dropWhile (· = '-') = c :: cs := by
    rcases hdashes with rfl | rfl <;> simp [htext, hdash]
  have hcut : cut? ['='] (c :: cs) = (cut? ['='] cs).map fun p => (c :: p.1, p.2) := by
    simp [cut?, after?, Ne.symm hequals]
  have hstart : ∃ tail, a.toList = '-' :: tail := by
    rcases hdashes with rfl | rfl <;> exact ⟨_, htext⟩
  obtain ⟨tail, hstart⟩ := hstart
  have hchars (x : List Char) : x = "config".toList ↔ String.ofList x = "config" := by
    simp [← String.toList_inj]
  simp only [pointer?, hdrop, hcut, hchars]
  rw [hstart]
  rw [nameAndValue] at hname
  cases hfound : cut? ['='] cs with
  | some p =>
    rw [hfound] at hname
    cases hname
    simp
  | none =>
    rw [hfound] at hname
    cases hname
    simp

theorem pointer?_stop {a : String} (h : argumentOf a = .stop) : pointer? a = none := by
  have htext : a = "--" := by
    rw [argumentOf] at h
    split at h
    next htext => exact String.toList_inj.mp htext
    next cs _ _ =>
      cases cs with
      | nil => cases h
      | cons c cs =>
        simp only [] at h
        split at h <;> cases h
    next =>
      simp only [] at h
      split at h <;> cases h
    next => cases h
  rw [htext]
  decide

theorem Flag.name_eq_config {f : Flag} : f.name = "config" ↔ f = .config := by
  cases f <;> decide

theorem findFlag_name {known : List Flag} {name : String} {f : Flag}
    (h : findFlag known name = .ok f) : f.name = name := by
  rw [findFlag] at h
  split at h
  next g hg =>
    cases h
    simpa using List.find?_some hg
  next => cases h

/-- The scan finds the settings file where the flags have it. -/
theorem pointer?_known {known : List Flag} {a name : String} {value : Option String} {f : Flag}
    (ha : argumentOf a = .flag name value) (hf : findFlag known name = .ok f) :
    pointer? a = if f = .config then some value else none := by
  rw [pointer?_flag ha, ← findFlag_name hf]
  simp only [Flag.name_eq_config]

/-- The arguments in front of the flag for the settings file that are no flags themselves. They are
the values of other flags and, where the flag is not given, the arguments behind the flags. -/
def strays : List Given → List String → List String
  | [], rest => rest
  | g :: given, rest =>
    if g.flag = .config then [] else
      if g.apart then g.value :: strays given rest else strays given rest

/-- The scan stops at one of some arguments, and takes what that one says. -/
def StopsAt (stops args : List String) : Prop :=
  ∃ before a value after, args = before ++ a :: after ∧ a ∈ stops ∧ pointer? a = some value ∧
    configPath args = value.getD (after.headD "")

theorem StopsAt.cons {stops args : List String} (h : StopsAt stops args) {a : String}
    (ha : pointer? a = none) : StopsAt stops (a :: args) := by
  obtain ⟨before, b, value, after, rfl, hb, hpointer, hpath⟩ := h
  refine ⟨a :: before, b, value, after, rfl, hb, hpointer, ?_⟩
  rw [configPath_cons, ha]
  exact hpath

theorem StopsAt.mono {stops more args : List String} (h : StopsAt stops args)
    (hmore : stops ⊆ more) : StopsAt more args := by
  obtain ⟨before, a, value, after, hargs, ha, hrest⟩ := h
  exact ⟨before, a, value, after, hargs, hmore ha, hrest⟩

theorem stopsAt_head {a : String} {value : Option String} (h : pointer? a = some value)
    {stops : List String} (ha : a ∈ stops) (args : List String) : StopsAt stops (a :: args) := by
  refine ⟨[], a, value, args, rfl, ha, h, ?_⟩
  rw [configPath_cons, h]

/-- The scan gives a value, unless it stops at one of some arguments. -/
def Finds (stops args : List String) (x : String) : Prop :=
  (∀ a ∈ stops, pointer? a = none) ∧ configPath args = x ∨ StopsAt stops args

theorem Finds.cons {stops args : List String} {x a : String} (h : Finds stops args x)
    (ha : pointer? a = none) : Finds stops (a :: args) x := by
  rcases h with ⟨hnone, hpath⟩ | hstop
  · refine .inl ⟨hnone, ?_⟩
    rw [configPath_cons, ha]
    exact hpath
  · exact .inr (hstop.cons ha)

/-- An argument is one more at which the scan may stop. -/
theorem Finds.stop {stops args : List String} {x : String} (h : Finds stops args x) (a : String) :
    Finds (a :: stops) (a :: args) x := by
  cases ha : pointer? a with
  | some value => exact .inr (stopsAt_head ha (.head _) args)
  | none =>
    rcases h.cons ha with ⟨hnone, hpath⟩ | hstop
    · exact .inl ⟨List.forall_mem_cons.mpr ⟨ha, hnone⟩, hpath⟩
    · exact .inr (hstop.mono (List.subset_cons_self a stops))

theorem finds_self (args : List String) : Finds args args "" := by
  induction args with
  | nil => exact .inl ⟨by simp, rfl⟩
  | cons a args ih => exact ih.stop a

/-- The scan has the first value of the flag, unless it stops before at an argument that is none. -/
theorem Reads.finds {known : List Flag} {args rest : List String} {given : List Given}
    (h : Reads known args given rest) :
    Finds (strays given rest) args ((configs given).headD "") := by
  induction h with
  | done => exact finds_self []
  | @other a rest => exact finds_self (a :: rest)
  | @stop a rest ha => exact (finds_self rest).cons (pointer?_stop ha)
  | @joined a name x value f args rest given ha hf hx _ ih =>
    have hpointer := pointer?_known ha hf
    by_cases hconfig : f = .config
    · have hvalue : value = some x := by rwa [hconfig] at hx
      refine .inl ⟨by simp [strays, hconfig], ?_⟩
      rw [configPath_cons, hpointer]
      simp [hconfig, configs_cons, hvalue]
    · rw [if_neg hconfig] at hpointer
      simpa [strays, configs_cons, hconfig] using ih.cons hpointer
  | @apart a name x value f args rest given ha hf hx _ ih =>
    have hpointer := pointer?_known ha hf
    by_cases hconfig : f = .config
    · have hvalue : value = none := by rwa [hconfig] at hx
      refine .inl ⟨by simp [strays, hconfig], ?_⟩
      rw [configPath_cons, hpointer]
      simp [hconfig, configs_cons, hvalue]
    · rw [if_neg hconfig] at hpointer
      simpa [strays, configs_cons, hconfig] using (ih.stop x).cons hpointer

theorem headD_eq_getLastD {α : Type} (xs : List α) (d : α) :
    xs.headD d = xs.getLastD d ↔ xs.head? = xs.getLast? := by
  cases xs with
  | nil => simp
  | cons x xs => simp [List.getLast?_cons]

/-- Wherever the flags can be read, the flag for the settings file ends up with the last value that
it is given. The scan agrees with it exactly when that is also the first one, as long as no argument
in front of the flag names the file without being a flag. If one does the scan stops at such an
argument and takes what it says. -/
theorem configPath_agrees {known : List Flag} {v w : FlagValues} {args rest : List String}
    (h : parseFlags known v args = .ok (w, rest)) :
    ∃ given, Reads known args given rest ∧ w.config = (configs given).getLastD v.config ∧
      ((∀ a ∈ strays given rest, pointer? a = none) →
        (configPath args = (configs given).getLastD "" ↔
          (configs given).head? = (configs given).getLast?)) ∧
      ((∃ a ∈ strays given rest, pointer? a ≠ none) → StopsAt (strays given rest) args) := by
  obtain ⟨given, hr, hgiven⟩ := parseFlags_eq_ok.mp h
  refine ⟨given, hr, FlagValues.assign_config hgiven, fun hnone => ?_, fun ⟨a, ha, hpointer⟩ => ?_⟩
  · rcases hr.finds with ⟨-, hpath⟩ | ⟨before, a, value, after, -, ha, hpointer, -⟩
    · rw [hpath, headD_eq_getLastD]
    · rw [hnone a ha] at hpointer
      cases hpointer
  · rcases hr.finds with ⟨hnone, -⟩ | hstop
    · exact absurd (hnone a ha) hpointer
    · exact hstop

/-- The flag is given twice with one value. Another value and an argument behind the flags name other
files, but the scan has found the flag before. -/
def repeated : List String :=
  ["-migrate", "-db-url", "shop.db", "--config=shop.yaml", "-roles-dir", "-config=roles", "-config",
    "shop.yaml", "shop", "-config=other.yaml"]

theorem repeated_agrees :
    parseFlags Flag.common (.ofSettings default) repeated =
      .ok (⟨{ default with migrate := true, dbUrl := "shop.db", rolesDir := "-config=roles" },
        "shop.yaml", false⟩, ["shop", "-config=other.yaml"]) ∧
    Reads Flag.common repeated
      [⟨.migrate, "true", false⟩, ⟨.dbUrl, "shop.db", true⟩, ⟨.config, "shop.yaml", false⟩,
        ⟨.rolesDir, "-config=roles", true⟩, ⟨.config, "shop.yaml", true⟩]
      ["shop", "-config=other.yaml"] ∧
    configPath repeated = "shop.yaml" := by
  have hparse : parseFlags Flag.common (.ofSettings default) repeated =
      .ok (⟨{ default with migrate := true, dbUrl := "shop.db", rolesDir := "-config=roles" },
        "shop.yaml", false⟩, ["shop", "-config=other.yaml"]) := by decide +kernel
  have hreads : Reads Flag.common repeated
      [⟨.migrate, "true", false⟩, ⟨.dbUrl, "shop.db", true⟩, ⟨.config, "shop.yaml", false⟩,
        ⟨.rolesDir, "-config=roles", true⟩, ⟨.config, "shop.yaml", true⟩]
      ["shop", "-config=other.yaml"] :=
    .joined rfl rfl rfl <| .apart rfl rfl rfl <| .joined rfl rfl rfl <| .apart rfl rfl rfl <|
      .apart rfl rfl rfl <| .other rfl
  obtain ⟨given, hr, -, hagree, -⟩ := configPath_agrees hparse
  obtain ⟨rfl, -⟩ := hr.unique hreads
  exact ⟨hparse, hreads, (hagree (by decide +kernel)).mpr rfl⟩

/-- These are read without an error. In the first the flag ends up with its last value and the scan
has the first one. In the others the flag is not given, and the scan takes the value of another flag
or an argument behind the flags for it. -/
theorem configPath_misreads :
    parseFlags Flag.common (.ofSettings default) ["-config", "a.yaml", "-config", "b.yaml"] =
      .ok (⟨default, "b.yaml", false⟩, []) ∧
    configPath ["-config", "a.yaml", "-config", "b.yaml"] = "a.yaml" ∧
    parseFlags Flag.common (.ofSettings default) ["-roles-dir", "-config=a.yaml"] =
      .ok (⟨{ default with rolesDir := "-config=a.yaml" }, defaultPath, false⟩, []) ∧
    configPath ["-roles-dir", "-config=a.yaml"] = "a.yaml" ∧
    parseFlags Flag.common (.ofSettings default) ["--", "-config=a.yaml"] =
      .ok (.ofSettings default, ["-config=a.yaml"]) ∧
    configPath ["--", "-config=a.yaml"] = "a.yaml" := by
  decide +kernel

end Scaffold.Settings
