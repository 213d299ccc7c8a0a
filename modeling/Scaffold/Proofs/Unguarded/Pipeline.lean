import Scaffold.Proofs.Source.Progress
import Scaffold.Proofs.Unguarded.Client
import Scaffold.Proofs.Unguarded.Lexer
import Scaffold.Proofs.Unguarded.Server
import Scaffold.Server.Workflows

/-! # The pipeline without a guard

From the bytes of a source to everything that is generated from it. Each stage relies on what the
stages before it have refused, and none of them reaches an access that is out of range. -/
namespace Scaffold.Unguarded

open Scaffold.Source Scaffold.Check Scaffold.Model Scaffold.Build Scaffold.Storage
open Scaffold.Generator (Requested OptionError resolve)

/-! ## Compilation -/

/-- The tree of a token list; a parser that stalls gives nothing. -/
def parseTokens? (file : String) (tokens : List Token) : Option (Except ParseError File) :=
  match parseTokens file tokens with
  | .error .stalled => none
  | r => some r

def parseSource? (path : String) (source : List Nat) : Option (Except SourceError File) := do
  match ← lex? source with
  | .error e => some (.error ⟨path, .lexical e⟩)
  | .ok tokens => do
    match ← parseTokens? path tokens with
    | .error e => some (.error ⟨path, .structural e⟩)
    | .ok f => some (.ok f)

def compile? (path : String) (source : List Nat) (opts : CompileOptions) :
    Option (Except CompileError Application) := do
  match ← parseSource? path source with
  | .error e => some (.error (.source e))
  | .ok f => do
    match ← validate? f opts.roles with
    | .error ds => some (.error (.semantic ds))
    | .ok c => do
      let app ← build? c.symbols opts.name
      some (.ok app)

theorem parseTokens?_eq (file : String) {tokens : List Token} (h : Grammar.EndsOnce tokens) :
    parseTokens? file tokens = some (parseTokens file tokens) := by
  have hstalled := parseTokens_ne_stalled file h
  unfold parseTokens?
  split
  next herr => exact absurd herr hstalled
  next => rfl

theorem parseSource?_eq (path : String) (source : List Nat) :
    parseSource? path source = some (parseSource path (Text.decode source)) := by
  simp only [parseSource?, lex?_eq, Option.bind_eq_bind, Option.bind_some, parseSource]
  cases hl : lex (Text.decode source) with
  | error e => rfl
  | ok tokens =>
    simp only [parseTokens?_eq path (lexFrom_spelled hl).1, Option.bind_some]
    cases parseTokens path tokens <;> rfl

theorem compile?_eq (path : String) (source : List Nat) (opts : CompileOptions) :
    compile? path source opts = some (compile path (Text.decode source) opts) := by
  simp only [compile?, parseSource?_eq, Option.bind_eq_bind, Option.bind_some, compile]
  cases hf : parseSource path (Text.decode source) with
  | error e => rfl
  | ok f =>
    simp only [validate?_eq, Option.bind_some, compileFile]
    cases hc : validate f opts.roles with
    | error ds => rfl
    | ok c =>
      obtain ⟨hsymbols, -, haccepted⟩ := validate_accepted hc
      rw [hsymbols] at haccepted
      have hn := entitiesNamed_of_named (parseSource_named hf)
      simp only [hsymbols, build?_eq haccepted hn (pathsNamed_of_parseSource hf), Option.bind_some]

/-! ## Generation -/

/-- What is generated from an application. -/
structure Generated where
  options : Except OptionError Generator.Options
  tables : Except PlanError (List Table)
  script : Except DdlError String
  schema : Except OptionError Rest.Schema
  records : Except PlanError (List Server.Record)
  /-- Or the field that a formula misses. -/
  resolvers : Except String (List Draft)
  workflows : Code.Listing
  client : Except OptionError (Except Client.FileError Output.Tree)

/-- The file of a server that the client is made from. -/
def schemaTree (a : Application) (o : Generator.Options) : Output.Tree :=
  ((Rest.schemaOf a o).json.lines?.map fun text => (Server.schemaPath, text ++ "\n")).toList

def generated (a : Application) (requested : Requested) (database : String) : Generated where
  options := resolve requested a
  tables := plan a
  script := ddlFor a database
  schema := (resolve requested a).map (Rest.schemaOf a)
  records := (plan a).map (Server.records a)
  resolvers := .ok ((Server.resolvers a).map draft)
  workflows := Server.workflowListing a
  client := (resolve requested a).map fun o => Client.files (schemaTree a o)

/-- The result of a step on what an earlier one gave, if it gave something. -/
def mapOk? {ε α β : Type} (x : Except ε α) (f : α → Option β) : Option (Except ε β) :=
  andThen? (some x) fun a => (f a).map .ok

def ddl? (a : Application) (database : String) : Option (Except DdlError String) :=
  match Database.ofName? database with
  | none => some (.error (.unsupported database))
  | some db => do
    match ← plan? a with
    | .error e => some (.error (.plan e))
    | .ok tables => some (.ok (schemaScript db a tables))

def generate? (a : Application) (requested : Requested) (database : String) : Option Generated := do
  let tables ← plan? a
  let script ← ddl? a database
  let records ← mapOk? tables (records? a)
  let resolvers ← resolvers? a
  let client ← mapOk? (resolve requested a) fun o => client? (schemaTree a o)
  some
    { options := resolve requested a
      tables := tables
      script := script
      schema := (resolve requested a).map (Rest.schemaOf a)
      records := records
      resolvers := resolvers
      workflows := Server.workflowListing a
      client := client }

theorem mapOk?_eq {ε α β : Type} {x : Except ε α} {f : α → Option β} {g : α → β}
    (h : ∀ a, x = .ok a → f a = some (g a)) : mapOk? x f = some (x.map g) := by
  cases x with
  | error e => rfl
  | ok a => simp [mapOk?, andThen?, h a rfl, Except.map]

theorem ddl?_eq {a : Application} {given : List String} (ha : Plannable a given)
    (database : String) : ddl? a database = some (ddlFor a database) := by
  cases hdb : Database.ofName? database with
  | none => simp [ddl?, ddlFor, hdb]
  | some db =>
    simp only [ddl?, ddlFor, hdb, plan?_eq ha, Option.bind_eq_bind, Option.bind_some, ddl]
    cases plan a <;> rfl

/-- The client reads the schema that the server wrote. -/
theorem client?_eq {a : Application} {o : Generator.Options} (h : (Rest.schemaOf a o).Named) :
    client? (schemaTree a o) = some (Client.files (schemaTree a o)) := by
  obtain ⟨text, htext, hread⟩ := Rest.ofText?_lines h
  have hget : Output.Tree.get? (schemaTree a o) Server.schemaPath = some (text ++ "\n") := by
    simp [schemaTree, htext, Output.Tree.get?]
  simp only [client?, Client.files, hget, hread]
  exact filesOf?_eq a o

theorem generate?_eq {path : String} {source : List Text.Rune} {opts : CompileOptions}
    {a : Application} (h : compile path source opts = .ok a) (requested : Requested)
    (database : String) :
    generate? a requested database = some (generated a requested database) := by
  have hplannable := compile_plannable h
  obtain ⟨hnone, hschema⟩ : a.entity? "" = none ∧ ∀ o, (Rest.schemaOf a o).Named := by
    obtain ⟨f, -, hnamed, -, rfl⟩ := compile_ok h
    exact ⟨Server.build_entity?_empty (entitiesNamed_of_named hnamed) opts.name,
      Rest.schemaOf_build_named _ _⟩
  have hrecords := mapOk?_eq fun tables htables => records?_eq hplannable.closed hnone htables
  have hclient := mapOk?_eq fun o (_ : resolve requested a = .ok o) => client?_eq (hschema o)
  simp only [generate?, plan?_eq hplannable, ddl?_eq hplannable, resolvers?_eq hplannable.closed,
    hrecords, hclient, Option.bind_eq_bind, Option.bind_some]
  rfl

/-! ## Runs -/

/-- A source is compiled, and everything is generated from its application. -/
def run (path : String) (source : List Nat) (opts : CompileOptions) (requested : Requested)
    (database : String) : Except CompileError Generated :=
  (compile path (Text.decode source) opts).map fun a => generated a requested database

def run? (path : String) (source : List Nat) (opts : CompileOptions) (requested : Requested)
    (database : String) : Option (Except CompileError Generated) := do
  let compiled ← compile? path source opts
  mapOk? compiled fun a => generate? a requested database

/-- No access is out of range: whatever the bytes of a source, its path, the roles and the options,
every stage gives a result or an error. The functions on texts and values that the stages share do
so for all arguments, and no parser stalls. -/
theorem run_never_crashes :
    (∀ s, words? s = some ((Text.words s).map String.toList) ∧ pascal? s = some (Text.pascal s) ∧
      camel? s = some (Text.camel s) ∧ plural? s = some (plural s)) ∧
    (∀ fresh existing, mergeRegions? fresh existing = some (Output.mergeRegions fresh existing)) ∧
    (∀ tokens pos n, tokenAt? tokens (pos + n) =
      some (Tokens.peekAt n ⟨tokens.drop pos, tokens.getLastD Token.none⟩)) ∧
    (∀ source, lex? source = some (lex (Text.decode source))) ∧
    (∀ file formula, parseFormula formula ≠ .error ⟨file, .structural .stalled⟩) ∧
    (∀ v, nameOf? v = some (Check.nameOf? v)) ∧
    (∀ path, strays? path = some (path.length > 1 && path.head? ≠ some "trigger")) ∧
    (∀ file roles, validate? file roles = some (validate file roles)) ∧
    ∀ path source opts requested database, run? path source opts requested database =
      some (run path source opts requested database) := by
  refine ⟨fun s => ⟨words?_eq s, pascal?_eq s, camel?_eq s, plural?_eq s⟩, mergeRegions?_eq,
    tokenAt?_eq, lex?_eq, parseFormula_ne_stalled, nameOf?_eq, strays?_eq,
    validate?_eq, ?_⟩
  intro path source opts requested database
  rw [run?, compile?_eq]
  exact mapOk?_eq fun a ha => generate?_eq ha requested database

end Scaffold.Unguarded
