import Scaffold.Code.Columns
import Scaffold.Deploy.Environment
import Scaffold.Text.Search

/-! # Terraform module

The database of an application as a Terraform module. Every secret is a sensitive variable. -/
namespace Scaffold.Deploy

open Scaffold.Model Scaffold.Generator
open Scaffold.Code (aligned)
open Scaffold.Text (snake downcase unlines)

structure Variable where
  name : String
  /-- The empty text stands for no default. -/
  default : String
  sensitive : Bool
  deriving DecidableEq, Repr

/-- A block of attributes; what it is, and its labels. -/
structure Block where
  kind : String
  labels : List String
  attributes : List (String × String)
  deriving DecidableEq, Repr

/-- A string of the module. -/
def literal (s : String) : String := "\"" ++ s ++ "\""

def Block.lines (b : Block) : List String :=
  [" ".intercalate (b.kind :: b.labels.map literal) ++ " \x7b"] ++
    (aligned (b.attributes.map fun (k, v) => [k, "= " ++ v])).map ("  " ++ ·) ++ ["\x7d", ""]

def Variable.block (v : Variable) : Block :=
  ⟨"variable", [v.name], [("type", "string")] ++
    (if v.default = "" then [] else [("default", literal v.default)]) ++
    (if v.sensitive then [("sensitive", "true")] else [])⟩

def databaseVariables (o : Options) : List Variable :=
  match o.database with
  | .postgresql =>
    [⟨"db_host", "localhost", false⟩, ⟨"db_port", "5432", false⟩, ⟨"db_password", "", true⟩]
  | .sqlite => []

def secretVariables (a : Application) : List Variable :=
  a.config.secrets.map fun name => ⟨downcase name, "", true⟩

def resourceBlocks (a : Application) (o : Options) : List Block :=
  let db := snake a.name
  match o.database with
  | .postgresql =>
    [⟨"provider", ["postgresql"],
      [("host", "var.db_host"), ("port", "var.db_port"), ("username", literal db),
        ("password", "var.db_password"), ("sslmode", literal "disable")]⟩,
      ⟨"resource", ["postgresql_database", db], [("name", literal db), ("owner", literal db)]⟩]
  | .sqlite =>
    [⟨"resource", ["local_file", db ++ "_data"],
      [("filename", literal "../data/.keep"), ("content", literal "")]⟩]

/-- The provider that the module needs: its name, where it is found, and its version. -/
def provider (o : Options) : String × String × String :=
  match o.database with
  | .postgresql => ("postgresql", "cyrilgdn/postgresql", "~> 1.22")
  | .sqlite => ("local", "hashicorp/local", "~> 2.5")

def providerLines (o : Options) : List String :=
  let (name, source, version) := provider o
  ["terraform \x7b",
    "  required_providers \x7b",
    "    " ++ name ++ " = \x7b",
    "      source  = " ++ literal source,
    "      version = " ++ literal version,
    "    \x7d",
    "  \x7d",
    "\x7d",
    ""]

/-- The blocks of the module after its providers, in order. -/
def moduleBlocks (a : Application) (o : Options) : List Block :=
  (databaseVariables o).map Variable.block ++ resourceBlocks a o ++
    (secretVariables a).map Variable.block

def terraformModule (a : Application) (o : Options) : String :=
  unlines (["# " ++ Output.generatedHeader, ""] ++ providerLines o ++
    (moduleBlocks a o).flatMap Block.lines)

end Scaffold.Deploy
