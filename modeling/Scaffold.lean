import Scaffold.Build.Application
import Scaffold.Build.Block
import Scaffold.Build.Entity
import Scaffold.Build.Relation
import Scaffold.Check.Config
import Scaffold.Check.Entity
import Scaffold.Check.GeneratedNames
import Scaffold.Check.Page
import Scaffold.Check.Role
import Scaffold.Check.Symbols
import Scaffold.Check.Typing
import Scaffold.Check.Validate
import Scaffold.Check.Violation
import Scaffold.Cli.Run
import Scaffold.Cli.Stop
import Scaffold.Client.Api
import Scaffold.Client.Files
import Scaffold.Client.Page
import Scaffold.Client.Routes
import Scaffold.Client.Script
import Scaffold.Code.Columns
import Scaffold.Code.Listing
import Scaffold.Code.Term
import Scaffold.Deploy.Compose
import Scaffold.Deploy.Environment
import Scaffold.Deploy.Files
import Scaffold.Deploy.Terraform
import Scaffold.Digest.Sha256
import Scaffold.Disk.Basic
import Scaffold.Disk.Path
import Scaffold.Generator.Builtin
import Scaffold.Generator.Options
import Scaffold.Generator.Registry
import Scaffold.Generator.Run
import Scaffold.Json.Basic
import Scaffold.Json.Printer
import Scaffold.Json.Reader
import Scaffold.Log.Line
import Scaffold.Main
import Scaffold.Meta.Endpoint
import Scaffold.Meta.Server
import Scaffold.Meta.View
import Scaffold.Migrate.Apply
import Scaffold.Migrate.Command
import Scaffold.Migrate.Program
import Scaffold.Migrate.Shell
import Scaffold.Model.Application
import Scaffold.Model.Config
import Scaffold.Model.Encode
import Scaffold.Model.Expr
import Scaffold.Model.Lint
import Scaffold.Model.Name
import Scaffold.Model.Provider
import Scaffold.Model.Type
import Scaffold.Number.Decimal
import Scaffold.Number.Double
import Scaffold.Number.Duration
import Scaffold.Output.Tree
import Scaffold.Output.Region
import Scaffold.Output.Writer
import Scaffold.Proofs.Build.Closed
import Scaffold.Proofs.Build.Inverse
import Scaffold.Proofs.Build.Kept
import Scaffold.Proofs.Build.Literal
import Scaffold.Proofs.Build.Lowered
import Scaffold.Proofs.Build.Order
import Scaffold.Proofs.Build.Record
import Scaffold.Proofs.Build.Relation
import Scaffold.Proofs.Check.Clash
import Scaffold.Proofs.Check.Config
import Scaffold.Proofs.Check.Cycle
import Scaffold.Proofs.Check.Entity
import Scaffold.Proofs.Check.GeneratedNames
import Scaffold.Proofs.Check.Order
import Scaffold.Proofs.Check.Page
import Scaffold.Proofs.Check.Report
import Scaffold.Proofs.Check.Roles
import Scaffold.Proofs.Check.Symbols
import Scaffold.Proofs.Check.Typing
import Scaffold.Proofs.Check.Unresolved
import Scaffold.Proofs.Client.Agreement
import Scaffold.Proofs.Client.Bare
import Scaffold.Proofs.Client.Outline
import Scaffold.Proofs.Code.Bare
import Scaffold.Proofs.Code.Layout
import Scaffold.Proofs.Code.Numeral
import Scaffold.Proofs.Code.Reading
import Scaffold.Proofs.Deploy.Variables
import Scaffold.Proofs.Disk.Basic
import Scaffold.Proofs.Disk.Path
import Scaffold.Proofs.Generator.Again
import Scaffold.Proofs.Generator.Confined
import Scaffold.Proofs.Generator.Isolation
import Scaffold.Proofs.Generator.Registry
import Scaffold.Proofs.Generator.Run
import Scaffold.Proofs.Json.Bare
import Scaffold.Proofs.Json.Number
import Scaffold.Proofs.Json.RoundTrip
import Scaffold.Proofs.Lists
import Scaffold.Proofs.Meta.LastGood
import Scaffold.Proofs.Model.Printed
import Scaffold.Proofs.Model.Texts
import Scaffold.Proofs.Outcome
import Scaffold.Proofs.Output.Chunk
import Scaffold.Proofs.Output.Frame
import Scaffold.Proofs.Output.History
import Scaffold.Proofs.Output.Marker
import Scaffold.Proofs.Output.Merge
import Scaffold.Proofs.Output.Splice
import Scaffold.Proofs.Output.Unmarked
import Scaffold.Proofs.Output.Writer
import Scaffold.Proofs.Output.Written
import Scaffold.Proofs.Regions
import Scaffold.Proofs.Rest.Bare
import Scaffold.Proofs.Rest.RoundTrip
import Scaffold.Proofs.Secrecy
import Scaffold.Proofs.Server.Bare
import Scaffold.Proofs.Server.Inputs
import Scaffold.Proofs.Server.Members
import Scaffold.Proofs.Server.Names
import Scaffold.Proofs.Server.Numerals
import Scaffold.Proofs.Server.Readback
import Scaffold.Proofs.Server.Resolvers
import Scaffold.Proofs.Server.Typing
import Scaffold.Proofs.Server.Workflows
import Scaffold.Proofs.Settings.Flag
import Scaffold.Proofs.Source.Accepted
import Scaffold.Proofs.Source.Derived
import Scaffold.Proofs.Source.Extent
import Scaffold.Proofs.Source.FormulaGrammar
import Scaffold.Proofs.Source.Grammar
import Scaffold.Proofs.Source.Names
import Scaffold.Proofs.Source.Spelling
import Scaffold.Proofs.Source.Termination
import Scaffold.Proofs.Source.Unambiguous
import Scaffold.Proofs.Source.Values
import Scaffold.Proofs.Storage.Bare
import Scaffold.Proofs.Storage.Bytes
import Scaffold.Proofs.Storage.Failure
import Scaffold.Proofs.Storage.Names
import Scaffold.Proofs.Storage.Pieces
import Scaffold.Proofs.Storage.Plan
import Scaffold.Proofs.Storage.Policy
import Scaffold.Proofs.Storage.References
import Scaffold.Proofs.Storage.Script
import Scaffold.Proofs.Text.Encoding
import Scaffold.Proofs.Text.Search
import Scaffold.Proofs.Text.Words
import Scaffold.Proofs.Unguarded.Build
import Scaffold.Proofs.Unguarded.Check
import Scaffold.Proofs.Unguarded.Client
import Scaffold.Proofs.Unguarded.Lexer
import Scaffold.Proofs.Unguarded.Pipeline
import Scaffold.Proofs.Unguarded.Region
import Scaffold.Proofs.Unguarded.Relation
import Scaffold.Proofs.Unguarded.Server
import Scaffold.Proofs.Unguarded.Storage
import Scaffold.Proofs.Warnings
import Scaffold.Rest.Decode
import Scaffold.Rest.Schema
import Scaffold.Roles.Catalog
import Scaffold.Server.Files
import Scaffold.Server.Records
import Scaffold.Server.Resolvers
import Scaffold.Server.Workflows
import Scaffold.Settings.Basic
import Scaffold.Settings.EnvFile
import Scaffold.Settings.Flag
import Scaffold.Settings.Load
import Scaffold.Source.Decl
import Scaffold.Source.Formula
import Scaffold.Source.Lexer
import Scaffold.Source.Load
import Scaffold.Source.Parser
import Scaffold.Source.Position
import Scaffold.Source.Token
import Scaffold.Storage.Ddl
import Scaffold.Storage.Plan
import Scaffold.Storage.Script
import Scaffold.Text.Case
import Scaffold.Text.Digits
import Scaffold.Text.Letter
import Scaffold.Text.Printable
import Scaffold.Text.Quoted
import Scaffold.Text.Search
import Scaffold.Text.Span
import Scaffold.Text.Timestamp
import Scaffold.Text.Utf8
import Scaffold.Text.Words
import Scaffold.Yaml.Decode
import Scaffold.Yaml.Glyph
import Scaffold.Yaml.Lexeme
import Scaffold.Yaml.Printer
import Scaffold.Yaml.Scalar
import Scaffold.Yaml.Token
import Scaffold.Yaml.Value
