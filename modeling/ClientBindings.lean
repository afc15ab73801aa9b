import ClientBindings.Check.Issue
import ClientBindings.Check.Layout
import ClientBindings.Check.Run
import ClientBindings.Check.SchemaSource
import ClientBindings.Client.Crud
import ClientBindings.Client.CustomMethod
import ClientBindings.Client.Declaration
import ClientBindings.Client.File
import ClientBindings.Client.Identifier
import ClientBindings.Client.Lines
import ClientBindings.Client.Method
import ClientBindings.Client.Shared
import ClientBindings.Client.Subscribe
import ClientBindings.Client.TypeExpr
import ClientBindings.CommandLine.Arguments
import ClientBindings.CommandLine.Tool
import ClientBindings.Decimal.Binary64
import ClientBindings.Decimal.Shortest
import ClientBindings.Entries
import ClientBindings.Files.Path
import ClientBindings.Files.Tree
import ClientBindings.Functions.Config
import ClientBindings.Functions.Custom
import ClientBindings.Functions.Merge
import ClientBindings.Functions.Standard
import ClientBindings.Generate.Error
import ClientBindings.Generate.Run
import ClientBindings.Json.Basic
import ClientBindings.Json.Numeral
import ClientBindings.Json.Reader
import ClientBindings.Json.Record
import ClientBindings.Json.Token
import ClientBindings.Main
import ClientBindings.Model.FieldType
import ClientBindings.Model.Registry
import ClientBindings.Model.Resolution
import ClientBindings.Model.Table
import ClientBindings.Proofs.Check.Accounting
import ClientBindings.Proofs.Check.DeclaredTables
import ClientBindings.Proofs.Check.TableEntries
import ClientBindings.Proofs.Client.ChildRows
import ClientBindings.Proofs.Client.DistinctNames
import ClientBindings.Proofs.Client.Endpoints
import ClientBindings.Proofs.Client.EnumCases
import ClientBindings.Proofs.Client.Links
import ClientBindings.Proofs.Client.References
import ClientBindings.Proofs.Client.SentArguments
import ClientBindings.Proofs.Client.TableRecords
import ClientBindings.Proofs.Client.TargetAgreement
import ClientBindings.Proofs.Client.TypeNames
import ClientBindings.Proofs.Client.WireValues
import ClientBindings.Proofs.Entries
import ClientBindings.Proofs.Functions.Gaps
import ClientBindings.Proofs.Functions.Merging
import ClientBindings.Proofs.Generate.Dependence
import ClientBindings.Proofs.Generate.Destinations
import ClientBindings.Proofs.Registry.History
import ClientBindings.Proofs.Registry.Order
import ClientBindings.Proofs.Registry.Registration
import ClientBindings.Proofs.Resolution.Agreement
import ClientBindings.Proofs.Resolution.Naming
import ClientBindings.Proofs.Resolution.Stability
import ClientBindings.Proofs.Resolution.Unfolding
import ClientBindings.Proofs.Resolution.Unsupported
import ClientBindings.Proofs.Schema.Documents
import ClientBindings.Proofs.Schema.Reading
import ClientBindings.Proofs.Source.Boundary
import ClientBindings.Proofs.Source.Completeness
import ClientBindings.Proofs.Source.Declarators
import ClientBindings.Proofs.Source.FactorySites
import ClientBindings.Proofs.Source.Locality
import ClientBindings.Proofs.Source.MaskedBytes
import ClientBindings.Proofs.Source.Masking
import ClientBindings.Proofs.Source.Names
import ClientBindings.Proofs.Source.Nesting
import ClientBindings.Proofs.Source.Patterns
import ClientBindings.Proofs.Source.Places
import ClientBindings.Proofs.Source.Provenance
import ClientBindings.Proofs.Source.Scanning
import ClientBindings.Proofs.Source.Slices
import ClientBindings.Proofs.Source.Soundness
import ClientBindings.Proofs.Table.RowFields
import ClientBindings.Proofs.Text.ByteOrder
import ClientBindings.Proofs.Text.CamelNames
import ClientBindings.Schema.Document
import ClientBindings.Schema.Validator
import ClientBindings.Source.Bracket
import ClientBindings.Source.Export
import ClientBindings.Source.FactoryCall
import ClientBindings.Source.Lexing
import ClientBindings.Source.Module
import ClientBindings.Source.Pattern
import ClientBindings.Text.Alphabet
import ClientBindings.Text.Blank
import ClientBindings.Text.CamelCase
import ClientBindings.Text.Case
import ClientBindings.Text.CaseTable
import ClientBindings.Text.Cut
import ClientBindings.Proofs.Source.Depth
import ClientBindings.Proofs.Schema.RepeatedNames
