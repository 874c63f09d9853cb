import ContractGraph.Analysis.Cycle
import ContractGraph.Analysis.Plan
import ContractGraph.Analysis.Validation
import ContractGraph.Calendar.Basic
import ContractGraph.Calendar.Reader
import ContractGraph.CommandLine.Arguments
import ContractGraph.CommandLine.Command
import ContractGraph.CommandLine.Layout
import ContractGraph.CommandLine.Markup
import ContractGraph.CommandLine.Path
import ContractGraph.CommandLine.Picture
import ContractGraph.CommandLine.Style
import ContractGraph.Compiler.Artifact
import ContractGraph.Compiler.Diagnostic
import ContractGraph.Compiler.Generation
import ContractGraph.Compiler.Interface
import ContractGraph.Compiler.Local
import ContractGraph.Compiler.Request
import ContractGraph.Data.Access
import ContractGraph.Data.Display
import ContractGraph.Data.NumberSet
import ContractGraph.Data.Value
import ContractGraph.Graph.Basic
import ContractGraph.Graph.Blueprint
import ContractGraph.Graph.Display
import ContractGraph.Graph.Edit
import ContractGraph.Graph.Kind
import ContractGraph.Graph.Operator
import ContractGraph.Graph.Palette
import ContractGraph.Graph.Template
import ContractGraph.Json.Reader
import ContractGraph.Json.Token
import ContractGraph.Json.Writer
import ContractGraph.Main
import ContractGraph.Notice
import ContractGraph.Number.Double
import ContractGraph.Number.Power
import ContractGraph.Number.Shortest
import ContractGraph.Project
import ContractGraph.Proofs.Graph.LastWins
import ContractGraph.Proofs.Graph.Layout
import ContractGraph.Proofs.Graph.Traversal
import ContractGraph.Proofs.Graph.Wiring
import ContractGraph.Proofs.Source.Code
import ContractGraph.Proofs.Source.ExprReader
import ContractGraph.Proofs.Source.Flow
import ContractGraph.Proofs.Source.Unfolding
import ContractGraph.Schema.Artifact
import ContractGraph.Schema.Checked
import ContractGraph.Schema.Graph
import ContractGraph.Schema.Options
import ContractGraph.Schema.Portable
import ContractGraph.Schema.Project
import ContractGraph.Schema.SolType
import ContractGraph.Session
import ContractGraph.SolType.Basic
import ContractGraph.SolType.Parameter
import ContractGraph.SolType.Reader
import ContractGraph.Source.Emission
import ContractGraph.Source.Expression
import ContractGraph.Source.Statement
import ContractGraph.Storage
import ContractGraph.Table
import ContractGraph.Text.Base64
import ContractGraph.Text.Blank
import ContractGraph.Text.DecimalDigit
import ContractGraph.Text.Half
import ContractGraph.Text.Identifier
import ContractGraph.Text.LetterCase
import ContractGraph.Text.LowerCase
import ContractGraph.Text.Printable
import ContractGraph.Text.Quoted
import ContractGraph.Yaml.Document
import ContractGraph.Yaml.Lexeme
import ContractGraph.Yaml.Lexer
import ContractGraph.Yaml.Place
import ContractGraph.Yaml.Reader
import ContractGraph.Yaml.Scalar
import ContractGraph.Yaml.Tag
import ContractGraph.Yaml.Token
import ContractGraph.Yaml.Writer
import ContractGraph.Proofs.Analysis.Cycle
import ContractGraph.Proofs.Analysis.Valid
import ContractGraph.Proofs.Source.Silent
import ContractGraph.Proofs.Source.Reach
import ContractGraph.Proofs.Source.Blocks
import ContractGraph.Proofs.Source.Skeleton
import ContractGraph.Proofs.Source.Simulation
import ContractGraph.Proofs.Source.Renaming
import ContractGraph.Proofs.Source.Reordering
import ContractGraph.Proofs.Source.Liveness
import ContractGraph.Proofs.Schema.Usable
import ContractGraph.Proofs.Storage.Reported
import ContractGraph.Proofs.Calendar.Iso
import ContractGraph.Proofs.Schema.Portable
import ContractGraph.Proofs.Schema.RoundTrip
import ContractGraph.Proofs.Storage.RoundTrip
import ContractGraph.Proofs.Schema.Keyed
import ContractGraph.Proofs.Graph.Construction
import ContractGraph.Proofs.Analysis.WellFormed
import ContractGraph.Proofs.Compiler.Outcome
import ContractGraph.Proofs.Analysis.Deletion
import ContractGraph.Proofs.Source.Walk
import ContractGraph.Proofs.Source.Unguarded
import ContractGraph.Proofs.Source.Quoting
import ContractGraph.Proofs.Source.LineBreaks
import ContractGraph.Proofs.SolType.Fits
import ContractGraph.Proofs.SolType.Grammar
import ContractGraph.Proofs.Text.Words
import ContractGraph.Proofs.SolType.ParameterList
import ContractGraph.Proofs.SolType.Brackets
import ContractGraph.Proofs.Analysis.Elementary
import ContractGraph.Proofs.Analysis.Countdown
import ContractGraph.Proofs.Analysis.Listing
import ContractGraph.Proofs.Data.Access
import ContractGraph.Proofs.Data.Message
import ContractGraph.Proofs.Compiler.Interface
import ContractGraph.Proofs.Compiler.Provenance
import ContractGraph.Proofs.Compiler.Submission
import ContractGraph.Proofs.Text.Literal
import ContractGraph.Proofs.Text.Identifier
import ContractGraph.Proofs.Source.Titles
import ContractGraph.Proofs.Compiler.Version
import ContractGraph.Proofs.Source.Calls
import ContractGraph.Proofs.Source.Rounds
import ContractGraph.Proofs.Source.Depth
