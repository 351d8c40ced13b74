import FeatureAlignment.Alignment.Basic
import FeatureAlignment.Alignment.Codec
import FeatureAlignment.Alignment.Validation
import FeatureAlignment.Cell.Classification
import FeatureAlignment.Cell.Expression
import FeatureAlignment.Cell.Placement
import FeatureAlignment.Command.Arguments
import FeatureAlignment.Command.Files
import FeatureAlignment.Command.Run
import FeatureAlignment.Command.Usage
import FeatureAlignment.Compilation.Report
import FeatureAlignment.Compilation.Run
import FeatureAlignment.Condition.Basic
import FeatureAlignment.Condition.Codec
import FeatureAlignment.Config.Basic
import FeatureAlignment.Config.Codec
import FeatureAlignment.Data.Basic
import FeatureAlignment.Data.Decode
import FeatureAlignment.Data.Json.Printer
import FeatureAlignment.Data.Json.Reader
import FeatureAlignment.Data.Json.Token
import FeatureAlignment.Data.Scalar
import FeatureAlignment.Data.Yaml.Printer
import FeatureAlignment.Data.Yaml.Quoting
import FeatureAlignment.Data.Yaml.Reader
import FeatureAlignment.Data.Yaml.Scalar
import FeatureAlignment.Data.Yaml.Spot
import FeatureAlignment.Data.Yaml.Token
import FeatureAlignment.Digest
import FeatureAlignment.Document.Basic
import FeatureAlignment.Document.Codec
import FeatureAlignment.Document.Render
import FeatureAlignment.Document.Xml
import FeatureAlignment.Expr
import FeatureAlignment.Expr.Pattern
import FeatureAlignment.Failure
import FeatureAlignment.Function
import FeatureAlignment.Join.Install
import FeatureAlignment.Join.Plan
import FeatureAlignment.Join.Search
import FeatureAlignment.JsonSchema.Alignment
import FeatureAlignment.JsonSchema.Basic
import FeatureAlignment.JsonSchema.Documents
import FeatureAlignment.Literal
import FeatureAlignment.Main
import FeatureAlignment.Number.Double
import FeatureAlignment.Number.Shortest
import FeatureAlignment.Path.Basic
import FeatureAlignment.Path.Resolution
import FeatureAlignment.Proofs.Build
import FeatureAlignment.Proofs.Cell.Deposited
import FeatureAlignment.Proofs.Cell.Effect
import FeatureAlignment.Proofs.Cell.Verdict
import FeatureAlignment.Proofs.Compilation.Atomicity
import FeatureAlignment.Proofs.Compilation.Elementary
import FeatureAlignment.Proofs.Compilation.History
import FeatureAlignment.Proofs.Compilation.Links
import FeatureAlignment.Proofs.Compilation.Order
import FeatureAlignment.Proofs.Compilation.Run
import FeatureAlignment.Proofs.Join.Installed
import FeatureAlignment.Proofs.Join.Planned
import FeatureAlignment.Proofs.Join.Reached
import FeatureAlignment.Proofs.Join.Told
import FeatureAlignment.Proofs.Path.Along
import FeatureAlignment.Proofs.Path.Behind
import FeatureAlignment.Proofs.Path.Crossings
import FeatureAlignment.Proofs.Path.Named
import FeatureAlignment.Proofs.Path.Steps
import FeatureAlignment.Proofs.Registry.Change
import FeatureAlignment.Proofs.Registry.Contents
import FeatureAlignment.Proofs.Registry.Growth
import FeatureAlignment.Proofs.Registry.Naming
import FeatureAlignment.Proofs.Registry.Operations
import FeatureAlignment.Proofs.Registry.Positions
import FeatureAlignment.Proofs.Registry.Quiet
import FeatureAlignment.Proofs.Registry.Settled
import FeatureAlignment.Proofs.Registry.Sound
import FeatureAlignment.Proofs.Registry.Written
import FeatureAlignment.Proofs.Schema.Nodes
import FeatureAlignment.QName
import FeatureAlignment.Registry.Basic
import FeatureAlignment.Rule.Basic
import FeatureAlignment.Rule.Condition
import FeatureAlignment.Rule.Draft
import FeatureAlignment.Schema.Basic
import FeatureAlignment.Schema.Codec
import FeatureAlignment.Template.Basic
import FeatureAlignment.Template.Reader
import FeatureAlignment.Template.Render
import FeatureAlignment.Text
import FeatureAlignment.Text.CaseTable
import FeatureAlignment.Text.Lowercase
import FeatureAlignment.TextMap
import FeatureAlignment.Proofs.Compilation.Interleaving
import FeatureAlignment.Proofs.Cell.Explained
import FeatureAlignment.Proofs.Compilation.Bound
import FeatureAlignment.Proofs.Compilation.Explained
import FeatureAlignment.Proofs.Rule.Clauses
import FeatureAlignment.Proofs.Rule.Sharing
import FeatureAlignment.Proofs.Rule.Meaning
import FeatureAlignment.Proofs.Rule.Prefixes
import FeatureAlignment.Proofs.Rule.Written
import FeatureAlignment.Proofs.Rule.Closed
import FeatureAlignment.Proofs.Rule.Agreement
import FeatureAlignment.Proofs.Data.Json
import FeatureAlignment.Proofs.Data.Reader
import FeatureAlignment.Proofs.Data.Decode
import FeatureAlignment.Proofs.Condition.Codec
import FeatureAlignment.Proofs.Alignment.Codec
import FeatureAlignment.Proofs.Document.Tree
import FeatureAlignment.Proofs.Document.Xml
import FeatureAlignment.Proofs.Compilation.Accounting
import FeatureAlignment.Proofs.Compilation.FailFast
import FeatureAlignment.Proofs.Compilation.Propagation
import FeatureAlignment.Proofs.Registry.Origins
import FeatureAlignment.Proofs.Compilation.Origins
import FeatureAlignment.Proofs.Alignment.Validation
import FeatureAlignment.Proofs.Condition.Check
import FeatureAlignment.Proofs.Compilation.Validated
import FeatureAlignment.Proofs.Registry.Keyed
import FeatureAlignment.Proofs.Registry.Calm
import FeatureAlignment.Proofs.Registry.Built
import FeatureAlignment.Proofs.Registry.Framed
import FeatureAlignment.Proofs.Cell.Labels
import FeatureAlignment.Proofs.Cell.Framed
import FeatureAlignment.Proofs.Join.Repeated
import FeatureAlignment.Proofs.Cell.Repeated
import FeatureAlignment.Proofs.Compilation.Guarded
import FeatureAlignment.Proofs.Join.Chained
import FeatureAlignment.Proofs.Join.Framed
import FeatureAlignment.Proofs.Path.Transparent
import FeatureAlignment.Proofs.Cell.Decorated
import FeatureAlignment.Proofs.Path.Unresolved
import FeatureAlignment.Proofs.Literal
import FeatureAlignment.Proofs.Expr.Unambiguous
import FeatureAlignment.Proofs.Expr.Value
import FeatureAlignment.Proofs.Expr.Pattern
import FeatureAlignment.Proofs.Cell.Classified
import FeatureAlignment.Proofs.Cell.Sources
import FeatureAlignment.Proofs.Cell.Filled
import FeatureAlignment.Proofs.Join.Searched
import FeatureAlignment.Proofs.Path.Walked
import FeatureAlignment.Proofs.Compilation.Landed
import FeatureAlignment.Proofs.Number.Rounding
import FeatureAlignment.Proofs.Number.Shortest
import FeatureAlignment.Proofs.Number.Written
import FeatureAlignment.Proofs.Data.Scalar
import FeatureAlignment.Proofs.Alignment.Lookup
import FeatureAlignment.Proofs.Literal.Exact
import FeatureAlignment.Proofs.Registry.Unambiguous
import FeatureAlignment.Proofs.Compilation.Spots
import FeatureAlignment.Proofs.Compilation.Targets
import FeatureAlignment.Proofs.Compilation.Apart
import FeatureAlignment.Proofs.Rule.Constants
