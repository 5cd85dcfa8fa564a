import WorkflowTemplates.Decimal.Binary64
import WorkflowTemplates.Decimal.Integer
import WorkflowTemplates.Decimal.Layout
import WorkflowTemplates.Decimal.Numeral
import WorkflowTemplates.Decimal.Shortest
import WorkflowTemplates.Document.Basic
import WorkflowTemplates.Document.Yaml
import WorkflowTemplates.Document.YamlScalar
import WorkflowTemplates.Entries
import WorkflowTemplates.Error
import WorkflowTemplates.Json.Basic
import WorkflowTemplates.Json.Decode
import WorkflowTemplates.Json.Node
import WorkflowTemplates.Json.Numeral
import WorkflowTemplates.Json.Printer
import WorkflowTemplates.Json.Reader
import WorkflowTemplates.Proofs.Decimal.Digits
import WorkflowTemplates.Proofs.FirstFault
import WorkflowTemplates.Proofs.Json.Field
import WorkflowTemplates.Proofs.Json.Memory
import WorkflowTemplates.Proofs.Json.Numbers
import WorkflowTemplates.Proofs.Json.Record
import WorkflowTemplates.Proofs.Json.RoundTrip
import WorkflowTemplates.Proofs.Json.Strings
import WorkflowTemplates.Proofs.Names
import WorkflowTemplates.Proofs.Outcome
import WorkflowTemplates.Proofs.Schema.RoundTrip
import WorkflowTemplates.Proofs.Script.Binding
import WorkflowTemplates.Proofs.Script.Edits
import WorkflowTemplates.Proofs.Script.FromSource
import WorkflowTemplates.Proofs.Script.Lines
import WorkflowTemplates.Proofs.Script.Prologue
import WorkflowTemplates.Proofs.Script.Returned
import WorkflowTemplates.Proofs.Script.Runner
import WorkflowTemplates.Proofs.Settings.Precedence
import WorkflowTemplates.Proofs.Settings.Toml
import WorkflowTemplates.Proofs.Settings.Tree
import WorkflowTemplates.Proofs.Settings.Variable
import WorkflowTemplates.Proofs.Source.Accepted
import WorkflowTemplates.Proofs.Source.Appended
import WorkflowTemplates.Proofs.Source.Assigned
import WorkflowTemplates.Proofs.Source.Balanced
import WorkflowTemplates.Proofs.Source.Bars
import WorkflowTemplates.Proofs.Source.Body
import WorkflowTemplates.Proofs.Source.Comment
import WorkflowTemplates.Proofs.Source.Commented
import WorkflowTemplates.Proofs.Source.CommentedPart
import WorkflowTemplates.Proofs.Source.Cut
import WorkflowTemplates.Proofs.Source.Default
import WorkflowTemplates.Proofs.Source.Documented
import WorkflowTemplates.Proofs.Source.DottedName
import WorkflowTemplates.Proofs.Source.Escapes
import WorkflowTemplates.Proofs.Source.Function
import WorkflowTemplates.Proofs.Source.Gap
import WorkflowTemplates.Proofs.Source.GapToken
import WorkflowTemplates.Proofs.Source.GapValue
import WorkflowTemplates.Proofs.Source.HeadComment
import WorkflowTemplates.Proofs.Source.HeadLines
import WorkflowTemplates.Proofs.Source.Hint
import WorkflowTemplates.Proofs.Source.Indented
import WorkflowTemplates.Proofs.Source.Integers
import WorkflowTemplates.Proofs.Source.LineEnd
import WorkflowTemplates.Proofs.Source.LineHead
import WorkflowTemplates.Proofs.Source.Literal
import WorkflowTemplates.Proofs.Source.LongString
import WorkflowTemplates.Proofs.Source.Normal
import WorkflowTemplates.Proofs.Source.Passage
import WorkflowTemplates.Proofs.Source.PlainBody
import WorkflowTemplates.Proofs.Source.ReadBack
import WorkflowTemplates.Proofs.Source.Returned
import WorkflowTemplates.Proofs.Source.Scalars
import WorkflowTemplates.Proofs.Source.Scan
import WorkflowTemplates.Proofs.Source.Signature
import WorkflowTemplates.Proofs.Source.StringReader
import WorkflowTemplates.Proofs.Source.StringScan
import WorkflowTemplates.Proofs.Source.Union
import WorkflowTemplates.Proofs.Source.Unwrapped
import WorkflowTemplates.Proofs.Source.ValueScan
import WorkflowTemplates.Proofs.Source.Wrapped
import WorkflowTemplates.Proofs.Step.Agreement
import WorkflowTemplates.Proofs.Step.Batch
import WorkflowTemplates.Proofs.Step.Grouping
import WorkflowTemplates.Proofs.Step.Serialized
import WorkflowTemplates.Proofs.Template.Classified
import WorkflowTemplates.Proofs.Template.Hooks
import WorkflowTemplates.Proofs.Template.Inputs
import WorkflowTemplates.Proofs.Template.Outcomes
import WorkflowTemplates.Proofs.Template.Phases
import WorkflowTemplates.Proofs.Template.RawManifest
import WorkflowTemplates.Proofs.Template.Schema
import WorkflowTemplates.Proofs.Template.Valid
import WorkflowTemplates.Proofs.Text.Block
import WorkflowTemplates.Proofs.Text.Dedent
import WorkflowTemplates.Proofs.Text.Indented
import WorkflowTemplates.Proofs.Text.Lines
import WorkflowTemplates.Proofs.Text.Margin
import WorkflowTemplates.Proofs.Text.Runs
import WorkflowTemplates.Proofs.Text.Trim
import WorkflowTemplates.Proofs.Traversal
import WorkflowTemplates.Proofs.Value.Encoded
import WorkflowTemplates.Proofs.Value.Inserted
import WorkflowTemplates.Proofs.Value.Packed
import WorkflowTemplates.Proofs.Value.Reordered
import WorkflowTemplates.Proofs.Value.Scalar
import WorkflowTemplates.Schema.Manifest
import WorkflowTemplates.Schema.Parameter
import WorkflowTemplates.Schema.Reading
import WorkflowTemplates.Schema.Template
import WorkflowTemplates.Schema.Written
import WorkflowTemplates.Script.Definition
import WorkflowTemplates.Script.Source
import WorkflowTemplates.Settings.Basic
import WorkflowTemplates.Settings.Load
import WorkflowTemplates.Settings.Reading
import WorkflowTemplates.Settings.Toml.Moment
import WorkflowTemplates.Settings.Toml.Number
import WorkflowTemplates.Settings.Toml.Reader
import WorkflowTemplates.Settings.Toml.Table
import WorkflowTemplates.Settings.Toml.Text
import WorkflowTemplates.Settings.Tree
import WorkflowTemplates.Settings.Typed
import WorkflowTemplates.Source.Body
import WorkflowTemplates.Source.Default
import WorkflowTemplates.Source.Function
import WorkflowTemplates.Source.Literal
import WorkflowTemplates.Source.LiteralReader
import WorkflowTemplates.Source.Scan
import WorkflowTemplates.Source.Signature
import WorkflowTemplates.Source.TypeHint
import WorkflowTemplates.Step.Stages
import WorkflowTemplates.Step.TaskStep
import WorkflowTemplates.Step.Token
import WorkflowTemplates.Template.Compiled
import WorkflowTemplates.Template.Hook
import WorkflowTemplates.Template.Manifest
import WorkflowTemplates.Text.Blank
import WorkflowTemplates.Text.Hex
import WorkflowTemplates.Text.Invisible
import WorkflowTemplates.Text.Letter
import WorkflowTemplates.Text.Lines
import WorkflowTemplates.Value.Arguments
import WorkflowTemplates.Value.Basic
import WorkflowTemplates.Value.Encoding
