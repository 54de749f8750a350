import HandlerScript.Builtin
import HandlerScript.Command
import HandlerScript.CommandLine.Answer
import HandlerScript.CommandLine.Report
import HandlerScript.CommandLine.Request
import HandlerScript.Condition
import HandlerScript.Document
import HandlerScript.Effect.Basic
import HandlerScript.Effect.Hosted
import HandlerScript.Effect.Leaf
import HandlerScript.Effect.Texts
import HandlerScript.Effect.Variables
import HandlerScript.Environment.File
import HandlerScript.Environment.Line
import HandlerScript.Execution
import HandlerScript.Expression
import HandlerScript.Fault
import HandlerScript.Handler
import HandlerScript.Host
import HandlerScript.Identifier
import HandlerScript.Json.Failure
import HandlerScript.Json.Token
import HandlerScript.Json.Value
import HandlerScript.Limits
import HandlerScript.Main
import HandlerScript.Markup.Build
import HandlerScript.Markup.Element
import HandlerScript.Markup.Place
import HandlerScript.Markup.Reference
import HandlerScript.Markup.Written
import HandlerScript.Moment.Basic
import HandlerScript.Moment.Format
import HandlerScript.Node.Basic
import HandlerScript.Node.Json
import HandlerScript.Number.Binary64
import HandlerScript.Number.Decimal
import HandlerScript.Number.Hexadecimal
import HandlerScript.Number.Shortest
import HandlerScript.Number.Word
import HandlerScript.Scalar.Basic
import HandlerScript.Scalar.Json
import HandlerScript.Session
import HandlerScript.Settings.Basic
import HandlerScript.Settings.Format
import HandlerScript.Settings.Format.Ini
import HandlerScript.Settings.Format.Json5
import HandlerScript.Settings.Format.Ron
import HandlerScript.Settings.Format.Yaml.Cursor
import HandlerScript.Settings.Format.Yaml.Node
import HandlerScript.Settings.Format.Yaml.Scalar
import HandlerScript.Settings.Format.Yaml.Token
import HandlerScript.Settings.Layers
import HandlerScript.Settings.Tree
import HandlerScript.Sha256
import HandlerScript.Source
import HandlerScript.Store
import HandlerScript.Table
import HandlerScript.Template
import HandlerScript.Text.Alphanumeric
import HandlerScript.Text.Blank
import HandlerScript.Text.Bytes
import HandlerScript.Text.CaseIgnorable
import HandlerScript.Text.Cased
import HandlerScript.Text.Casing
import HandlerScript.Text.Extending
import HandlerScript.Text.Invisible
import HandlerScript.Text.Letters
import HandlerScript.Text.Pieces
import HandlerScript.Text.Quoted
import HandlerScript.Text.Ranges
import HandlerScript.Toml.Document
import HandlerScript.Toml.Numeral
import HandlerScript.Toml.Text
import HandlerScript.Toml.Value
import HandlerScript.Proofs.Document
import HandlerScript.Proofs.Effect.Choice
import HandlerScript.Proofs.Effect.Reading
import HandlerScript.Proofs.Events
import HandlerScript.Proofs.FaultOrigin
import HandlerScript.Proofs.Inlining
import HandlerScript.Proofs.Markup.Acceptance
import HandlerScript.Proofs.Markup.Documents
import HandlerScript.Proofs.Markup.Elements
import HandlerScript.Proofs.Markup.Grammar
import HandlerScript.Proofs.Markup.RoundTrip
import HandlerScript.Proofs.Markup.Scanning
import HandlerScript.Proofs.Markup.Tags
import HandlerScript.Proofs.Node.Paired
import HandlerScript.Proofs.Node.Within
import HandlerScript.Proofs.Retention
import HandlerScript.Proofs.Run.Agree
import HandlerScript.Proofs.Run.Depth
import HandlerScript.Proofs.Run.Host
import HandlerScript.Proofs.Run.Meets
import HandlerScript.Proofs.Run.Step
import HandlerScript.Proofs.Table
import HandlerScript.Proofs.Template
import HandlerScript.Proofs.Termination
import HandlerScript.Proofs.Text.Characters
import HandlerScript.Proofs.Text.Runs
import HandlerScript.Proofs.Text.Trim
import HandlerScript.Proofs.VariableNames
import HandlerScript.Proofs.Node.Lookup
import HandlerScript.Proofs.LetterCase
import HandlerScript.Proofs.SenderAlias
import HandlerScript.Proofs.Markup.Attributes
import HandlerScript.Proofs.Json.Layout
import HandlerScript.Proofs.Json.Nodes
import HandlerScript.Proofs.Loading
import HandlerScript.Proofs.Template.Division
import HandlerScript.Proofs.Template.Payload
import HandlerScript.Proofs.Text.Phrases
import HandlerScript.Proofs.Condition.Words
import HandlerScript.Proofs.Condition.Spelling
import HandlerScript.Proofs.Run.Ending
import HandlerScript.Proofs.Control.Guarded
import HandlerScript.Proofs.Control.Repetition
import HandlerScript.Proofs.Control.Unrolling
import HandlerScript.Proofs.Control.Branching
import HandlerScript.Proofs.Control.Selection
import HandlerScript.Proofs.Run.Leaf
import HandlerScript.Proofs.Effect.Footprint
import HandlerScript.Proofs.Effect.Refusal
import HandlerScript.Proofs.Effect.ReadBack
import HandlerScript.Proofs.Text.Pieces
import HandlerScript.Proofs.Condition.Quotes
import HandlerScript.Proofs.Condition.Literals
import HandlerScript.Proofs.Condition.Connectives
import HandlerScript.Proofs.Condition.Operands
import HandlerScript.Proofs.Condition.Comparisons
import HandlerScript.Proofs.Condition.AbsentReferences
import HandlerScript.Proofs.Number.Bits
import HandlerScript.Proofs.Number.Numerals
import HandlerScript.Proofs.Number.ReadBack
import HandlerScript.Proofs.Number.Rounding
import HandlerScript.Proofs.Number.Shortest
import HandlerScript.Proofs.Number.Texts
import HandlerScript.Proofs.Number.Zero
import HandlerScript.Proofs.Condition.Truth
import HandlerScript.Proofs.Expression.Chains
import HandlerScript.Proofs.Expression.Groups
import HandlerScript.Proofs.Expression.SignedGroups
import HandlerScript.Proofs.Expression.SingleNumbers
import HandlerScript.Proofs.Expression.Splitting
import HandlerScript.Proofs.Expression.Trees
import HandlerScript.Proofs.Number.Hexadecimal
import HandlerScript.Proofs.Markup.Pieces
import HandlerScript.Proofs.Markup.References
import HandlerScript.Proofs.Markup.Encodings
import HandlerScript.Proofs.Condition.Unescaping
import HandlerScript.Proofs.Text.Bytes
import HandlerScript.Proofs.Markup.Places
import HandlerScript.Proofs.Markup.Violations
import HandlerScript.Proofs.Declarations
import HandlerScript.Proofs.Store
import HandlerScript.Proofs.Effect.Copying
import HandlerScript.Proofs.Number.Nearest
import HandlerScript.Proofs.Number.Arithmetic
import HandlerScript.Proofs.Json.Numbers
import HandlerScript.Proofs.Json.Stepwise
import HandlerScript.Proofs.Json.Scalars
import HandlerScript.Proofs.Expression.Balance
import HandlerScript.Proofs.Condition.OperatorWords
