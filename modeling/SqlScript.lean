import SqlScript.Batch
import SqlScript.BatchResult
import SqlScript.Build
import SqlScript.Build.Argument
import SqlScript.Build.Draft
import SqlScript.Build.Options
import SqlScript.Build.Pending
import SqlScript.Command
import SqlScript.Engine
import SqlScript.Engine.Backend
import SqlScript.Engine.Config
import SqlScript.Engine.Config.Document
import SqlScript.Engine.Config.File
import SqlScript.Engine.Event
import SqlScript.Engine.Execution
import SqlScript.Engine.Progress
import SqlScript.Engine.Slot
import SqlScript.FileTree
import SqlScript.Include
import SqlScript.Include.Files
import SqlScript.LineMap
import SqlScript.Number.Nearest
import SqlScript.ParseError
import SqlScript.Path
import SqlScript.Position
import SqlScript.Retry.Backoff
import SqlScript.Retry.Loop
import SqlScript.Retry.Policy
import SqlScript.Server.Address
import SqlScript.Server.Query
import SqlScript.Server.RowCounts
import SqlScript.Server.Settings
import SqlScript.Server.WireError
import SqlScript.ServerError
import SqlScript.SessionError
import SqlScript.Text.Ascii
import SqlScript.Text.Blank
import SqlScript.Text.Hidden
import SqlScript.Text.Quoted
import SqlScript.Token
import SqlScript.Token.Lexeme
import SqlScript.Token.Lexer
import SqlScript.Toml.Decode
import SqlScript.Toml.Document
import SqlScript.Toml.Quoted
import SqlScript.Toml.Reader
import SqlScript.Toml.Scalar
import SqlScript.Toml.Value
import SqlScript.Variable
import SqlScript.Variable.Substitution
import SqlScript.Variable.Table
import SqlScript.Proofs.Text.Run
import SqlScript.Proofs.Token.Scan
import SqlScript.Proofs.Text.Trim
import SqlScript.Proofs.Token.Grammar
import SqlScript.Proofs.Token.Stream
import SqlScript.Proofs.Token.LineTails
import SqlScript.Proofs.Token.Directives
import SqlScript.Proofs.Token.Coordinates
import SqlScript.Proofs.Token.Resumption
import SqlScript.Proofs.Token.Concatenation
import SqlScript.Proofs.Token.Delimiters
import SqlScript.Proofs.Token.Forms
import SqlScript.Proofs.Build.Expansion
import SqlScript.Proofs.Build.Pieces
import SqlScript.Proofs.Build.Origins
import SqlScript.Proofs.Build.Lines
import SqlScript.Proofs.Build.Sources
import SqlScript.Proofs.Build.Transparency
import SqlScript.Proofs.Build.References
import SqlScript.Proofs.Build.Moments
import SqlScript.Proofs.Build.Continuation
import SqlScript.Proofs.Build.Closings
import SqlScript.Proofs.Build.Regions
import SqlScript.Proofs.Build.Spans
import SqlScript.Proofs.Build.Listings
import SqlScript.Proofs.Build.Nesting
import SqlScript.Proofs.Build.Stamps
import SqlScript.Proofs.Build.Targets
import SqlScript.Proofs.Build.VariableErrors
import SqlScript.Proofs.Build.Outline
import SqlScript.Proofs.Engine.Ensures
import SqlScript.Proofs.Engine.Emission
import SqlScript.Proofs.Engine.Waiting
import SqlScript.Proofs.Engine.EventStream
import SqlScript.Proofs.Engine.InstanceEvents
import SqlScript.Proofs.Engine.RunEvents
import SqlScript.Proofs.Engine.Stages
import SqlScript.Proofs.Engine.Conduct
import SqlScript.Proofs.Engine.Acquisition
import SqlScript.Proofs.Engine.Settlement
import SqlScript.Proofs.Engine.RunPath
import SqlScript.Proofs.Engine.ErrorPositions
import SqlScript.Proofs.Engine.Custody
import SqlScript.Proofs.Engine.Attempts
import SqlScript.Proofs.Engine.Releases
import SqlScript.Proofs.Engine.Sessions
import SqlScript.Proofs.Retry.Decisions
import SqlScript.Proofs.Retry.Recital
import SqlScript.Proofs.Engine.Retries
import SqlScript.Proofs.Engine.Requests
import SqlScript.Proofs.Engine.Attention
import SqlScript.Proofs.Engine.Hearing
import SqlScript.Proofs.Engine.Sequels
import SqlScript.Proofs.Engine.Obedience
import SqlScript.Proofs.Engine.Compliance
import SqlScript.Proofs.Engine.Cancellation
import SqlScript.Proofs.Engine.Notices
import SqlScript.Proofs.Engine.Actions
import SqlScript.Proofs.Engine.Truncation
import SqlScript.Proofs.Engine.Totals
import SqlScript.Proofs.Engine.Listings
import SqlScript.Proofs.Engine.Echoes
import SqlScript.Proofs.Engine.Budgets
import SqlScript.Proofs.Retry.Numbering
import SqlScript.Proofs.Engine.Numbering
import SqlScript.Proofs.Engine.Verdicts
import SqlScript.Proofs.Variable.Histories
import SqlScript.Proofs.Build.Prose
import SqlScript.Proofs.Build.QuotedArguments
import SqlScript.Proofs.Build.ReferredValues
import SqlScript.Proofs.Server.Comments
import SqlScript.Proofs.Server.Queries
import SqlScript.Proofs.Server.Addresses
import SqlScript.Proofs.Include.Places
import SqlScript.Proofs.Include.Identity
