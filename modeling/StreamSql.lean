import StreamSql.Aggregate
import StreamSql.Aggregate.Moments
import StreamSql.Aggregate.Percentile
import StreamSql.Config
import StreamSql.Config.Overrides
import StreamSql.Config.Yaml
import StreamSql.Engine
import StreamSql.Engine.Command
import StreamSql.Engine.Sink
import StreamSql.Error
import StreamSql.Expr
import StreamSql.Expr.Compiled
import StreamSql.Expr.Eval
import StreamSql.Expr.Parser
import StreamSql.Expr.Printer
import StreamSql.Function.Arity
import StreamSql.Function.Catalog
import StreamSql.Function.Registry
import StreamSql.Function.Scalar
import StreamSql.Json
import StreamSql.Json.Number
import StreamSql.Json.Reader
import StreamSql.Number.Double
import StreamSql.Number.FloatParts
import StreamSql.Number.FloatText
import StreamSql.Number.Numeral
import StreamSql.Number.Shortest
import StreamSql.Number.Word
import StreamSql.Plan
import StreamSql.Plan.Projection
import StreamSql.Query
import StreamSql.Query.Parser
import StreamSql.Query.Validation
import StreamSql.Record
import StreamSql.Remainder
import StreamSql.Run
import StreamSql.Run.DistinctRows
import StreamSql.Run.Rowwise
import StreamSql.Run.Windowed
import StreamSql.Table
import StreamSql.Text.Blank
import StreamSql.Text.Case
import StreamSql.Text.CaseTable
import StreamSql.Text.CharRange
import StreamSql.Text.Escape
import StreamSql.Text.Letters
import StreamSql.Text.Like
import StreamSql.Time.Calendar
import StreamSql.Time.Duration
import StreamSql.Time.EventTime
import StreamSql.Time.Unit
import StreamSql.Token
import StreamSql.Token.Kind
import StreamSql.Token.Lexer
import StreamSql.Value
import StreamSql.Value.Arith
import StreamSql.Value.Compare
import StreamSql.Value.Digest
import StreamSql.Value.Kind
import StreamSql.Value.Tagged
import StreamSql.Window.Aligned
import StreamSql.Window.Assignment
import StreamSql.Window.Bounds
import StreamSql.Window.Counting
import StreamSql.Window.GroupKey
import StreamSql.Window.Groups
import StreamSql.Window.Opened
import StreamSql.Window.Session
import StreamSql.Window.Spec
import StreamSql.Proofs.Grouping
import StreamSql.Proofs.Arena
import StreamSql.Proofs.History
import StreamSql.Proofs.Ledger
import StreamSql.Proofs.Balance
import StreamSql.Proofs.Conservation
import StreamSql.Proofs.Grid
import StreamSql.Proofs.Offline
import StreamSql.Proofs.Early
import StreamSql.Proofs.Derivation
import StreamSql.Proofs.Reading
import StreamSql.Proofs.Grammar
import StreamSql.Proofs.NumberText
import StreamSql.Proofs.Rounding
import StreamSql.Proofs.Packing
import StreamSql.Proofs.Numerals
import StreamSql.Proofs.Words
import StreamSql.Proofs.Lexing
import StreamSql.Proofs.Spelling
import StreamSql.Proofs.Precedence
import StreamSql.Proofs.Rendering
import StreamSql.Proofs.RoundTrip
import StreamSql.Proofs.Denotation
import StreamSql.Proofs.Extraction
import StreamSql.Proofs.Meaning
import StreamSql.Proofs.Sharing
import StreamSql.Proofs.Resolution
import StreamSql.Proofs.Keys
import StreamSql.Proofs.InStep
import StreamSql.Proofs.Book
import StreamSql.Proofs.Chunks
import StreamSql.Proofs.Sessions
import StreamSql.Proofs.Runs
import StreamSql.Proofs.Silence
import StreamSql.Proofs.Overdue
import StreamSql.Proofs.Delivery
import StreamSql.Proofs.Planning
import StreamSql.Proofs.Nesting
import StreamSql.Proofs.Effect
import StreamSql.Proofs.Refusals
import StreamSql.Proofs.Queue
import StreamSql.Proofs.Accounting
import StreamSql.Proofs.Traffic
import StreamSql.Proofs.Shutdown
import StreamSql.Proofs.Dependence
import StreamSql.Proofs.Negation
import StreamSql.Proofs.Proper
import StreamSql.Proofs.Pipeline
import StreamSql.Proofs.SlideBySize
import StreamSql.Proofs.Expansion
import StreamSql.Proofs.Extrema
import StreamSql.Proofs.Lookup
import StreamSql.Proofs.Exactness
import StreamSql.Proofs.Nearest
import StreamSql.Proofs.WordOrder
import StreamSql.Proofs.InPlace
import StreamSql.Proofs.Hashing
import StreamSql.Proofs.Due
import StreamSql.Proofs.Overlap
import StreamSql.Proofs.Strictness
import StreamSql.Proofs.TwoPasses
import StreamSql.Proofs.Patterns
import StreamSql.Proofs.Scaling
import StreamSql.Proofs.Instants
import StreamSql.Proofs.Compound
import StreamSql.Proofs.IdleStop
import StreamSql.Proofs.OrderStatistic
import StreamSql.Proofs.Spans
import StreamSql.Proofs.Cursor
import StreamSql.Proofs.Encoding
import StreamSql.Proofs.Settings
import StreamSql.Proofs.Progress
