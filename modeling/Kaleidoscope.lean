import Kaleidoscope.Binary64
import Kaleidoscope.Binary64.Nearest
import Kaleidoscope.CommandLine.Help
import Kaleidoscope.CommandLine.Options
import Kaleidoscope.CommandLine.TreeFormat
import Kaleidoscope.Decimal
import Kaleidoscope.Decimal.Layout
import Kaleidoscope.Decimal.Shortest
import Kaleidoscope.Grammar.Expression
import Kaleidoscope.Grammar.Program
import Kaleidoscope.Journal
import Kaleidoscope.Main
import Kaleidoscope.Operator
import Kaleidoscope.Parser.Chain
import Kaleidoscope.Parser.Error
import Kaleidoscope.Parser.Expression
import Kaleidoscope.Parser.State
import Kaleidoscope.Parser.Unit
import Kaleidoscope.Program
import Kaleidoscope.Proofs.Decimal.Exact
import Kaleidoscope.Proofs.Decimal.Grid
import Kaleidoscope.Proofs.Decimal.Lenient
import Kaleidoscope.Proofs.Decimal.Positional
import Kaleidoscope.Proofs.Decimal.Rounding
import Kaleidoscope.Proofs.Grammar.Broken
import Kaleidoscope.Proofs.Grammar.Language
import Kaleidoscope.Proofs.Grammar.Longest
import Kaleidoscope.Proofs.Grammar.Row
import Kaleidoscope.Proofs.Parser.Advancing
import Kaleidoscope.Proofs.Parser.Bounds
import Kaleidoscope.Proofs.Parser.Cases
import Kaleidoscope.Proofs.Parser.Completeness
import Kaleidoscope.Proofs.Parser.Failure
import Kaleidoscope.Proofs.Parser.Operators
import Kaleidoscope.Proofs.Parser.Outcome
import Kaleidoscope.Proofs.Parser.Reading
import Kaleidoscope.Proofs.Parser.Recognition
import Kaleidoscope.Proofs.Parser.Soundness
import Kaleidoscope.Proofs.Scanner.Lexing
import Kaleidoscope.Proofs.Scanner.Lookahead
import Kaleidoscope.Proofs.Scanner.Numeral
import Kaleidoscope.Proofs.Session.Agreement
import Kaleidoscope.Proofs.Session.Barrier
import Kaleidoscope.Proofs.Session.CleanRun
import Kaleidoscope.Proofs.Session.Complete
import Kaleidoscope.Proofs.Session.Demand
import Kaleidoscope.Proofs.Session.Diagnostics
import Kaleidoscope.Proofs.Session.Interaction
import Kaleidoscope.Proofs.Session.Ledger
import Kaleidoscope.Proofs.Session.LineEnds
import Kaleidoscope.Proofs.Session.Operation
import Kaleidoscope.Proofs.Session.Position
import Kaleidoscope.Proofs.Session.Progress
import Kaleidoscope.Proofs.Session.ProperItems
import Kaleidoscope.Proofs.Session.RoundTrip
import Kaleidoscope.Proofs.Session.Units
import Kaleidoscope.Proofs.Source.Delivery
import Kaleidoscope.Proofs.Source.Demand
import Kaleidoscope.Proofs.Source.Handout
import Kaleidoscope.Proofs.Source.Lines
import Kaleidoscope.Proofs.Source.Signals
import Kaleidoscope.Proofs.Text.Escape
import Kaleidoscope.Proofs.Token.Lexical
import Kaleidoscope.Proofs.Token.Naming
import Kaleidoscope.Proofs.Token.Piece
import Kaleidoscope.Proofs.Token.Spelling
import Kaleidoscope.Proofs.Tree.Chain
import Kaleidoscope.Proofs.Tree.Compact
import Kaleidoscope.Proofs.Tree.Proper
import Kaleidoscope.Proofs.Unbounded.Lexemes
import Kaleidoscope.Proofs.Unbounded.Parser
import Kaleidoscope.Proofs.Unbounded.Scanner
import Kaleidoscope.Proofs.Unbounded.Session
import Kaleidoscope.Proofs.Unbounded.Source
import Kaleidoscope.Proofs.Unbounded.Units
import Kaleidoscope.Scanner
import Kaleidoscope.Session.Run
import Kaleidoscope.Session.Step
import Kaleidoscope.Source
import Kaleidoscope.Source.LineCursor
import Kaleidoscope.Source.LineReader
import Kaleidoscope.Source.Reader
import Kaleidoscope.Source.Script
import Kaleidoscope.Text.Blank
import Kaleidoscope.Text.CharSet
import Kaleidoscope.Text.Dump
import Kaleidoscope.Text.Escape
import Kaleidoscope.Text.GraphemeExtend
import Kaleidoscope.Text.Unprintable
import Kaleidoscope.Text.Utf8
import Kaleidoscope.Token
import Kaleidoscope.Token.Lexical
import Kaleidoscope.Token.Source
import Kaleidoscope.Tree.Chain
import Kaleidoscope.Tree.Expr
import Kaleidoscope.Tree.Item
import Kaleidoscope.Unbounded.Parser
import Kaleidoscope.Unbounded.Scanner
