import ScopedScript.Console.Basic
import ScopedScript.Datum.Basic
import ScopedScript.Datum.Equality
import ScopedScript.Datum.Inspect
import ScopedScript.Datum.Operand
import ScopedScript.Datum.Printer
import ScopedScript.Error
import ScopedScript.Expr.Basic
import ScopedScript.Expr.Eval
import ScopedScript.Expr.Operator
import ScopedScript.Expr.Printer
import ScopedScript.Location
import ScopedScript.Main
import ScopedScript.Number.Binary
import ScopedScript.Number.Numeral
import ScopedScript.Number.Shortest
import ScopedScript.Number.Text
import ScopedScript.Parser.Basic
import ScopedScript.Parser.Expr
import ScopedScript.Parser.Statement
import ScopedScript.Plain.Basic
import ScopedScript.Plain.Format
import ScopedScript.Plain.Json
import ScopedScript.Plain.Yaml
import ScopedScript.Plain.Yaml.Resolution
import ScopedScript.Plain.Yaml.Scalar
import ScopedScript.Plain.Yaml.Style
import ScopedScript.Proofs.Datum.Entries
import ScopedScript.Proofs.Expr.Difference
import ScopedScript.Proofs.Expr.Names
import ScopedScript.Proofs.Expr.OfValue
import ScopedScript.Proofs.Expr.Quotable
import ScopedScript.Proofs.Expr.RoundTrip
import ScopedScript.Proofs.Expr.Sight
import ScopedScript.Proofs.Number.Finite
import ScopedScript.Proofs.Number.Signed
import ScopedScript.Proofs.Number.Whole
import ScopedScript.Proofs.Parser.Complete.Expr
import ScopedScript.Proofs.Parser.Complete.Statement
import ScopedScript.Proofs.Parser.Earliest
import ScopedScript.Proofs.Parser.Exact.Expr
import ScopedScript.Proofs.Parser.Exact.Statement
import ScopedScript.Proofs.Parser.Failure
import ScopedScript.Proofs.Parser.Grammar
import ScopedScript.Proofs.Parser.Joined
import ScopedScript.Proofs.Parser.Ladder
import ScopedScript.Proofs.Parser.Local
import ScopedScript.Proofs.Parser.Predictive
import ScopedScript.Proofs.Parser.Predictive.Expr
import ScopedScript.Proofs.Parser.Predictive.Statement
import ScopedScript.Proofs.Parser.Printed
import ScopedScript.Proofs.Parser.Vocabulary
import ScopedScript.Proofs.Plain.Grammar
import ScopedScript.Proofs.Plain.Json
import ScopedScript.Proofs.Plain.Meaning
import ScopedScript.Proofs.Plain.Reader
import ScopedScript.Proofs.Plain.RoundTrip
import ScopedScript.Proofs.Report.Excerpt
import ScopedScript.Proofs.Report.Window
import ScopedScript.Proofs.Run.Cap
import ScopedScript.Proofs.Run.Control
import ScopedScript.Proofs.Run.Ending
import ScopedScript.Proofs.Run.Failure
import ScopedScript.Proofs.Run.Induction
import ScopedScript.Proofs.Run.Log
import ScopedScript.Proofs.Run.Logged
import ScopedScript.Proofs.Run.Relocation
import ScopedScript.Proofs.Run.Renaming
import ScopedScript.Proofs.Run.Rewording
import ScopedScript.Proofs.Run.Safe
import ScopedScript.Proofs.Run.Scopewise
import ScopedScript.Proofs.Run.Steady
import ScopedScript.Proofs.Run.Unassigned
import ScopedScript.Proofs.Run.Uncapped
import ScopedScript.Proofs.Run.Untouched
import ScopedScript.Proofs.Run.Untraced
import ScopedScript.Proofs.Run.Upheld
import ScopedScript.Proofs.Session.Answer
import ScopedScript.Proofs.Session.Bindings
import ScopedScript.Proofs.Session.Growth
import ScopedScript.Proofs.Session.History
import ScopedScript.Proofs.Session.Joined
import ScopedScript.Proofs.Session.Json
import ScopedScript.Proofs.Session.Place
import ScopedScript.Proofs.Session.Printed
import ScopedScript.Proofs.Session.Quotable
import ScopedScript.Proofs.Session.Report
import ScopedScript.Proofs.Store.Copy
import ScopedScript.Proofs.Store.Every
import ScopedScript.Proofs.Store.Frame
import ScopedScript.Proofs.Store.Lookup
import ScopedScript.Proofs.Store.Operations
import ScopedScript.Proofs.Store.Regular
import ScopedScript.Proofs.Store.Relocation
import ScopedScript.Proofs.Store.Rewording
import ScopedScript.Proofs.Store.Tidy
import ScopedScript.Proofs.Store.Vacant
import ScopedScript.Proofs.Syntax.Relocation
import ScopedScript.Proofs.Syntax.Rewording
import ScopedScript.Proofs.Text.Lines
import ScopedScript.Proofs.Token.Cut
import ScopedScript.Proofs.Token.Joined
import ScopedScript.Proofs.Token.Lexemes
import ScopedScript.Proofs.Token.Munch
import ScopedScript.Proofs.Token.Place
import ScopedScript.Proofs.Token.Position
import ScopedScript.Proofs.Token.Progress
import ScopedScript.Proofs.Token.Segmentation
import ScopedScript.Proofs.Token.Tables
import ScopedScript.Report
import ScopedScript.Session
import ScopedScript.Session.Basic
import ScopedScript.Statement.Basic
import ScopedScript.Statement.Run
import ScopedScript.Store.Basic
import ScopedScript.Store.Printer
import ScopedScript.Text.Blanks
import ScopedScript.Text.Digits
import ScopedScript.Text.Integer
import ScopedScript.Text.Letters
import ScopedScript.Text.Lines
import ScopedScript.Text.Pattern
import ScopedScript.Text.Printable
import ScopedScript.Text.Quoted
import ScopedScript.Text.Ranges
import ScopedScript.Text.Utf8
import ScopedScript.Token.Basic
import ScopedScript.Token.Kind
import ScopedScript.Token.Lexicon
import ScopedScript.Token.Scanner
import ScopedScript.Value
