import ParamPanel.Decimal.Layout
import ParamPanel.Decimal.Literal
import ParamPanel.Decimal.Nearest
import ParamPanel.Decimal.Shortest
import ParamPanel.Exchange
import ParamPanel.Json.Basic
import ParamPanel.Json.Decoder
import ParamPanel.Json.Failure
import ParamPanel.Json.Numeral
import ParamPanel.Json.Parameter
import ParamPanel.Json.Reading
import ParamPanel.Json.Token
import ParamPanel.LogLevel
import ParamPanel.Parameter.Basic
import ParamPanel.Parameter.Table
import ParamPanel.Parameter.Values
import ParamPanel.Script.Assignment
import ParamPanel.Script.Declarations
import ParamPanel.Script.Expression
import ParamPanel.Script.Extraction
import ParamPanel.Script.Hint
import ParamPanel.Script.Keywords
import ParamPanel.Script.Markers
import ParamPanel.Script.Report
import ParamPanel.Script.Section
import ParamPanel.Session
import ParamPanel.Text.CharClass
import ParamPanel.Text.Cursor
import ParamPanel.Text.Fields
import ParamPanel.Text.Invisible
import ParamPanel.Text.LineEnding
import ParamPanel.Text.Lines
import ParamPanel.Text.Offset
import ParamPanel.Text.Quoted
import ParamPanel.Text.Trim
import ParamPanel.Proofs.Parameter.LastOfEach
import ParamPanel.Proofs.Text.Cursor
import ParamPanel.Proofs.Text.Trim
import ParamPanel.Proofs.Script.Scan
import ParamPanel.Proofs.Script.Block
import ParamPanel.Proofs.Script.Heading
import ParamPanel.Proofs.Script.Concatenation
import ParamPanel.Proofs.Script.Constant
import ParamPanel.Proofs.Script.LineByLine
import ParamPanel.Proofs.Script.Canonical
import ParamPanel.Proofs.Session.Follows
import ParamPanel.Proofs.Session.Run
import ParamPanel.Proofs.Session.Invariant
import ParamPanel.Proofs.Session.History
import ParamPanel.Proofs.Script.Place
import ParamPanel.Proofs.Script.Provenance
import ParamPanel.Proofs.Script.Hint
import ParamPanel.Proofs.Script.WellFormed
import ParamPanel.Proofs.Session.Finite
import ParamPanel.Proofs.Json.Token
import ParamPanel.Proofs.Json.Reading
import ParamPanel.Proofs.Json.RoundTrip
import ParamPanel.Proofs.Session.Exchange
import ParamPanel.Proofs.Session.Unpicked
import ParamPanel.Proofs.Session.Choices
import ParamPanel.Proofs.Script.Dependence
import ParamPanel.Proofs.Script.Grammar
import ParamPanel.Proofs.Session.Views
import ParamPanel.Proofs.Script.Visit
import ParamPanel.Proofs.Text.Offset
import ParamPanel.Proofs.Script.Range
import ParamPanel.Proofs.Script.Patient
import ParamPanel.Proofs.Script.Tiling
import ParamPanel.Proofs.Decimal.Literal
import ParamPanel.Proofs.Parameter.CarryOver
import ParamPanel.Proofs.Parameter.Insertion
import ParamPanel.Proofs.Script.Shape
import ParamPanel.Proofs.Session.Atomic
import ParamPanel.Proofs.Script.ChoiceList
import ParamPanel.Proofs.Script.Expression
import ParamPanel.Proofs.Text.Reader
