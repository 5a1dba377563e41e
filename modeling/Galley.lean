import Galley.Compile
import Galley.Compile.Expression
import Galley.Compile.Tag
import Galley.Condition
import Galley.Condition.Evaluate
import Galley.Describe
import Galley.Engine
import Galley.Error
import Galley.Expression
import Galley.Filter
import Galley.Function
import Galley.Loader
import Galley.Node
import Galley.Number.Binary
import Galley.Number.Decimal
import Galley.Number.Integer
import Galley.Number.Shortest
import Galley.Operator
import Galley.Proofs.Acceptance
import Galley.Proofs.Account
import Galley.Proofs.Agreement
import Galley.Proofs.Allotment
import Galley.Proofs.Arity
import Galley.Proofs.Bars
import Galley.Proofs.Binding
import Galley.Proofs.Bodies
import Galley.Proofs.Breaks
import Galley.Proofs.Brought
import Galley.Proofs.Callable
import Galley.Proofs.Caller
import Galley.Proofs.Calls
import Galley.Proofs.Cascades
import Galley.Proofs.Chain
import Galley.Proofs.Comparison
import Galley.Proofs.Constants
import Galley.Proofs.Coverage
import Galley.Proofs.Creation
import Galley.Proofs.Cursor
import Galley.Proofs.Declared
import Galley.Proofs.Effects
import Galley.Proofs.Escapes
import Galley.Proofs.Escaping
import Galley.Proofs.Exact
import Galley.Proofs.Faults
import Galley.Proofs.Frame
import Galley.Proofs.FreeNumbers
import Galley.Proofs.Headers
import Galley.Proofs.Independence
import Galley.Proofs.Integers
import Galley.Proofs.Joining
import Galley.Proofs.Keys
import Galley.Proofs.Latest
import Galley.Proofs.Layers
import Galley.Proofs.Layout
import Galley.Proofs.Lines
import Galley.Proofs.Literals
import Galley.Proofs.LoopWalk
import Galley.Proofs.Markup
import Galley.Proofs.Members
import Galley.Proofs.Mention
import Galley.Proofs.Mirror
import Galley.Proofs.Nesting
import Galley.Proofs.Numbering
import Galley.Proofs.Numerals
import Galley.Proofs.Offers
import Galley.Proofs.OpenLoops
import Galley.Proofs.Operands
import Galley.Proofs.Operations
import Galley.Proofs.Order
import Galley.Proofs.Outcome
import Galley.Proofs.Pipeline
import Galley.Proofs.Placeless
import Galley.Proofs.Placement
import Galley.Proofs.Plain
import Galley.Proofs.Precedence
import Galley.Proofs.Printed
import Galley.Proofs.Quotation
import Galley.Proofs.Reading
import Galley.Proofs.Recovery
import Galley.Proofs.Remarks
import Galley.Proofs.Renumbering
import Galley.Proofs.Rereading
import Galley.Proofs.Rounds
import Galley.Proofs.Sessions
import Galley.Proofs.Shift
import Galley.Proofs.Silence
import Galley.Proofs.Simple
import Galley.Proofs.Snippets
import Galley.Proofs.Steps
import Galley.Proofs.Strictness
import Galley.Proofs.Sums
import Galley.Proofs.Surroundings
import Galley.Proofs.TagParts
import Galley.Proofs.TagPieces
import Galley.Proofs.TagText
import Galley.Proofs.Tiling
import Galley.Proofs.Transitions
import Galley.Proofs.Translation
import Galley.Proofs.Trust
import Galley.Proofs.Afterwards
import Galley.Proofs.Unaided
import Galley.Proofs.Underlines
import Galley.Proofs.Uses
import Galley.Proofs.Verbatim
import Galley.Proofs.Verdict
import Galley.Proofs.Visible
import Galley.Proofs.Watch
import Galley.Proofs.Widths
import Galley.Proofs.Words
import Galley.Render
import Galley.Rendering
import Galley.Report
import Galley.Resolve
import Galley.Route
import Galley.Scope
import Galley.Scope.Session
import Galley.Span
import Galley.Stock.Files
import Galley.Stock.Filters
import Galley.Stock.Routes
import Galley.Stock.Tags
import Galley.Template
import Galley.Text.Blank
import Galley.Text.Boundaries
import Galley.Text.Case
import Galley.Text.CaseTable
import Galley.Text.Digit
import Galley.Text.DigitTable
import Galley.Text.Identifier
import Galley.Text.IdentifierTable
import Galley.Text.Markup
import Galley.Text.Percent
import Galley.Text.PrintableTable
import Galley.Text.Quoted
import Galley.Text.Search
import Galley.Text.Slug
import Galley.Text.SlugTable
import Galley.Text.Utf8
import Galley.Text.Wrap
import Galley.Token
import Galley.Value
import Galley.Value.Arithmetic
import Galley.Value.Compare
import Galley.Value.Content
import Galley.Value.Iterate
import Galley.Value.Member
import Galley.Value.Shared
import Galley.Words.Call
import Galley.Words.Chain
import Galley.Words.Condition
import Galley.Words.Literal
import Galley.Words.Load
import Galley.Words.Loop
import Galley.Words.Reading
import Galley.Words.Switch
import Galley.Words.TagName
