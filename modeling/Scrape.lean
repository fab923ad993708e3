import Scrape.Address.Basic
import Scrape.Address.Host
import Scrape.Address.Label
import Scrape.Address.Parser
import Scrape.Chain.Reading
import Scrape.Chain.Select
import Scrape.Chain.Step
import Scrape.Css.Match
import Scrape.Css.Parser
import Scrape.Css.Selector
import Scrape.Css.Token
import Scrape.Document
import Scrape.Evaluate.Basic
import Scrape.Evaluate.Directive
import Scrape.Evaluate.Suffix
import Scrape.Evaluate.Template
import Scrape.Html.Build.Basic
import Scrape.Html.Build.Body
import Scrape.Html.Build.Foreign
import Scrape.Html.Build.Forest
import Scrape.Html.Build.Misnested
import Scrape.Html.Build.Page
import Scrape.Html.Build.Table
import Scrape.Html.Entity
import Scrape.Html.Node
import Scrape.Html.Parse
import Scrape.Html.Printer
import Scrape.Html.Reference
import Scrape.Html.Token
import Scrape.Html.Unscripted
import Scrape.Json.Basic
import Scrape.Json.Loose
import Scrape.Json.Parser
import Scrape.Json.Path
import Scrape.Json.Printer
import Scrape.Keyed
import Scrape.Number.Arithmetic
import Scrape.Number.Basic
import Scrape.Number.Decimal
import Scrape.Number.Reading
import Scrape.Options
import Scrape.Pattern.Basic
import Scrape.Pattern.CharSet
import Scrape.Pattern.Literal
import Scrape.Pattern.Match
import Scrape.Pattern.Parser
import Scrape.Pattern.Program
import Scrape.Proofs.Depth
import Scrape.Proofs.Json.Lookup
import Scrape.Proofs.Rule.Fill
import Scrape.Proofs.Rule.Span
import Scrape.Proofs.Text.Find
import Scrape.Record
import Scrape.Rule.Composite
import Scrape.Rule.IndexSet
import Scrape.Rule.Mode
import Scrape.Rule.Replacement
import Scrape.Rule.Segment
import Scrape.Rule.Span
import Scrape.Rule.Split
import Scrape.Script.Evaluate
import Scrape.Script.Failure
import Scrape.Script.Interp
import Scrape.Script.Method.Global
import Scrape.Script.Method.List
import Scrape.Script.Method.Regex
import Scrape.Script.Method.Text
import Scrape.Script.Nesting
import Scrape.Script.Operator
import Scrape.Script.Parse
import Scrape.Script.Reader.Expr
import Scrape.Script.Reader.Source
import Scrape.Script.Reader.Stmt
import Scrape.Script.Run
import Scrape.Script.Syntax
import Scrape.Script.Target
import Scrape.Script.Token
import Scrape.Script.Value
import Scrape.Session
import Scrape.Text.Blank
import Scrape.Text.Case
import Scrape.Text.Category
import Scrape.Text.Find
import Scrape.Text.Integer
import Scrape.Text.Percent
import Scrape.Text.Property
import Scrape.Text.Runs
import Scrape.Text.WritingSystem
import Scrape.XPath.Basic
import Scrape.XPath.Parser
import Scrape.XPath.Select
import Scrape.Proofs.Loop
import Scrape.Proofs.Evaluate.Extend
import Scrape.Proofs.Text.Blank
import Scrape.Proofs.Rule.Segment
import Scrape.Proofs.Evaluate.Calls
import Scrape.Proofs.Evaluate.Endless
import Scrape.Proofs.Evaluate.Directive
import Scrape.Proofs.Evaluate.Kept
import Scrape.Proofs.Evaluate.Suffix
import Scrape.Proofs.Evaluate.Filled
import Scrape.Proofs.Evaluate.Run
import Scrape.Proofs.Json.Endless
import Scrape.Proofs.Script.Congruence
import Scrape.Proofs.Script.Run
import Scrape.Proofs.Script.Budget
import Scrape.Proofs.Rule.Mark
import Scrape.Proofs.Rule.Cut
import Scrape.Proofs.Rule.Split
import Scrape.Proofs.Rule.Composite
import Scrape.Proofs.Html.Element
import Scrape.Proofs.XPath.Meaning
import Scrape.Proofs.Rule.Reading
import Scrape.Proofs.Rule.Agreement
import Scrape.Proofs.Rule.Written
import Scrape.Proofs.Evaluate.Failing
import Scrape.Proofs.Script.Silent
import Scrape.Proofs.XPath.Step
import Scrape.Proofs.XPath.Located
import Scrape.Proofs.Html.TextNode
import Scrape.Proofs.XPath.Leaf
import Scrape.Proofs.Html.Order
import Scrape.Proofs.Chain.Demand
import Scrape.Proofs.Chain.Descent
import Scrape.Proofs.Evaluate.Put
import Scrape.Proofs.Pattern.Part
import Scrape.Proofs.Script.Items
import Scrape.Proofs.Script.Texts
import Scrape.Proofs.Css.Unfinished
import Scrape.Proofs.Json.Projection
import Scrape.Proofs.Rule.Range
import Scrape.Proofs.Chain.Filter
import Scrape.Proofs.Script.Scope
import Scrape.Proofs.Script.Slot
import Scrape.Proofs.Script.Member
import Scrape.Proofs.Script.Finalizer
import Scrape.Proofs.Script.Receiver
import Scrape.Proofs.Script.Evaluations
import Scrape.Proofs.Rule.Balance
import Scrape.Proofs.Json.Rewriting
import Scrape.Proofs.Json.Braced
import Scrape.Proofs.Evaluate.Pairs
import Scrape.Proofs.Script.Bracket.Tree
import Scrape.Proofs.Script.Bracket.Measure
import Scrape.Proofs.Script.Bracket.Token
import Scrape.Proofs.Script.Bracket.Reader
import Scrape.Proofs.Script.Bracket.Expr
import Scrape.Proofs.Script.Bracket.Stmt
import Scrape.Proofs.Script.Bracket.Guard
import Scrape.Proofs.Text.Integer
import Scrape.Proofs.Rule.Walk
import Scrape.Proofs.Rule.Partition
import Scrape.Proofs.Rule.Appended
import Scrape.Proofs.Json.Spelling
import Scrape.Proofs.Json.Search
import Scrape.Proofs.Rule.Operands
import Scrape.Proofs.XPath.Block
import Scrape.Proofs.XPath.Enclosed
import Scrape.Proofs.XPath.Restriction
import Scrape.Proofs.XPath.RoundTrip
import Scrape.Proofs.Script.Stack
import Scrape.Proofs.Script.Sort
import Scrape.Proofs.Rule.Replacement
import Scrape.Proofs.Html.Unscripted
import Scrape.Proofs.Pattern.Literal
import Scrape.Proofs.Script.Yields
import Scrape.Proofs.Script.Splitting
import Scrape.Proofs.Script.Position
import Scrape.Proofs.Json.Distinct
import Scrape.Proofs.Script.Hereditary.Value
import Scrape.Proofs.Script.Hereditary.Machine
import Scrape.Proofs.Script.Distinct
import Scrape.Proofs.Css.Quoted
import Scrape.Proofs.Chain.Id
import Scrape.Proofs.Rule.Turn
import Scrape.Proofs.Script.Equality
import Scrape.Proofs.Script.Word
import Scrape.Proofs.Number.Numeral
