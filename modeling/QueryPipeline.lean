import QueryPipeline.Canonical
import QueryPipeline.Command.Arguments
import QueryPipeline.Command.Describe
import QueryPipeline.Command.Ending
import QueryPipeline.Command.Parse
import QueryPipeline.Condition
import QueryPipeline.Cursor
import QueryPipeline.Descriptor
import QueryPipeline.Expr.Basic
import QueryPipeline.Expr.Rules
import QueryPipeline.Filter
import QueryPipeline.Json.Reader
import QueryPipeline.Json.Writer
import QueryPipeline.Main
import QueryPipeline.Note
import QueryPipeline.Number.Binary64
import QueryPipeline.Number.Integer
import QueryPipeline.Pipeline
import QueryPipeline.Problem
import QueryPipeline.Proofs.Canonical.Faithful
import QueryPipeline.Proofs.Canonical.Form
import QueryPipeline.Proofs.Canonical.Normal
import QueryPipeline.Proofs.Canonical.Stored
import QueryPipeline.Proofs.Command.Arguments
import QueryPipeline.Proofs.Command.Batch
import QueryPipeline.Proofs.Command.Stored
import QueryPipeline.Proofs.Condition.Comparison
import QueryPipeline.Proofs.Condition.Expressible
import QueryPipeline.Proofs.Condition.Extract
import QueryPipeline.Proofs.Condition.Grouping
import QueryPipeline.Proofs.Condition.Operands
import QueryPipeline.Proofs.Condition.Timestamp
import QueryPipeline.Proofs.Condition.Truth
import QueryPipeline.Proofs.Descriptor.Build
import QueryPipeline.Proofs.Descriptor.Columns
import QueryPipeline.Proofs.Descriptor.Config
import QueryPipeline.Proofs.Descriptor.Contained
import QueryPipeline.Proofs.Descriptor.Expressible
import QueryPipeline.Proofs.Descriptor.Malformed
import QueryPipeline.Proofs.Descriptor.Shown
import QueryPipeline.Proofs.Expr.Blame
import QueryPipeline.Proofs.Expr.Complete
import QueryPipeline.Proofs.Expr.Grammar
import QueryPipeline.Proofs.Expr.Induction
import QueryPipeline.Proofs.Expr.Lockstep
import QueryPipeline.Proofs.Expr.Printable
import QueryPipeline.Proofs.Expr.Render
import QueryPipeline.Proofs.Expr.Sound
import QueryPipeline.Proofs.Json.Number
import QueryPipeline.Proofs.Json.Quote
import QueryPipeline.Proofs.Json.Read
import QueryPipeline.Proofs.Json.Shape
import QueryPipeline.Proofs.Json.Sound
import QueryPipeline.Proofs.Message.Shown
import QueryPipeline.Proofs.Number
import QueryPipeline.Proofs.Number.Binary64
import QueryPipeline.Proofs.Phrase
import QueryPipeline.Proofs.Render
import QueryPipeline.Proofs.Rule
import QueryPipeline.Proofs.Rule.Blame
import QueryPipeline.Proofs.Rule.Contained
import QueryPipeline.Proofs.Rule.Lockstep
import QueryPipeline.Proofs.Session
import QueryPipeline.Proofs.Session.Beside
import QueryPipeline.Proofs.Session.Slice
import QueryPipeline.Proofs.Source
import QueryPipeline.Proofs.Statement.Alias
import QueryPipeline.Proofs.Statement.Alike
import QueryPipeline.Proofs.Statement.Blame
import QueryPipeline.Proofs.Statement.Complete
import QueryPipeline.Proofs.Statement.Exact
import QueryPipeline.Proofs.Statement.Expressions
import QueryPipeline.Proofs.Statement.Grammar
import QueryPipeline.Proofs.Statement.Inner
import QueryPipeline.Proofs.Statement.Lockstep
import QueryPipeline.Proofs.Statement.Printable
import QueryPipeline.Proofs.Statement.Render
import QueryPipeline.Proofs.Statement.Segment
import QueryPipeline.Proofs.Statement.Sound
import QueryPipeline.Proofs.Steps
import QueryPipeline.Proofs.Summary
import QueryPipeline.Proofs.Table.Aligned
import QueryPipeline.Proofs.Text.Case
import QueryPipeline.Proofs.Token.Compose
import QueryPipeline.Proofs.Token.Cover
import QueryPipeline.Proofs.Token.Offence
import QueryPipeline.Proofs.Token.Order
import QueryPipeline.Proofs.Token.Spaced
import QueryPipeline.Proofs.Token.Span
import QueryPipeline.Proofs.Token.Written
import QueryPipeline.Proofs.Tree.Same
import QueryPipeline.Proofs.Value.Made
import QueryPipeline.Proofs.Value.Override
import QueryPipeline.Proofs.Value.Same
import QueryPipeline.Script
import QueryPipeline.Session
import QueryPipeline.Shape
import QueryPipeline.Source
import QueryPipeline.Statement.Basic
import QueryPipeline.Statement.Rules
import QueryPipeline.Summary
import QueryPipeline.Table
import QueryPipeline.Text.Blank
import QueryPipeline.Text.Case
import QueryPipeline.Text.CaseTable
import QueryPipeline.Text.Decimal
import QueryPipeline.Text.Printable
import QueryPipeline.Text.Quoted
import QueryPipeline.Text.Range
import QueryPipeline.Token.Basic
import QueryPipeline.Token.Kind
import QueryPipeline.Token.Place
import QueryPipeline.Token.Scanner
import QueryPipeline.Tree.Build
import QueryPipeline.Tree.OfStatement
import QueryPipeline.Tree.Parts
import QueryPipeline.Value.Basic
import QueryPipeline.Value.Display
import QueryPipeline.Value.Same
