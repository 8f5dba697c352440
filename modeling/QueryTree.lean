import QueryTree.Context
import QueryTree.Dialect.Ansi
import QueryTree.Dialect.Basic
import QueryTree.Dialect.Builder
import QueryTree.Dialect.Catalog
import QueryTree.Dialect.Compile
import QueryTree.Dialect.Mysql
import QueryTree.Dialect.Postgres
import QueryTree.Expression.Columns
import QueryTree.Expression.Filter
import QueryTree.Expression.Names
import QueryTree.Expression.Operand
import QueryTree.Fault
import QueryTree.Identifier
import QueryTree.Number.Binary64
import QueryTree.Number.Shortest
import QueryTree.Operator.Clause
import QueryTree.Operator.Comparison
import QueryTree.Operator.Definition
import QueryTree.Operator.Rows
import QueryTree.Operator.Target
import QueryTree.Options.Block
import QueryTree.Options.Outfile
import QueryTree.Options.Settings
import QueryTree.Proofs.AbsentKeys
import QueryTree.Proofs.BareCalls
import QueryTree.Proofs.Bodies
import QueryTree.Proofs.BuiltDialects
import QueryTree.Proofs.ColumnTests
import QueryTree.Proofs.ColumnUse
import QueryTree.Proofs.Comparisons
import QueryTree.Proofs.CompleteCalls
import QueryTree.Proofs.Composition
import QueryTree.Proofs.Confinement
import QueryTree.Proofs.Covering
import QueryTree.Proofs.DataIndependence
import QueryTree.Proofs.Descent
import QueryTree.Proofs.Desugaring
import QueryTree.Proofs.Dialects
import QueryTree.Proofs.DocumentTables
import QueryTree.Proofs.EarlierValues
import QueryTree.Proofs.Equations
import QueryTree.Proofs.ExpressionClauses
import QueryTree.Proofs.Extension
import QueryTree.Proofs.FilledExpressions
import QueryTree.Proofs.FilledOperators
import QueryTree.Proofs.FilledTemplates
import QueryTree.Proofs.FilterReading
import QueryTree.Proofs.FilterTree
import QueryTree.Proofs.Formula
import QueryTree.Proofs.FreshOperators
import QueryTree.Proofs.Gaps
import QueryTree.Proofs.GrammarPrinting
import QueryTree.Proofs.GrammarReading
import QueryTree.Proofs.GrammarRoundTrip
import QueryTree.Proofs.GrammarSpacing
import QueryTree.Proofs.History
import QueryTree.Proofs.IdleSpaces
import QueryTree.Proofs.InStep
import QueryTree.Proofs.Invocations
import QueryTree.Proofs.Leaves
import QueryTree.Proofs.LikeExpressions
import QueryTree.Proofs.LikeOperators
import QueryTree.Proofs.LikeStatements
import QueryTree.Proofs.LikeTemplates
import QueryTree.Proofs.Likeness
import QueryTree.Proofs.MissingNames
import QueryTree.Proofs.NameReading
import QueryTree.Proofs.Nesting
import QueryTree.Proofs.OperandForms
import QueryTree.Proofs.OperandPlaces
import QueryTree.Proofs.Operands
import QueryTree.Proofs.Operations
import QueryTree.Proofs.OperatorClauses
import QueryTree.Proofs.OptionLeaves
import QueryTree.Proofs.Outcome
import QueryTree.Proofs.OutfileBlocks
import QueryTree.Proofs.Phrases
import QueryTree.Proofs.Placeholders
import QueryTree.Proofs.Positions
import QueryTree.Proofs.Precedence
import QueryTree.Proofs.Reading
import QueryTree.Proofs.Refusals
import QueryTree.Proofs.RegistryRuns
import QueryTree.Proofs.Regrouping
import QueryTree.Proofs.Renumbering
import QueryTree.Proofs.Settings
import QueryTree.Proofs.Statements
import QueryTree.Proofs.Surface
import QueryTree.Proofs.TemplateClauses
import QueryTree.Proofs.Termination
import QueryTree.Proofs.Tokens
import QueryTree.Proofs.Verbatim
import QueryTree.Proofs.Widening
import QueryTree.Proofs.Workshop
import QueryTree.Registry
import QueryTree.Registry.Lemmas
import QueryTree.Rendering
import QueryTree.Report
import QueryTree.Session
import QueryTree.Template.Basic
import QueryTree.Template.Grammar
import QueryTree.Template.Layout
import QueryTree.Template.Render
import QueryTree.Text.Blank
import QueryTree.Text.Case
import QueryTree.Text.Quoted
import QueryTree.Text.Split
import QueryTree.Value
import QueryTree.Value.Lemmas
import QueryTree.Value.Literal
