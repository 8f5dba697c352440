import QueryTree.Dialect.Builder
import QueryTree.Operator.Clause
import QueryTree.Operator.Comparison
import QueryTree.Operator.Definition
import QueryTree.Operator.Rows
import QueryTree.Options.Settings
import QueryTree.Template.Layout

/-!
# The base dialect

Every other dialect is composed on top of this one: names between backticks, question marks for
placeholders, and the statements that all dialects share.

* **`Dialect.ansi`** is the dialect.
-/

namespace QueryTree

open Layout (clause word)

namespace Ansi

/-- The layout of a query. -/
def select : List Char :=
  Layout.rows
    [(4, [word "SELECT", clause "DISTINCT" "[$distinct]", word "[$columns]"]),
      (4, [clause "FROM" "[$from]", clause "FROM" "[$table]"]),
      (4, [clause "WHERE" "[$where]"]),
      (4, [clause "GROUP BY" "[$groupBy]"]),
      (4, [clause "HAVING" "[$having]"]),
      (4, [clause "ORDER BY" "[$sort]"]),
      (4, [clause "LIMIT" "[$limit]"]),
      (4, [clause "OFFSET" "[$offset]"])]

/-- The layout of an insertion. -/
def insert : List Char :=
  Layout.row [word "INSERT INTO", word "<$table>", word "<$documents>"]

/-- The layout of an update. -/
def update : List Char :=
  Layout.row
    [word "UPDATE", word "<$table>", word "SET", word "<$set>", clause "WHERE" "[$where]"]

/-- The layout of a deletion. -/
def delete : List Char :=
  Layout.row [word "DELETE FROM", word "<$table>", clause "WHERE" "[$where]"]

/-- The layout of a table definition. -/
def createTable : List Char :=
  Layout.rows
    [(4, [word "CREATE", clause "TEMPORARY" "[$temp]", word "TABLE",
      clause "IF NOT EXISTS" "[$ine]", word "<$table>", word "(<$define, ...>)"])]

/-- The layout of the removal of a table. -/
def dropTable : List Char :=
  Layout.row [word "DROP TABLE", clause "IF EXISTS" "[$ie]", word "<$table>"]

/-- The layout of a column definition. -/
def column : List Char :=
  Layout.rows
    [(4, [word "<$type>[$length]"]),
      (8, [clause "NOT NULL" "[$notNull]"]),
      (8, [clause "DEFAULT" "[$default]"]),
      (8, [clause "PRIMARY KEY" "[$primary]"]),
      (8, [clause "UNIQUE" "[$unique]"])]

/-- A query selects all columns unless it says which. -/
def selectDefaults : Fields := [("$columns", .str "*")]

/-- The functions that aggregate a column. -/
def aggregates : List (String × String) :=
  [("$count", "COUNT"), ("$sum", "SUM"), ("$avg", "AVG"), ("$min", "MIN"), ("$max", "MAX")]

/-- The switches whose keywords stand in the templates. -/
def flags : List String :=
  ["$distinct", "$temp", "$ine", "$ie", "$notNull", "$primary", "$unique"]

/-- The operators that are neither templates nor predicates, with their handlers. -/
def operators : List (String × Handler) :=
  [("$columns", Operator.resultColumns), ("$from", Operator.tables), ("$table", Operator.tables),
    ("$where", Operator.filter), ("$having", Operator.filter), ("$groupBy", Operator.grouping),
    ("$sort", Operator.sorting), ("$limit", Operator.limit), ("$offset", Operator.offset),
    ("$set", Operator.assignments), ("$documents", Operator.documents)]
  ++ flags.map (fun name => (name, Operator.flag name))
  ++ [("$val", Operator.boundValue)]
  ++ aggregates.map (fun entry => (entry.1, Operator.aggregate entry.2 entry.1))
  ++ comparisonWords.map (fun entry => (entry.1, Operator.comparison entry.1 entry.2))
  ++ [("$in", Operator.membership "$in" "IN"), ("$nin", Operator.membership "$nin" "NOT IN"),
    ("$between", Operator.between), ("$isNull", Operator.nullTest),
    ("$define", Operator.definitions), ("$constraint", Operator.constraints),
    ("$type", Operator.columnType), ("$length", Operator.columnLength),
    ("$default", Operator.columnDefault)]

/-- The composition of the base dialect. -/
def composition : Compose Unit := do
  let _ ← Compose.registerTemplate "$select" (Template.parse select) selectDefaults true
  let _ ← Compose.registerTemplate "$insert" (Template.parse insert) [] true
  let _ ← Compose.registerTemplate "$update" (Template.parse update) [] true
  let _ ← Compose.registerTemplate "$delete" (Template.parse delete) [] true
  let _ ← Compose.registerTemplate "$createTable" (Template.parse createTable) [] true
  let _ ← Compose.registerTemplate "$dropTable" (Template.parse dropTable) [] true
  let _ ← Compose.registerTemplate "$column" (Template.parse column) [] false
  Compose.registerAll operators
  Compose.register "$expr" Operator.expressionTest false true
  Compose.register "$not" Operator.negation false true

end Ansi

/-- The base dialect. -/
def Dialect.ansi : Dialect :=
  Compose.dialectOf baseDialectName none Ansi.composition

end QueryTree
