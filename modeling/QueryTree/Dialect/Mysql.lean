import QueryTree.Dialect.Ansi
import QueryTree.Operator.Target

/-!
# The MySQL dialect

On top of the base dialect: results that go to variables or files, a count of the rows that a limit
cut off, totals of groups, and columns that number their rows or carry a comment.

* **`Dialect.mysql`** is the dialect.
-/

namespace QueryTree

open Layout (clause optional word)

namespace Mysql

/-- The layout of a query. -/
def select : List Char :=
  Layout.rows
    [(4, [word "SELECT", clause "SQL_CALC_FOUND_ROWS" "[$calcFoundRows]",
        clause "DISTINCT" "[$distinct]", word "[$columns]"]),
      (4, [clause "INTO" "[$into]"]),
      (4, [clause "FROM" "[$from]", clause "FROM" "[$table]"]),
      (4, [clause "WHERE" "[$where]"]),
      (4, [optional [word "GROUP BY", word "[$groupBy]", clause "WITH ROLLUP" "[$rollup]"]]),
      (4, [clause "HAVING" "[$having]"]),
      (4, [clause "ORDER BY" "[$sort]"]),
      (4, [clause "LIMIT" "[$limit]"]),
      (4, [clause "OFFSET" "[$offset]"]),
      (4, [word "[$outfile]"])]

/-- The layout of a column definition. -/
def column : List Char :=
  Layout.rows
    [(4, [word "<$type>[$length]"]),
      (8, [clause "NOT NULL" "[$notNull]"]),
      (8, [clause "DEFAULT" "[$default]"]),
      (8, [clause "AUTO_INCREMENT" "[$autoIncrement]"]),
      (8, [clause "PRIMARY KEY" "[$primary]"]),
      (8, [clause "UNIQUE" "[$unique]"]),
      (8, [clause "COMMENT" "[$comment]"])]

/-- The operators that the base dialect does not have. -/
def operators : List (String × Handler) :=
  [("$into", Operator.target), ("$outfile", Operator.outfile),
    ("$comment", Operator.columnComment),
    ("$calcFoundRows", Operator.flag "$calcFoundRows"), ("$rollup", Operator.flag "$rollup"),
    ("$autoIncrement", Operator.flag "$autoIncrement")]

/-- The composition of the MySQL dialect. -/
def composition : Compose Unit := do
  let _ ← Compose.updateTemplate "$select" (Template.parse select) Ansi.selectDefaults
  let _ ← Compose.updateTemplate "$column" (Template.parse column) []
  Compose.registerAll operators

end Mysql

/-- The MySQL dialect. -/
def Dialect.mysql : Dialect :=
  Compose.dialectOf "mysql" (some .ansi) Mysql.composition

end QueryTree
