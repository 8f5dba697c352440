import QueryTree.Dialect.Ansi

/-!
# The PostgreSQL dialect

On top of the base dialect: names between double quotes, numbered placeholders, a literal for "no
limit", comparison without regard to case, and more to say of tables and columns.

* **`Dialect.postgres`** is the dialect.
-/

namespace QueryTree

open Layout (clause word)

namespace Postgres

/-- The layout of a table definition. -/
def createTable : List Char :=
  Layout.rows
    [(4, [word "CREATE", clause "TEMPORARY" "[$temp]", clause "UNLOGGED" "[$unlogged]",
        word "TABLE", clause "IF NOT EXISTS" "[$ine]", word "<$table>"]),
      (8, [word "(<$define, ...>)"]),
      (8, [clause "WITH" "([$with])"]),
      (8, [clause "TABLESPACE" "[$tablespace]"])]

/-- The layout of a column definition. -/
def column : List Char :=
  Layout.rows
    [(4, [word "<$type>[$length]"]),
      (8, [clause "NOT NULL" "[$notNull]"]),
      (8, [clause "DEFAULT" "[$default]"]),
      (8, [word "[$identity]"]),
      (8, [clause "PRIMARY KEY" "[$primary]"]),
      (8, [clause "UNIQUE" "[$unique]"]),
      (8, [clause "COLLATE" "[$collate]"]),
      (8, [clause "CHECK" "([$check])"]),
      (8, [clause "REFERENCES" "[$references]"])]

/-- The parameters of the storage of a table. -/
def storage : List Char := word "[$oids]"

/-- The operators that the base dialect does not have. -/
def operators : List (String × Handler) :=
  [("$ilike", Operator.comparison "$ilike" "ILIKE"), ("$unlogged", Operator.flag "$unlogged"),
    ("$identity", Operator.identityColumn), ("$collate", Operator.collation),
    ("$check", Operator.check), ("$references", Operator.reference),
    ("$oids", Operator.objectIds), ("$tablespace", Operator.tablespace)]

/-- The composition of the PostgreSQL dialect. -/
def composition : Compose Unit := do
  Compose.quoting .doubleQuote
  Compose.placeholder .numbered
  Compose.maxLimit "ALL"
  let _ ← Compose.updateTemplate "$createTable" (Template.parse createTable) []
  let _ ← Compose.updateTemplate "$column" (Template.parse column) []
  let _ ← Compose.registerTemplate "$with" (Template.parse storage) [] false
  Compose.registerAll operators

end Postgres

/-- The PostgreSQL dialect. -/
def Dialect.postgres : Dialect :=
  Compose.dialectOf "postgresql" (some .ansi) Postgres.composition

end QueryTree
