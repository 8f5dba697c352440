import QueryTree.Dialect.Mysql
import QueryTree.Dialect.Postgres
import QueryTree.Proofs.Composition

/-!
# The dialects of the library, written out

The three dialects are given by compositions.  Here their templates are written as the lists of
parts that their grammars stand for, and their operators as one table each.

* `Ansi.table`, `Mysql.table` and `Postgres.table` list the operators that each composition
  registers, with their handlers.
* **`Dialect.ansi_eq`**, **`Dialect.mysql_eq`**, **`Dialect.postgres_eq`** : the dialects are these
  tables with their settings.
* `Dialect.library` lists the three dialects, and `Dialect.find?_mem` says that every operator that
  one of them knows stands in one of the tables.
-/

namespace QueryTree

/-- The part of a template that `{ WORD … [$key] }` stands for. -/
def Template.clauseNode (words : List String) (key : String) : Template.Node :=
  .group (words.map (.word · true) ++ [.inline key true]) key true

open Template (clauseNode)

/-! ## The base dialect -/

namespace Ansi

def selectTemplate : Template :=
  ⟨"$select", String.ofList select,
    [.word "SELECT" true, clauseNode ["DISTINCT"] "$distinct", .inline "$columns" true,
      clauseNode ["FROM"] "$from", clauseNode ["FROM"] "$table", clauseNode ["WHERE"] "$where",
      clauseNode ["GROUP", "BY"] "$groupBy", clauseNode ["HAVING"] "$having",
      clauseNode ["ORDER", "BY"] "$sort", clauseNode ["LIMIT"] "$limit",
      clauseNode ["OFFSET"] "$offset"]⟩

def insertTemplate : Template :=
  ⟨"$insert", String.ofList insert,
    [.word "INSERT" false, .word "INTO" true, .required "$table" true,
      .required "$documents" true]⟩

def updateTemplate : Template :=
  ⟨"$update", String.ofList update,
    [.word "UPDATE" false, .required "$table" true, .word "SET" true, .required "$set" true,
      clauseNode ["WHERE"] "$where"]⟩

def deleteTemplate : Template :=
  ⟨"$delete", String.ofList delete,
    [.word "DELETE" false, .word "FROM" true, .required "$table" true,
      clauseNode ["WHERE"] "$where"]⟩

def createTableTemplate : Template :=
  ⟨"$createTable", String.ofList createTable,
    [.word "CREATE" true, clauseNode ["TEMPORARY"] "$temp", .word "TABLE" true,
      clauseNode ["IF", "NOT", "EXISTS"] "$ine", .required "$table" true, .word "(" true,
      .series "$define" ", " true false, .word ")" false]⟩

def dropTableTemplate : Template :=
  ⟨"$dropTable", String.ofList dropTable,
    [.word "DROP" false, .word "TABLE" true, clauseNode ["IF", "EXISTS"] "$ie",
      .required "$table" true]⟩

def columnTemplate : Template :=
  ⟨"$column", String.ofList column,
    [.required "$type" true, .inline "$length" false, clauseNode ["NOT", "NULL"] "$notNull",
      clauseNode ["DEFAULT"] "$default", clauseNode ["PRIMARY", "KEY"] "$primary",
      clauseNode ["UNIQUE"] "$unique"]⟩

/-- The operators of the base dialect that templates render. -/
def templated : List (Template × Fields) :=
  [(selectTemplate, selectDefaults), (insertTemplate, []), (updateTemplate, []),
    (deleteTemplate, []), (createTableTemplate, []), (dropTableTemplate, []), (columnTemplate, [])]

/-- The operators of the base dialect. -/
def table : List (String × Handler) :=
  templated.map (fun entry => (entry.1.name, entry.1.handler entry.2)) ++ operators
    ++ [("$expr", Operator.expressionTest), ("$not", Operator.negation)]

/-- The statements that all dialects share. -/
def statements : List String :=
  ["$select", "$insert", "$update", "$delete", "$createTable", "$dropTable"]

/-- The filter operators that all dialects share. -/
def predicates : List String := ["$expr", "$not"]

/-- The templates of the base dialect by name. -/
def templates : List (String × Template) :=
  templated.map fun entry => (entry.1.name, entry.1)

theorem composition_does :
    Compose.Does composition (Builder.start baseDialectName none) ()
      ((Builder.start baseDialectName none).holding table templates statements predicates) := by
  have hopen : (Builder.start baseDialectName none).IsOpen := ⟨rfl, rfl⟩
  have hstart : Builder.start baseDialectName none =
      (Builder.start baseDialectName none).holding [] [] [] [] := rfl
  rw [hstart]
  refine (Compose.registerTemplate_does hopen (by decide) (by decide) selectTemplate rfl
    selectDefaults true).bind ?_
  refine (Compose.registerTemplate_does hopen (by decide) (by decide) insertTemplate rfl []
    true).bind ?_
  refine (Compose.registerTemplate_does hopen (by decide) (by decide) updateTemplate rfl []
    true).bind ?_
  refine (Compose.registerTemplate_does hopen (by decide) (by decide) deleteTemplate rfl []
    true).bind ?_
  refine (Compose.registerTemplate_does hopen (by decide) (by decide) createTableTemplate rfl []
    true).bind ?_
  refine (Compose.registerTemplate_does hopen (by decide) (by decide) dropTableTemplate rfl []
    true).bind ?_
  refine (Compose.registerTemplate_does hopen (by decide) (by decide) columnTemplate rfl []
    false).bind ?_
  refine (Compose.registerAll_does hopen operators (by decide) (by decide)).bind ?_
  refine (Compose.register_does hopen (by decide) (by decide) Operator.expressionTest false
    true).bind ?_
  exact Compose.register_does hopen (by decide) (by decide) Operator.negation false true

end Ansi

/-- The base dialect, written out. -/
theorem Dialect.ansi_eq :
    Dialect.ansi =
      { name := baseDialectName
        registry := ⟨⟨baseDialectName, Ansi.table, true⟩, []⟩
        templates := Ansi.templates
        statements := Ansi.statements
        predicates := Ansi.predicates
        quoting := .backtick
        placeholder := .question
        maxLimit := defaultMaxLimit
        base := none } := by
  unfold Dialect.ansi
  rw [Compose.dialectOf_eq Ansi.composition_does]
  rfl

/-- A composition on top of another dialect starts with its tables. -/
theorem Builder.start_eq (name : String) (base : Dialect) :
    Builder.start name (some base) =
      (Builder.start name (some base)).holding [] base.templates base.statements
        base.predicates := rfl

/-! ## The MySQL dialect -/

namespace Mysql

def selectTemplate : Template :=
  ⟨"$select", String.ofList select,
    [.word "SELECT" true, clauseNode ["SQL_CALC_FOUND_ROWS"] "$calcFoundRows",
      clauseNode ["DISTINCT"] "$distinct", .inline "$columns" true, clauseNode ["INTO"] "$into",
      clauseNode ["FROM"] "$from", clauseNode ["FROM"] "$table", clauseNode ["WHERE"] "$where",
      .group [.word "GROUP" true, .word "BY" true, .inline "$groupBy" true,
        clauseNode ["WITH", "ROLLUP"] "$rollup"] "$groupBy" true,
      clauseNode ["HAVING"] "$having", clauseNode ["ORDER", "BY"] "$sort",
      clauseNode ["LIMIT"] "$limit", clauseNode ["OFFSET"] "$offset", .inline "$outfile" true]⟩

def columnTemplate : Template :=
  ⟨"$column", String.ofList column,
    [.required "$type" true, .inline "$length" false, clauseNode ["NOT", "NULL"] "$notNull",
      clauseNode ["DEFAULT"] "$default", clauseNode ["AUTO_INCREMENT"] "$autoIncrement",
      clauseNode ["PRIMARY", "KEY"] "$primary", clauseNode ["UNIQUE"] "$unique",
      clauseNode ["COMMENT"] "$comment"]⟩

/-- The operators that the MySQL dialect adds or replaces. -/
def table : List (String × Handler) :=
  [("$select", selectTemplate.handler Ansi.selectDefaults), ("$column", columnTemplate.handler [])]
    ++ operators

/-- The templates of the MySQL dialect by name. -/
def templates : List (String × Template) :=
  setEntry "$column" columnTemplate (setEntry "$select" selectTemplate Ansi.templates)

theorem composition_does {base : Dialect} (htemplates : base.templates = Ansi.templates)
    (hstatements : base.statements = Ansi.statements) :
    Compose.Does composition (Builder.start "mysql" (some base)) ()
      ((Builder.start "mysql" (some base)).holding table templates Ansi.statements
        base.predicates) := by
  have hopen : (Builder.start "mysql" (some base)).IsOpen := ⟨rfl, rfl⟩
  rw [Builder.start_eq, htemplates, hstatements]
  refine (Compose.updateTemplate_does hopen (by decide) (by decide) selectTemplate rfl rfl
    Ansi.selectDefaults).bind ?_
  refine (Compose.updateTemplate_does hopen (by decide) (by decide) columnTemplate rfl rfl
    []).bind ?_
  exact Compose.registerAll_does hopen operators (by decide) (by decide)

end Mysql

/-- The MySQL dialect, written out. -/
theorem Dialect.mysql_eq :
    Dialect.mysql =
      { name := "mysql"
        registry := ⟨⟨"mysql", Mysql.table, true⟩, [⟨baseDialectName, Ansi.table, true⟩]⟩
        templates := Mysql.templates
        statements := Ansi.statements
        predicates := Ansi.predicates
        quoting := .backtick
        placeholder := .question
        maxLimit := defaultMaxLimit
        base := some baseDialectName } := by
  unfold Dialect.mysql
  rw [Dialect.ansi_eq, Compose.dialectOf_eq (Mysql.composition_does rfl rfl)]
  rfl

/-! ## The PostgreSQL dialect -/

namespace Postgres

def createTableTemplate : Template :=
  ⟨"$createTable", String.ofList createTable,
    [.word "CREATE" true, clauseNode ["TEMPORARY"] "$temp", clauseNode ["UNLOGGED"] "$unlogged",
      .word "TABLE" true, clauseNode ["IF", "NOT", "EXISTS"] "$ine", .required "$table" true,
      .word "(" true, .series "$define" ", " true false, .word ")" false,
      .group [.word "WITH" true, .word "(" true, .inline "$with" false, .word ")" false] "$with"
        true,
      clauseNode ["TABLESPACE"] "$tablespace"]⟩

def columnTemplate : Template :=
  ⟨"$column", String.ofList column,
    [.required "$type" true, .inline "$length" false, clauseNode ["NOT", "NULL"] "$notNull",
      clauseNode ["DEFAULT"] "$default", .inline "$identity" true,
      clauseNode ["PRIMARY", "KEY"] "$primary", clauseNode ["UNIQUE"] "$unique",
      clauseNode ["COLLATE"] "$collate",
      .group [.word "CHECK" true, .word "(" true, .inline "$check" false, .word ")" false] "$check"
        true,
      clauseNode ["REFERENCES"] "$references"]⟩

def storageTemplate : Template :=
  ⟨"$with", String.ofList storage, [.inline "$oids" false]⟩

/-- The operators that the PostgreSQL dialect adds or replaces. -/
def table : List (String × Handler) :=
  [("$createTable", createTableTemplate.handler []), ("$column", columnTemplate.handler []),
    ("$with", storageTemplate.handler [])] ++ operators

/-- The templates of the PostgreSQL dialect by name. -/
def templates : List (String × Template) :=
  setEntry "$with" storageTemplate
    (setEntry "$column" columnTemplate (setEntry "$createTable" createTableTemplate Ansi.templates))

/-- The builder of the PostgreSQL dialect once its settings are made. -/
def configured (base : Dialect) : Builder :=
  { Builder.start "postgresql" (some base) with
    quoting := .doubleQuote
    placeholder := .numbered
    maxLimit := "ALL" }

theorem composition_does {base : Dialect} (htemplates : base.templates = Ansi.templates)
    (hstatements : base.statements = Ansi.statements) :
    Compose.Does composition (Builder.start "postgresql" (some base)) ()
      ((configured base).holding table templates Ansi.statements base.predicates) := by
  have hopen : (configured base).IsOpen := ⟨rfl, rfl⟩
  have hconfigured : configured base =
      (configured base).holding [] base.templates base.statements base.predicates := rfl
  refine ((Compose.checkOpen_does rfl _).bind (Compose.does_modify _ _)).bind ?_
  refine ((Compose.checkOpen_does rfl _).bind (Compose.does_modify _ _)).bind ?_
  refine ((Compose.checkOpen_does rfl _).bind (Compose.does_modify _ _)).bind ?_
  change Compose.Does _ (configured base) () _
  rw [hconfigured, htemplates, hstatements]
  refine (Compose.updateTemplate_does hopen (by decide) (by decide) createTableTemplate rfl rfl
    []).bind ?_
  refine (Compose.updateTemplate_does hopen (by decide) (by decide) columnTemplate rfl rfl
    []).bind ?_
  refine (Compose.registerTemplate_does hopen (by decide) (by decide) storageTemplate rfl []
    false).bind ?_
  exact Compose.registerAll_does hopen operators (by decide) (by decide)

end Postgres

/-- The PostgreSQL dialect, written out. -/
theorem Dialect.postgres_eq :
    Dialect.postgres =
      { name := "postgresql"
        registry := ⟨⟨"postgresql", Postgres.table, true⟩, [⟨baseDialectName, Ansi.table, true⟩]⟩
        templates := Postgres.templates
        statements := Ansi.statements
        predicates := Ansi.predicates
        quoting := .doubleQuote
        placeholder := .numbered
        maxLimit := "ALL"
        base := some baseDialectName } := by
  unfold Dialect.postgres
  rw [Dialect.ansi_eq, Compose.dialectOf_eq (Postgres.composition_does rfl rfl)]
  rfl

/-! ## What they have in common -/

/-- The dialects of the library. -/
def Dialect.library : List Dialect := [.ansi, .mysql, .postgres]

/-- Every operator that a dialect of the library knows stands in one of the tables. -/
theorem Dialect.find?_mem {d : Dialect} (hd : d ∈ Dialect.library) {name : String}
    {handler : Handler} (h : d.registry.find? name = some handler) :
    (name, handler) ∈ Ansi.table ++ Mysql.table ++ Postgres.table := by
  have hlayers : ∀ layer ∈ d.registry.layers,
      ∀ entry ∈ layer.entries, entry ∈ Ansi.table ++ Mysql.table ++ Postgres.table := by
    simp only [Dialect.library, List.mem_cons, List.not_mem_nil, or_false] at hd
    rcases hd with rfl | rfl | rfl
    · rw [Dialect.ansi_eq]
      simp +contextual [Registry.layers]
    · rw [Dialect.mysql_eq]
      simp +contextual [Registry.layers]
    · rw [Dialect.postgres_eq]
      simp +contextual [Registry.layers]
  obtain ⟨layer, hlayer, hget⟩ := List.exists_of_findSome?_eq_some h
  obtain ⟨before, after, hentries, -⟩ := List.lookup_eq_some_iff.1 hget
  exact hlayers layer hlayer _ (by simp [hentries])

/-- An operator of the base dialect that no other dialect replaces. -/
theorem Dialect.find?_of_ansi {d : Dialect} (hd : d ∈ Dialect.library) {name : String}
    {handler : Handler} (h : Ansi.table.lookup name = some handler)
    (hmysql : Mysql.table.lookup name = none) (hpostgres : Postgres.table.lookup name = none) :
    d.registry.find? name = some handler := by
  simp only [Dialect.library, List.mem_cons, List.not_mem_nil, or_false] at hd
  rcases hd with rfl | rfl | rfl
  · rw [Dialect.ansi_eq]
    simp [Registry.find?, Registry.layers, Layer.get?, h]
  · rw [Dialect.mysql_eq]
    simp [Registry.find?, Registry.layers, Layer.get?, h, hmysql]
  · rw [Dialect.postgres_eq]
    simp [Registry.find?, Registry.layers, Layer.get?, h, hpostgres]

end QueryTree
