import QueryTree.Proofs.Statements

/-!
# Placeholders and values

A statement is sent with a list of values, one for each of its placeholders.  Names may hold
question marks, dollar signs and quotes of their own; read as tokens, the statement has no
placeholders but those of its values.

* **`compile_placeholders`** : the placeholders of a compiled query, read from left to right outside
  of quoted names, are those of its values in their order, and every value is a scalar of the query.
-/

namespace QueryTree

open Sql

/-- The placeholders of a clause, as they are read. -/
theorem Sql.Clause.placeholders_lex {S : Scheme} {F : List Value} {text : String}
    {values : List Value} (h : Clause S F 0 text values) :
    (placeholders (lex S.mark text.toList)).map (Token.write S.mark) =
      (List.range values.length).map fun i => (S.text (i + 1)).toList := by
  obtain ⟨ts, hts⟩ := h.spelling
  rw [hts.lex_eq, hts.phrase.slots, List.range'_eq_map_range]
  simp only [List.map_map, Function.comp_def, S.written, Nat.zero_add, Nat.add_comm 1]

/-- **The placeholders of a statement are those of its values, in order.**  The dialect may be given
either style of placeholders. -/
theorem compile_placeholders {d : Dialect} (hd : d ∈ Dialect.library) {style : Placeholder}
    (hstyle : style = .question ∨ style = .numbered) {query : Value} {statement : Statement}
    (h : Dialect.compile { d with placeholder := style } query = .ok statement) :
    (placeholders (lex d.quoting.mark statement.sql.toList)).map (Token.write d.quoting.mark) =
        (List.range statement.values.length).map (fun i => (style (i + 1)).toList) ∧
      ∀ v ∈ statement.values, v.isScalar = true ∧ v ∈ query.leaves := by
  obtain ⟨S, hmark, rfl⟩ := Dialect.exists_scheme hd hstyle
  have hclause := Dialect.clause_of_compile hd hmark h
  refine ⟨?_, fun v hv => ?_⟩
  · rw [hmark]
    exact hclause.placeholders_lex
  · have hleaf := hclause.values_subset hv
    exact ⟨Value.isScalar_of_mem_leaves hleaf, hleaf⟩

/-- A query whose names hold question marks, quotes and numbered placeholders. -/
def hostileQuery : Value :=
  .object
    [("$select", .object
      [("$columns", .object [("a?", .bool true), ("b\x60$7", .int 5)]),
        ("$into", .list [.str "@x$1", .str "y$2"]),
        ("$table", .str "t\x60 ? \x60"),
        ("$where", .object
          [("c", .object
            [("$in", .object
              [("$select", .object
                [("$columns", .str "?"), ("$table", .str "u"),
                  ("$where", .object [("d$1", .list [.int 1, .null])])])])])]),
        ("$limit", .int 3)])]

/-- The statement of `hostileQuery` in the MySQL dialect with numbered placeholders. -/
def hostileStatement : Statement where
  sql :=
    "SELECT \x60a?\x60, $1 AS \x60b\x60\x60$7\x60 INTO @x$1, y$2 " ++
      "FROM \x60t\x60\x60 ? \x60\x60\x60 " ++
      "WHERE \x60c\x60 IN (SELECT \x60?\x60 FROM \x60u\x60 WHERE \x60d$1\x60 IN ($2, $3)) LIMIT $4"
  values := [.int 5, .int 1, .null, .int 3]
  dialect := "mysql"

set_option maxRecDepth 4000 in
theorem compile_hostileQuery :
    Dialect.compile { Dialect.mysql with placeholder := .numbered } hostileQuery =
      .ok hostileStatement := by
  rw [Dialect.mysql_eq]
  rfl

/-- What looks like a placeholder within a name or a variable is not read as one. -/
theorem compile_placeholders_hostileQuery :
    Dialect.compile { Dialect.mysql with placeholder := .numbered } hostileQuery =
        .ok hostileStatement ∧
      (placeholders (lex Dialect.mysql.quoting.mark hostileStatement.sql.toList)).map
          (Token.write Dialect.mysql.quoting.mark) =
        [['$', '1'], ['$', '2'], ['$', '3'], ['$', '4']] ∧
      ∀ v ∈ hostileStatement.values, v.isScalar = true ∧ v ∈ hostileQuery.leaves := by
  have hmem : Dialect.mysql ∈ Dialect.library := List.mem_cons_of_mem _ List.mem_cons_self
  obtain ⟨hplaceholders, hvalues⟩ := compile_placeholders hmem (.inr rfl) compile_hostileQuery
  exact ⟨compile_hostileQuery, hplaceholders, hvalues⟩

end QueryTree
