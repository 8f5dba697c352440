import QueryTree.Proofs.LikeStatements
import QueryTree.Proofs.Statements

/-!
# The text does not depend on the data

Scalars that are bound leave no trace in a statement: whichever they are, the same queries compile,
to the same text and to equally many values.

* `Likeness.equal` is the likeness of texts that are the same.
* **`compile_shape_eq`** : queries that differ only in scalars that are bound compile to the same
  text and to equally many values, or do not compile.
-/

namespace QueryTree

/-- Texts that are the same where no parentheses differ. -/
def Likeness.equal : Likeness :=
  .ofCongruence
    { rel _ a a' := a = a'
      refl _ := rfl
      append ha hb := by rw [ha, hb] }

theorem Placeholder.isEmpty_eq_false {style : Placeholder}
    (h : style = .question ∨ style = .numbered) (n : Nat) : (style n).isEmpty = false := by
  rcases h with rfl | rfl
  · rfl
  · rw [Placeholder.numbered, Likeness.isEmpty_append]
    rfl

namespace Dialect

/-- A dialect of the library next to itself, both counting from the start. -/
theorem like_self {d : Dialect} (hd : d ∈ library) : d.Like .equal 0 0 d := by
  refine like_of_tokens hd fun i => ?_
  have hempty := Placeholder.isEmpty_eq_false (settled_of_mem hd).placeholder (0 + i + 1)
  exact Likeness.ofCongruence_rel hempty hempty rfl

end Dialect

/-- What a statement shows of its values: their number. -/
def Statement.shape (statement : Statement) : String × Nat :=
  (statement.sql, statement.values.length)

/-- **The text does not depend on the data.** Queries that differ only in scalars that are bound,
none of them `null`, compile to the same text and to equally many values, or do not compile. -/
theorem compile_shape_eq {d : Dialect} (hd : d ∈ Dialect.library) {query query' : Value}
    (h : Alike (fun _ _ => True) .nested query query') :
    (d.compile query).toOption.map Statement.shape =
      (d.compile query').toOption.map Statement.shape := by
  refine (Dialect.like_self hd).toOption_map_eq h fun {statement statement'} hvalues hsql => ?_
  rw [Statement.shape, Statement.shape, hsql.2.2 id, hvalues.length_eq]

/-- A query with scalars in an assignment, in a bound value, in a list, in a pattern of a nested
query and in the comparison of an expression. -/
def correction (price code first pattern total : Value) : Value :=
  .object
    [("$update", .object
      [("$table", .str "orders"),
        ("$set", .object [("price", price), ("code", .object [("$val", code)])]),
        ("$where", .object
          [("state", .list [first, .null]),
            ("client", .object
              [("$in", .object
                [("$select", .object
                  [("$columns", .str "id"), ("$from", .str "clients"),
                    ("$where", .object [("name", .object [("$ilike", pattern)])])])])]),
            ("$expr", .object [("$count", .str "*"), ("$gt", total)])])])]

/-- Two corrections are alike if their data are. -/
theorem correction_alike {price code first pattern total : Value}
    {price' code' first' pattern' total' : Value}
    (hprice : Alike (fun _ _ => True) .operand price price')
    (hcode : Alike (fun _ _ => True) .literal code code')
    (hfirst : Alike (fun _ _ => True) .operand first first')
    (hpattern : Alike (fun _ _ => True) .operand pattern pattern')
    (htotal : Alike (fun _ _ => True) .operand total total') :
    Alike (fun _ _ => True) .nested (correction price code first pattern total)
      (correction price' code' first' pattern' total') := by
  have hset : Alike (fun _ _ => True) .assignments
      (.object [("price", price), ("code", .object [("$val", code)])])
      (.object [("price", price'), ("code", .object [("$val", code')])]) :=
    .object (by decide) (.cons hprice (.cons (.object (by decide) (.cons hcode .nil)) .nil))
  have hname : Alike (fun _ _ => True) .filter (.object [("name", .object [("$ilike", pattern)])])
      (.object [("name", .object [("$ilike", pattern')])]) :=
    .object (by decide) (.cons (.object (by decide) (.cons hpattern .nil)) .nil)
  have hclients : Alike (fun _ _ => True) .members
      (.object [("$select", .object [("$columns", .str "id"), ("$from", .str "clients"),
        ("$where", .object [("name", .object [("$ilike", pattern)])])])])
      (.object [("$select", .object [("$columns", .str "id"), ("$from", .str "clients"),
        ("$where", .object [("name", .object [("$ilike", pattern')])])])]) :=
    .object (by decide) (.cons (.object (by decide)
      (.cons (.same _ _) (.cons (.same _ _) (.cons hname .nil)))) .nil)
  have hstate : Alike (fun _ _ => True) .column (.list [first, .null]) (.list [first', .null]) :=
    .list (by decide) (.cons hfirst (.cons (.same _ _) .nil))
  have hexpr : Alike (fun _ _ => True) .comparisons
      (.object [("$count", .str "*"), ("$gt", total)])
      (.object [("$count", .str "*"), ("$gt", total')]) :=
    .object (by decide) (.cons (.same _ _) (.cons htotal .nil))
  refine .object (by decide) (.cons (.object (by decide) (.cons (.same _ _) (.cons hset
    (.cons (.object (by decide) (.cons hstate (.cons (.object (by decide) (.cons hclients .nil))
      (.cons hexpr .nil)))) .nil)))) .nil)

/-- The text of a correction in the PostgreSQL dialect, and how many values it takes. -/
def correctionShape : String × Nat :=
  ("UPDATE \"orders\" SET \"price\" = $1, \"code\" = $2 WHERE \"state\" IN ($3, $4) AND " ++
    "\"client\" IN (SELECT \"id\" FROM \"clients\" WHERE \"name\" ILIKE $5) AND COUNT(*) > $6", 6)

set_option maxRecDepth 4000 in
theorem compile_correction :
    (Dialect.postgres.compile
        (correction (.int 5) (.str "a") (.bool true) (.str "b%") (.int 1))).toOption.map
      Statement.shape = some correctionShape := by
  rw [Dialect.postgres_eq]
  rfl

/-- Integers, texts and booleans in the places of each other. -/
theorem compile_shape_eq_correction :
    Dialect.postgres ∈ Dialect.library ∧
      Alike (fun _ _ => True) .nested
        (correction (.int 5) (.str "a") (.bool true) (.str "b%") (.int 1))
        (correction (.str "5") (.bool false) (.int 7) (.str "") (.str "one")) ∧
      (Dialect.postgres.compile
          (correction (.str "5") (.bool false) (.int 7) (.str "") (.str "one"))).toOption.map
        Statement.shape = some correctionShape := by
  have hmem : Dialect.postgres ∈ Dialect.library := by simp [Dialect.library]
  have halike : Alike (fun _ _ => True) .nested
      (correction (.int 5) (.str "a") (.bool true) (.str "b%") (.int 1))
      (correction (.str "5") (.bool false) (.int 7) (.str "") (.str "one")) :=
    correction_alike (.scalar rfl ⟨rfl, rfl⟩ ⟨rfl, rfl⟩ trivial)
      (.scalar rfl ⟨rfl, rfl⟩ ⟨rfl, rfl⟩ trivial) (.scalar rfl ⟨rfl, rfl⟩ ⟨rfl, rfl⟩ trivial)
      (.scalar rfl ⟨rfl, rfl⟩ ⟨rfl, rfl⟩ trivial) (.scalar rfl ⟨rfl, rfl⟩ ⟨rfl, rfl⟩ trivial)
  exact ⟨hmem, halike, (compile_shape_eq hmem halike).symm.trans compile_correction⟩

end QueryTree
